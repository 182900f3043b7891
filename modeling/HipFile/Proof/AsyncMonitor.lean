import HipFile.Model.AsyncMonitor

/-!
# The accesses of `async_io_cleanup` and the extraction of its op

* `step_cases`: what a step does to the points, the completed and the extracted ops
  and the accesses.
* `OrderInv`: in every run an op is extracted after its `completeOp` only, and the
  only access that may be late is the last.
* `allEarly_of_guarded`: no access is late as long as no op is extracted inside the
  window between its `completeOp` and its last read.
* `late_of_unguarded`: an extraction inside the window is followed by a late read.
-/

namespace HipFile.AsyncSystem

variable {s s' : State} {l : Step} {op : ℕ}

/-- The last read of the op by `async_io_cleanup` has been made. -/
def Point.PastLastRead (p : Point) : Prop := p = .reading ∨ p = .done

/-- The `completeOp` of the op has been made. -/
def Point.Completing (p : Point) : Prop := p = .completed ∨ p = .notified ∨ p.PastLastRead

/-- No access was made after the op had been extracted. -/
def AllEarly (s : State) : Prop := ∀ a ∈ s.accesses, a.late = false

/-- The completion thread takes no op while its `async_io_cleanup` is between its
`completeOp` and its last read. -/
def Guard (s : State) : Step → Prop
  | .iterate => ∀ op ∈ s.monitor.completedOps.getLast?, (s.point op).PastLastRead
  | _ => True

/-! ## Steps -/

/-- The moves of an op other than its `completeOp`, with the fields they access. -/
inductive Move : Point → Point → List Field → Prop
  | add : Move .fresh .added []
  | enqueue : Move .added .queued []
  | load : Move .queued .loaded [.bytesTransferred]
  | fail : Move .loaded .done []
  | notify : Move .completed .notified []
  | read : Move .notified .reading [.bytesTransferredInternal]
  | store : Move .reading .done []

/-- The step takes an op from a point to another one and accesses fields of it. -/
structure Moves (s s' : State) (op : ℕ) (p p' : Point) (fields : List Field) : Prop where
  before : s.point op = p
  point : s'.point = Function.update s.point op p'
  extracted : s'.extracted = s.extracted
  accesses : s'.accesses = s.accesses ++ fields.map fun f => ⟨op, f, op ∈ s.extracted⟩

/-- The step accesses no op. -/
structure Keeps (s s' : State) : Prop where
  point : s'.point = s.point
  extracted : s'.extracted = s.extracted
  accesses : s'.accesses = s.accesses

theorem cleanup_cases (h : cleanup s op = some s') :
    (∃ p p' fields, Move p p' fields ∧ Moves s s' op p p' fields ∧
      s'.monitor.completedOps = s.monitor.completedOps) ∨
    (Moves s s' op .loaded .completed [.file, .buffer, .stream] ∧
      s'.monitor.completedOps = s.monitor.completedOps ++ [op]) := by
  unfold cleanup at h
  split at h
  · obtain rfl := Option.some.inj h
    exact Or.inl ⟨_, _, _, .load, ⟨‹_›, rfl, rfl, rfl⟩, rfl⟩
  · unfold AsyncMonitor.completeOp at h
    split_ifs at h
    · obtain rfl := Option.some.inj h
      exact Or.inr ⟨⟨‹_›, rfl, rfl, rfl⟩, rfl⟩
    · obtain rfl := Option.some.inj h
      exact Or.inl ⟨_, _, _, .fail, ⟨‹_›, rfl, rfl, (List.append_nil _).symm⟩, rfl⟩
  · obtain rfl := Option.some.inj h
    exact Or.inl ⟨_, _, _, .notify, ⟨‹_›, rfl, rfl, (List.append_nil _).symm⟩, rfl⟩
  · obtain rfl := Option.some.inj h
    exact Or.inl ⟨_, _, _, .read, ⟨‹_›, rfl, rfl, rfl⟩, rfl⟩
  · obtain rfl := Option.some.inj h
    exact Or.inl ⟨_, _, _, .store, ⟨‹_›, rfl, rfl, (List.append_nil _).symm⟩, rfl⟩
  · cases h

/-- **What a step does**: it moves an op without completing it; or it runs the section
of a `completeOp`; or it extracts an op; or it accesses no op. -/
theorem step_cases (h : step s l = some s') :
    (∃ op p p' fields, Move p p' fields ∧ Moves s s' op p p' fields ∧
      s'.monitor.completedOps = s.monitor.completedOps) ∨
    (∃ op, Moves s s' op .loaded .completed [.file, .buffer, .stream] ∧
      s'.monitor.completedOps = s.monitor.completedOps ++ [op]) ∨
    (∃ op, l = .iterate ∧ s.monitor.completedOps.getLast? = some op ∧ s'.point = s.point ∧
      s'.monitor.completedOps = s.monitor.completedOps.dropLast ∧
      s'.extracted = insert op s.extracted ∧ s'.accesses = s.accesses) ∨
    (Keeps s s' ∧ s'.monitor.completedOps = s.monitor.completedOps) := by
  cases l with
  | addOp op =>
    simp only [step] at h
    split_ifs at h with hp
    obtain rfl := Option.some.inj h
    exact Or.inl ⟨op, _, _, _, .add, ⟨hp, rfl, rfl, (List.append_nil _).symm⟩, rfl⟩
  | enqueueCleanup op =>
    simp only [step] at h
    split_ifs at h with hp
    obtain rfl := Option.some.inj h
    exact Or.inl ⟨op, _, _, _, .enqueue, ⟨hp, rfl, rfl, (List.append_nil _).symm⟩, rfl⟩
  | dropReference op =>
    simp only [step] at h
    split_ifs at h
    obtain rfl := Option.some.inj h
    exact Or.inr (Or.inr (Or.inr ⟨⟨rfl, rfl, rfl⟩, rfl⟩))
  | cleanup op =>
    rcases cleanup_cases h with ⟨p, p', fields, hm, hs, hc⟩ | ⟨hs, hc⟩
    · exact Or.inl ⟨op, p, p', fields, hm, hs, hc⟩
    · exact Or.inr (Or.inl ⟨op, hs, hc⟩)
  | iterate =>
    simp only [step] at h
    split at h
    · unfold AsyncMonitor.completionThread at h
      cases hlast : s.monitor.completedOps.getLast? with
      | some op =>
        simp only [hlast] at h
        obtain rfl := Option.some.inj h
        exact Or.inr (Or.inr (Or.inl ⟨op, rfl, rfl, rfl, rfl, rfl, rfl⟩))
      | none =>
        simp only [hlast] at h
        refine Or.inr (Or.inr (Or.inr ?_))
        by_cases hf : s.monitor.isFinished = true
        · simp only [hf, not_true_eq_false, if_false] at h
          obtain rfl := Option.some.inj h
          exact ⟨⟨rfl, rfl, rfl⟩, rfl⟩
        · simp only [hf] at h
          obtain rfl := Option.some.inj h
          exact ⟨⟨rfl, rfl, rfl⟩, rfl⟩
    · cases h
  | wake =>
    simp only [step] at h
    split at h
    · obtain rfl := Option.some.inj h
      exact Or.inr (Or.inr (Or.inr ⟨⟨rfl, rfl, rfl⟩, rfl⟩))
    · cases h
  | finish =>
    obtain rfl := Option.some.inj h
    exact Or.inr (Or.inr (Or.inr ⟨⟨rfl, rfl, rfl⟩, rfl⟩))
  | notifyFinish =>
    simp only [step] at h
    split_ifs at h
    obtain rfl := Option.some.inj h
    exact Or.inr (Or.inr (Or.inr ⟨⟨rfl, rfl, rfl⟩, rfl⟩))

/-- A property of the points of some ops is kept by a move whose end has it, if the
moved op is one of them. -/
theorem Moves.forall_point {p p' : Point} {fields : List Field} (h : Moves s s' op p p' fields)
    {ops : ℕ → Prop} {P : Point → Prop} (hall : ∀ o, ops o → P (s.point o)) (hop : ops op → P p') :
    ∀ o, ops o → P (s'.point o) := by
  intro o ho
  rw [h.point]
  by_cases heq : o = op
  · subst heq
    rw [Function.update_self]
    exact hop ho
  · rw [Function.update_of_ne heq]
    exact hall o ho

/-- The accesses after a move are the ones before and those of the move. -/
theorem Moves.mem_accesses {p p' : Point} {fields : List Field} (h : Moves s s' op p p' fields)
    {a : Access} (ha : a ∈ s'.accesses) :
    a ∈ s.accesses ∨ a.field ∈ fields ∧ a.late = decide (op ∈ s.extracted) := by
  rw [h.accesses, List.mem_append, List.mem_map] at ha
  rcases ha with ha | ⟨f, hf, rfl⟩
  · exact Or.inl ha
  · exact Or.inr ⟨hf, rfl⟩

/-! ## Every run -/

/-- **What holds in every run.** -/
structure OrderInv (s : State) : Prop where
  completed : ∀ op, op ∈ s.monitor.completedOps → (s.point op).Completing
  extracted : ∀ op, op ∈ s.extracted → (s.point op).Completing
  accesses : ∀ a ∈ s.accesses, a.late = true → a.field = .bytesTransferredInternal

theorem Move.completing {p p' : Point} {fields : List Field} (h : Move p p' fields)
    (hp : p.Completing) : p'.Completing := by
  unfold Point.Completing Point.PastLastRead at *
  cases h <;> simp_all

theorem OrderInv.step (hI : OrderInv s) (h : AsyncSystem.step s l = some s') : OrderInv s' := by
  rcases step_cases h with ⟨op, p, p', fields, hm, hs, hc⟩ | ⟨op, hs, hc⟩ |
    ⟨op, -, hlast, hp, hc, he, ha⟩ | ⟨hk, hc⟩
  · -- an op moves on, without completing
    refine ⟨?_, ?_, fun a ha hlate => ?_⟩
    · rw [hc]
      exact hs.forall_point hI.completed fun ho => hm.completing (hs.before ▸ hI.completed op ho)
    · rw [hs.extracted]
      exact hs.forall_point hI.extracted fun ho => hm.completing (hs.before ▸ hI.extracted op ho)
    · rcases hs.mem_accesses ha with ha | ⟨hf, hl⟩
      · exact hI.accesses a ha hlate
      · -- an op that is extracted has run its `completeOp`
        rw [hl, decide_eq_true_eq] at hlate
        have hp := hI.extracted op hlate
        rw [hs.before] at hp
        unfold Point.Completing Point.PastLastRead at hp
        cases hm <;> simp_all
  · -- the section of `completeOp`: its accesses come before any extraction
    have hp : ¬ (s.point op).Completing := by
      rw [hs.before]
      simp [Point.Completing, Point.PastLastRead]
    refine ⟨fun o ho => ?_, ?_, fun a ha hlate => ?_⟩
    · rw [hc, List.mem_append, List.mem_singleton] at ho
      rw [hs.point]
      by_cases heq : o = op
      · rw [heq, Function.update_self]
        exact Or.inl rfl
      · rw [Function.update_of_ne heq]
        exact hI.completed o (ho.resolve_right heq)
    · rw [hs.extracted]
      exact hs.forall_point hI.extracted fun _ => Or.inl rfl
    · rcases hs.mem_accesses ha with ha | ⟨hf, hl⟩
      · exact hI.accesses a ha hlate
      · rw [hl, decide_eq_true_eq] at hlate
        exact absurd (hI.extracted op hlate) hp
  · -- an extraction takes an op that was completed
    refine ⟨fun o ho => ?_, fun o ho => ?_, fun a ha' hlate => ?_⟩
    · rw [hp]
      rw [hc] at ho
      exact hI.completed o (List.dropLast_subset _ ho)
    · rw [he, Finset.mem_insert] at ho
      rw [hp]
      rcases ho with rfl | ho
      · exact hI.completed o (List.mem_of_getLast? hlast)
      · exact hI.extracted o ho
    · rw [ha] at ha'
      exact hI.accesses a ha' hlate
  · refine ⟨?_, ?_, ?_⟩
    · rw [hc, hk.point]; exact hI.completed
    · rw [hk.extracted, hk.point]; exact hI.extracted
    · rw [hk.accesses]; exact hI.accesses

theorem orderInv_of_reachable (h : machine.Reachable s) : OrderInv s :=
  h.invariant ⟨fun _ h => (by cases h), fun _ h => (by cases h), fun _ h => (by cases h)⟩
    fun _ _ _ hI _ hst => hI.step hst

/-! ## Guarded runs -/

/-- **What holds in the runs whose extractions meet the guard.** -/
structure EarlyInv (s : State) : Prop where
  extracted : ∀ op, op ∈ s.extracted → (s.point op).PastLastRead
  accesses : AllEarly s

theorem Move.pastLastRead {p p' : Point} {fields : List Field} (h : Move p p' fields)
    (hp : p.PastLastRead) : p'.PastLastRead ∧ fields = [] := by
  unfold Point.PastLastRead at *
  cases h <;> simp_all

theorem EarlyInv.step (hI : EarlyInv s) (hg : Guard s l) (h : AsyncSystem.step s l = some s') :
    EarlyInv s' := by
  rcases step_cases h with ⟨op, p, p', fields, hm, hs, hc⟩ | ⟨op, hs, hc⟩ |
    ⟨op, rfl, hlast, hp, hc, he, ha⟩ | ⟨hk, hc⟩
  · refine ⟨?_, fun a ha => ?_⟩
    · rw [hs.extracted]
      exact hs.forall_point hI.extracted fun ho =>
        (hm.pastLastRead (hs.before ▸ hI.extracted op ho)).1
    · rcases hs.mem_accesses ha with ha | ⟨hf, hl⟩
      · exact hI.accesses a ha
      · rw [hl, decide_eq_false_iff_not]
        intro ho
        rw [(hm.pastLastRead (hs.before ▸ hI.extracted op ho)).2] at hf
        cases hf
  · have hp : ¬ (s.point op).PastLastRead := by
      rw [hs.before]
      simp [Point.PastLastRead]
    refine ⟨?_, fun a ha => ?_⟩
    · rw [hs.extracted]
      exact hs.forall_point hI.extracted fun ho => absurd (hI.extracted op ho) hp
    · rcases hs.mem_accesses ha with ha | ⟨hf, hl⟩
      · exact hI.accesses a ha
      · rw [hl, decide_eq_false_iff_not]
        exact fun ho => hp (hI.extracted op ho)
  · refine ⟨fun o ho => ?_, fun a ha' => ?_⟩
    · rw [he, Finset.mem_insert] at ho
      rw [hp]
      rcases ho with rfl | ho
      · -- the guard: the op extracted is past its last read
        exact hg o hlast
      · exact hI.extracted o ho
    · rw [ha] at ha'
      exact hI.accesses a ha'
  · refine ⟨?_, ?_⟩
    · rw [hk.extracted, hk.point]; exact hI.extracted
    · unfold AllEarly
      rw [hk.accesses]; exact hI.accesses

theorem allEarly_of_guarded (h : machine.Reaches Guard s) : AllEarly s :=
  (h.invariant (I := EarlyInv) ⟨fun _ h => (by cases h), fun _ h => (by cases h)⟩
    fun _ _ _ hI hg hst => hI.step hg hst).accesses

/-! ## Runs that break the guard -/

/-- The last read of an op that has been extracted is late. -/
theorem late_read (hp : s.point op = .notified) (he : op ∈ s.extracted) :
    ∃ s', machine.run s [.cleanup op] = some s' ∧ ¬ AllEarly s' := by
  refine ⟨(s.access op [.bytesTransferredInternal]).goto op .reading, ?_, fun h => ?_⟩
  · simp [Machine.run, machine, step, cleanup, hp]
  · have hmem : (⟨op, .bytesTransferredInternal, op ∈ s.extracted⟩ : Access) ∈
        ((s.access op [.bytesTransferredInternal]).goto op .reading).accesses :=
      List.mem_append_right _ (List.mem_singleton.2 rfl)
    exact absurd he (of_decide_eq_false (h _ hmem))

/-- A step that breaks the guard extracts an op inside the window. -/
theorem unguarded_cases (hst : step s l = some s') (hg : ¬ Guard s l) :
    ∃ op ∈ s.monitor.completedOps, ¬ (s.point op).PastLastRead ∧ s'.point = s.point ∧
      op ∈ s'.extracted := by
  cases l with
  | iterate =>
    simp only [Guard, not_forall] at hg
    obtain ⟨op, hlast, hop⟩ := hg
    rw [Option.mem_def] at hlast
    simp only [step, AsyncMonitor.completionThread, hlast] at hst
    split at hst
    · obtain rfl := Option.some.inj hst
      exact ⟨op, List.mem_of_getLast? hlast, hop, rfl, Finset.mem_insert_self _ _⟩
    · cases hst
  | _ => exact absurd trivial hg

/-- **An extraction inside the window is followed by a late read**, as soon as the
callback goes on. -/
theorem late_of_unguarded (hs : machine.Reachable s) (hst : machine.step s l = some s')
    (hg : ¬ Guard s l) : ∃ ls s'', machine.run s' ls = some s'' ∧ ¬ AllEarly s'' := by
  obtain ⟨op, hmem, hop, hpoint, he⟩ := unguarded_cases hst hg
  rcases (orderInv_of_reachable hs).completed op hmem with h | h | h
  · -- the callback has still to notify, and reads after that
    have hcleanup : machine.step s' (.cleanup op) = some (s'.notifyOne.goto op .notified) := by
      simp [machine, step, cleanup, hpoint, h]
    have hnotified : (s'.notifyOne.goto op .notified).point op = .notified :=
      Function.update_self _ _ _
    obtain ⟨s'', hrun, hlate⟩ := late_read hnotified he
    refine ⟨[.cleanup op, .cleanup op], s'', ?_, hlate⟩
    rw [Machine.run, hcleanup]
    exact hrun
  · obtain ⟨s'', hrun, hlate⟩ := late_read (hpoint ▸ h) he
    exact ⟨_, s'', hrun, hlate⟩
  · exact absurd h hop

/-- **When the accesses of `async_io_cleanup` come before the extraction of its op**: in
the runs in which the completion thread takes no op between its `completeOp` and its
last read; and a step that does take one is followed by a late read. -/
theorem cleanup_accesses_early (ls : List Step) (s : State)
    (hrun : machine.run machine.init ls = some s) :
    (machine.RunMeets Guard machine.init ls → AllEarly s) ∧
    ∀ l s', machine.step s l = some s' → ¬ Guard s l →
      ∃ ls' s'', machine.run s' ls' = some s'' ∧ ¬ AllEarly s'' := by
  refine ⟨fun hg => ?_, fun l s' hst hg => ?_⟩
  · have hreach : machine.Reaches Guard s := Machine.reaches_run .init hg hrun
    exact allEarly_of_guarded hreach
  · exact late_of_unguarded (Machine.reachable_of_run hrun) hst hg

/-- The completion thread takes the op when the callback is done with it. -/
def patientRun : List Step :=
  [.addOp 1, .enqueueCleanup 1, .dropReference 1, .cleanup 1, .cleanup 1, .cleanup 1, .cleanup 1,
    .iterate]

theorem patientRun_guarded : machine.RunMeets Guard machine.init patientRun :=
  ⟨trivial, trivial, trivial, trivial, trivial, trivial, trivial, fun _ h =>
    Option.some.inj h ▸ Or.inl rfl, trivial⟩

theorem allEarly_patientRun : ∃ s, machine.run machine.init patientRun = some s ∧
    1 ∈ s.extracted ∧ s.accesses.length = 5 ∧ AllEarly s := by
  have hrun : ∃ s, machine.run machine.init patientRun = some s ∧ 1 ∈ s.extracted ∧
      s.accesses.length = 5 := ⟨_, rfl, by decide, by decide⟩
  obtain ⟨s, hrun, he, hlen⟩ := hrun
  exact ⟨s, hrun, he, hlen, (cleanup_accesses_early patientRun s hrun).1 patientRun_guarded⟩

/-- The completion thread takes the op right after its `completeOp`, while the
submitter has dropped its reference. -/
def lateRun : List Step :=
  [.addOp 1, .enqueueCleanup 1, .dropReference 1, .cleanup 1, .cleanup 1, .iterate, .cleanup 1,
    .cleanup 1]

/-- The last read of `lateRun` is of an op that may have been freed. -/
theorem not_allEarly_lateRun :
    ∃ s, machine.run machine.init lateRun = some s ∧ machine.Reachable s ∧ 1 ∉ s.submitterHolds ∧
      1 ∈ s.extracted ∧ ⟨1, .bytesTransferredInternal, true⟩ ∈ s.accesses ∧ ¬ AllEarly s := by
  have h : ∃ s, machine.run machine.init lateRun = some s ∧ 1 ∉ s.submitterHolds ∧
      1 ∈ s.extracted ∧ ⟨1, .bytesTransferredInternal, true⟩ ∈ s.accesses :=
    ⟨_, rfl, by decide, by decide, by decide⟩
  obtain ⟨s, hrun, hheld, he, ha⟩ := h
  exact ⟨s, hrun, Machine.reachable_of_run hrun, hheld, he, ha, fun h => by cases h _ ha⟩

end HipFile.AsyncSystem
