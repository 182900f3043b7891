import HipFile.Model.Completion

/-!
# Ops are released once, and after their completion

* `step_moves`: what a step does.
* `KeysInv`: what `submitted_ops` and `completed_ops` hold, whatever addresses the ops get.
* `WakeInv`: the completion thread does not wait while there is something to do that
  nobody will tell it of.
* `released_once`: the ops, the containers and the completion thread in every run.
-/

namespace HipFile.Completion

variable {s s' : State} {l : Step} {op : ℕ}

/-! ## Steps -/

/-- What the steps do. -/
inductive Moves (s : State) : Step → State → Prop
  | addOp {op a : ℕ} (hp : s.point op = .fresh) (ha : a ∉ s.monitor.submittedOps) :
    Moves s (.addOp op a) ({ s with
      monitor := s.monitor.addOp a
      address := Function.update s.address op a
      held := Function.update s.held a op }.goto op .added)
  | completeOp {op : ℕ} (hp : s.point op = .added)
      (hk : s.address op ∈ s.monitor.submittedOps) :
    Moves s (.completeOp op) ({ s with monitor := { s.monitor with
      completedOps := s.monitor.completedOps ++ [s.address op] } }.goto op .completed)
  | refuse {op : ℕ} (hp : s.point op = .added) (hk : s.address op ∉ s.monitor.submittedOps) :
    Moves s (.completeOp op) (s.goto op .refused)
  | notify {op : ℕ} (hp : s.point op = .completed) :
    Moves s (.notify op) (s.notifyOne.goto op .notified)
  | extract {a : ℕ} {rest : List ℕ} (hw : s.worker = .running)
      (hc : s.monitor.completedOps = rest ++ [a]) :
    Moves s .iterate { s with
      monitor := { s.monitor with
        completedOps := rest
        submittedOps := s.monitor.submittedOps.erase a }
      released := s.released ++ [s.held a] }
  | wait (hw : s.worker = .running) (hc : s.monitor.completedOps = [])
      (hf : s.monitor.isFinished = false) :
    Moves s .iterate { s with worker := .waiting, notifyPending := false }
  | exit (hw : s.worker = .running) (hc : s.monitor.completedOps = [])
      (hf : s.monitor.isFinished = true) :
    Moves s .iterate { s with worker := .exited }
  | wake (hw : s.worker = .waiting) :
    Moves s .wake { s with
      worker := if s.monitor.wakeTest then .running else .waiting
      notifyPending := false }
  | finish (hd : s.destructor = .before) :
    Moves s .finish { s with
      monitor := { s.monitor with isFinished := true }
      destructor := .finished
      early := {op | s.Completed op} }
  | notifyFinish (hd : s.destructor = .finished) :
    Moves s .notifyFinish { s.notifyOne with destructor := .notified }

/-- The completion thread takes the op at the back, waits, or exits. -/
theorem iterate_moves (h : step s .iterate = some s') : Moves s .iterate s' := by
  simp only [step] at h
  split at h
  · rename_i hw
    unfold AsyncMonitor.completionThread at h
    cases hlast : s.monitor.completedOps.getLast? with
    | some a =>
      simp only [hlast] at h
      obtain rfl := Option.some.inj h
      obtain ⟨rest, hrest⟩ := List.getLast?_eq_some_iff.1 hlast
      have hdrop : s.monitor.completedOps.dropLast = rest := by rw [hrest, List.dropLast_concat]
      rw [hdrop]
      exact .extract hw hrest
    | none =>
      have hnil := List.getLast?_eq_none_iff.1 hlast
      simp only [hlast] at h
      cases hf : s.monitor.isFinished with
      | false =>
        simp only [hf, Bool.false_eq_true, not_false_eq_true, if_true] at h
        obtain rfl := Option.some.inj h
        exact .wait hw hnil hf
      | true =>
        simp only [hf, not_true_eq_false, if_false] at h
        obtain rfl := Option.some.inj h
        exact .exit hw hnil hf
  · cases h

/-- **The steps, by what they do.** -/
theorem step_moves (h : machine.step s l = some s') : Moves s l s' := by
  cases l with
  | addOp op a =>
    simp only [machine, step] at h
    split at h
    · rename_i hg
      obtain rfl := Option.some.inj h
      exact .addOp hg.1 hg.2
    · cases h
  | completeOp op =>
    simp only [machine, step, AsyncMonitor.completeOp] at h
    split at h
    · rename_i hp
      split at h <;> rename_i hr <;> split at hr <;> cases hr <;> rename_i hk <;> cases h
      · exact .completeOp hp (not_not.1 hk)
      · exact .refuse hp hk
    · cases h
  | notify op =>
    simp only [machine, step] at h
    split at h
    · rename_i hp
      obtain rfl := Option.some.inj h
      exact .notify hp
    · cases h
  | iterate => exact iterate_moves h
  | wake =>
    simp only [machine, step] at h
    split at h
    · rename_i hw
      obtain rfl := Option.some.inj h
      exact .wake hw
    · cases h
  | finish =>
    simp only [machine, step] at h
    split at h
    · rename_i hd
      obtain rfl := Option.some.inj h
      exact .finish hd
    · cases h
  | notifyFinish =>
    simp only [machine, step] at h
    split at h
    · rename_i hd
      obtain rfl := Option.some.inj h
      exact .notifyFinish hd
    · cases h

/-! ## The containers -/

/-- **What the containers hold**: `submitted_ops` the ops that have been added and not
released, each under its address; `completed_ops` those of them that are completed. -/
structure KeysInv (s : State) : Prop where
  holds : ∀ op, s.point op ≠ .fresh → op ∉ s.released → s.Holds op
  key : ∀ a ∈ s.monitor.submittedOps,
    s.point (s.held a) ≠ .fresh ∧ s.address (s.held a) = a ∧ s.held a ∉ s.released
  nodup : s.monitor.completedOps.Nodup
  subset : ∀ a ∈ s.monitor.completedOps, a ∈ s.monitor.submittedOps
  completed : ∀ a ∈ s.monitor.completedOps, s.Completed (s.held a)
  drained : ∀ op, s.Completed op → op ∈ s.released ∨ s.address op ∈ s.monitor.completedOps
  released : ∀ op ∈ s.released, s.Completed op
  released_nodup : s.released.Nodup
  not_refused : ∀ op, s.point op ≠ .refused

theorem KeysInv.init : KeysInv init where
  holds op h := absurd rfl h
  key a h := absurd h (Finset.notMem_empty a)
  nodup := List.nodup_nil
  subset := nofun
  completed := nofun
  drained op h := by rcases h with h | h <;> cases h
  released := nofun
  released_nodup := List.nodup_nil
  not_refused op := nofun

/-- The step leaves the containers, and no op is added or completed by it. -/
structure Keeps (s s' : State) : Prop where
  submittedOps : s'.monitor.submittedOps = s.monitor.submittedOps
  completedOps : s'.monitor.completedOps = s.monitor.completedOps
  address : s'.address = s.address
  held : s'.held = s.held
  released : s'.released = s.released
  fresh : ∀ op, s'.point op = .fresh ↔ s.point op = .fresh
  completed : ∀ op, s'.Completed op ↔ s.Completed op
  refused : ∀ op, s'.point op = .refused ↔ s.point op = .refused

theorem KeysInv.of_keeps (hI : KeysInv s) (hk : Keeps s s') : KeysInv s' where
  holds op hp hr := by
    have h := hI.holds op (fun h => hp ((hk.fresh op).2 h)) (hk.released ▸ hr)
    unfold State.Holds at h ⊢
    rw [hk.submittedOps, hk.address, hk.held]
    exact h
  key a ha := by
    have h := hI.key a (hk.submittedOps ▸ ha)
    rw [hk.held, hk.address, hk.released, Ne, hk.fresh]
    exact h
  nodup := hk.completedOps ▸ hI.nodup
  subset a ha := hk.submittedOps ▸ hI.subset a (hk.completedOps ▸ ha)
  completed a ha := by
    rw [hk.completed, hk.held]
    exact hI.completed a (hk.completedOps ▸ ha)
  drained op hc := by
    rw [hk.released, hk.address, hk.completedOps]
    exact hI.drained op ((hk.completed op).1 hc)
  released op hr := (hk.completed op).2 (hI.released op (hk.released ▸ hr))
  released_nodup := hk.released ▸ hI.released_nodup
  not_refused op h := hI.not_refused op ((hk.refused op).1 h)

/-- A new op is no op that has been released or that is held. -/
theorem KeysInv.addOp (hI : KeysInv s) {a : ℕ} (hp : s.point op = .fresh)
    (ha : a ∉ s.monitor.submittedOps) :
    KeysInv ({ s with
      monitor := s.monitor.addOp a
      address := Function.update s.address op a
      held := Function.update s.held a op }.goto op .added) := by
  -- no address in `submitted_ops` is the new one, and none is held by the new op
  have hkey : ∀ a' ∈ s.monitor.submittedOps, a' ≠ a ∧ s.held a' ≠ op := by
    intro a' ha'
    refine ⟨fun h => ha (h ▸ ha'), fun h => ?_⟩
    exact (hI.key a' ha').1 (h ▸ hp)
  have hcompleted : ∀ op', s.Completed op' → op' ≠ op := by
    rintro op' h rfl
    rcases h with h | h <;> rw [hp] at h <;> cases h
  refine ⟨?_, ?_, hI.nodup, ?_, ?_, ?_, ?_, hI.released_nodup, ?_⟩
  · intro op' hp' hr
    by_cases h : op' = op
    · subst h
      simp [State.Holds, State.goto, AsyncMonitor.addOp]
    · simp only [State.goto, Function.update_of_ne h] at hp'
      have hh := hI.holds op' hp' hr
      have hne := (hkey _ hh.1).1
      simp only [State.Holds, State.goto, AsyncMonitor.addOp, Function.update_of_ne h,
        Function.update_of_ne hne]
      exact ⟨Finset.mem_insert_of_mem hh.1, hh.2⟩
  · intro a' ha'
    rcases Finset.mem_insert.1 ha' with rfl | ha'
    · have hr : op ∉ s.released := fun hr => hcompleted op (hI.released op hr) rfl
      simp [State.goto, hr]
    · obtain ⟨hne, hop⟩ := hkey a' ha'
      simp only [State.goto, Function.update_of_ne hne, Function.update_of_ne hop]
      exact hI.key a' ha'
  · intro a' ha'
    exact Finset.mem_insert_of_mem (hI.subset a' ha')
  · intro a' ha'
    obtain ⟨hne, hop⟩ := hkey a' (hI.subset a' ha')
    simp only [State.Completed, State.goto, Function.update_of_ne hne, Function.update_of_ne hop]
    exact hI.completed a' ha'
  · intro op' hc
    by_cases h : op' = op
    · subst h
      simp [State.Completed, State.goto] at hc
    · simp only [State.Completed, State.goto, Function.update_of_ne h] at hc ⊢
      exact hI.drained op' hc
  · intro op' hr
    have hc := hI.released op' hr
    have h := hcompleted op' hc
    simp only [State.Completed, State.goto, Function.update_of_ne h]
    exact hc
  · intro op'
    by_cases h : op' = op
    · subst h; simp [State.goto]
    · simp only [State.goto, Function.update_of_ne h]
      exact hI.not_refused op'

/-- An op that is added and not completed is in `submitted_ops` under its address, and
not in `completed_ops`. -/
theorem KeysInv.added (hI : KeysInv s) (hp : s.point op = .added) :
    s.Holds op ∧ op ∉ s.released ∧ s.address op ∉ s.monitor.completedOps := by
  have hc : ¬ s.Completed op := by
    intro h
    rcases h with h | h <;> rw [hp] at h <;> cases h
  have hr : op ∉ s.released := fun hr => hc (hI.released op hr)
  have hh := hI.holds op (by rw [hp]; nofun) hr
  exact ⟨hh, hr, fun hmem => hc (hh.2 ▸ hI.completed _ hmem)⟩

theorem KeysInv.completeOp (hI : KeysInv s) (hp : s.point op = .added) :
    KeysInv ({ s with monitor := { s.monitor with
      completedOps := s.monitor.completedOps ++ [s.address op] } }.goto op .completed) := by
  obtain ⟨hh, hr, hmem⟩ := hI.added hp
  have hcompleted : ∀ op', s.Completed op' → op' ≠ op := by
    rintro op' h rfl
    rcases h with h | h <;> rw [hp] at h <;> cases h
  refine ⟨?_, ?_, ?_, ?_, ?_, ?_, ?_, hI.released_nodup, ?_⟩
  · intro op' hp' hr'
    by_cases h : op' = op
    · exact h ▸ hh
    · simp only [State.goto, Function.update_of_ne h] at hp'
      exact hI.holds op' hp' hr'
  · intro a ha
    have h := hI.key a ha
    refine ⟨?_, h.2⟩
    by_cases hop : s.held a = op
    · simp [State.goto, hop]
    · simp only [State.goto, Function.update_of_ne hop]
      exact h.1
  -- the address is not in `completed_ops` yet: an op that is added has not been completed
  · exact hI.nodup.append (List.nodup_singleton _) (by simpa using hmem)
  · intro a ha
    rcases List.mem_append.1 ha with ha | ha
    · exact hI.subset a ha
    · rw [List.mem_singleton.1 ha]; exact hh.1
  · intro a ha
    rcases List.mem_append.1 ha with ha | ha
    · have hc := hI.completed a ha
      have hne := hcompleted _ hc
      simp only [State.Completed, State.goto, Function.update_of_ne hne]
      exact hc
    · rw [List.mem_singleton.1 ha]
      simp only [State.Completed, State.goto, hh.2]
      simp
  · intro op' hc
    by_cases h : op' = op
    · subst h
      exact Or.inr (by simp [State.goto])
    · simp only [State.Completed, State.goto, Function.update_of_ne h] at hc
      rcases hI.drained op' hc with hd | hd
      · exact Or.inl hd
      · exact Or.inr (List.mem_append_left _ hd)
  · intro op' hr'
    have hc := hI.released op' hr'
    have h := hcompleted op' hc
    simp only [State.Completed, State.goto, Function.update_of_ne h]
    exact hc
  · intro op'
    by_cases h : op' = op
    · subst h; simp [State.goto]
    · simp only [State.goto, Function.update_of_ne h]
      exact hI.not_refused op'

/-- The op at the back of `completed_ops` is released, and only this one. -/
theorem KeysInv.extract (hI : KeysInv s) {a : ℕ} {rest : List ℕ}
    (hc : s.monitor.completedOps = rest ++ [a]) :
    KeysInv { s with
      monitor := { s.monitor with
        completedOps := rest
        submittedOps := s.monitor.submittedOps.erase a }
      released := s.released ++ [s.held a] } := by
  have hmem : a ∈ s.monitor.completedOps := by rw [hc]; simp
  have hnodup := hI.nodup
  rw [hc] at hnodup
  have hrest : a ∉ rest := fun h => (List.nodup_append.1 hnodup).2.2 a h a (by simp) rfl
  have hsub : ∀ a' ∈ rest, a' ∈ s.monitor.completedOps := fun a' h => by
    rw [hc]; exact List.mem_append_left _ h
  obtain ⟨hpa, haa, hra⟩ := hI.key a (hI.subset a hmem)
  refine ⟨?_, ?_, (List.nodup_append.1 hnodup).1, ?_, ?_, ?_, ?_, ?_, hI.not_refused⟩
  · intro op hp hr
    have hr' : op ∉ s.released ∧ op ≠ s.held a := by simpa using hr
    have hh := hI.holds op hp hr'.1
    have hne : s.address op ≠ a := fun h => hr'.2 (h ▸ hh.2.symm)
    exact ⟨Finset.mem_erase.2 ⟨hne, hh.1⟩, hh.2⟩
  · intro a' ha'
    obtain ⟨hne, ha'⟩ := Finset.mem_erase.1 ha'
    obtain ⟨hp, haddr, hr⟩ := hI.key a' ha'
    have hop : s.held a' ≠ s.held a := fun h => hne (by rw [← haddr, ← haa, h])
    exact ⟨hp, haddr, by simp [hr, hop]⟩
  · intro a' ha'
    exact Finset.mem_erase.2 ⟨fun h => hrest (h ▸ ha'), hI.subset a' (hsub a' ha')⟩
  · intro a' ha'
    exact hI.completed a' (hsub a' ha')
  · intro op hcop
    rcases hI.drained op hcop with hr | hin
    · exact Or.inl (List.mem_append_left _ hr)
    · rw [hc] at hin
      rcases List.mem_append.1 hin with hin | hin
      · exact Or.inr hin
      · -- the op whose address is taken is the one that is held there
        by_cases hr : op ∈ s.released
        · exact Or.inl (List.mem_append_left _ hr)
        · have hp : s.point op ≠ .fresh := by
            intro h
            rcases hcop with hcop | hcop <;> rw [h] at hcop <;> cases hcop
          have hheld := (hI.holds op hp hr).2
          rw [List.mem_singleton.1 hin] at hheld
          exact Or.inl (by rw [hheld]; simp)
  · intro op hr
    rcases List.mem_append.1 hr with hr | hr
    · exact hI.released op hr
    · rw [List.mem_singleton.1 hr]; exact hI.completed a hmem
  · exact hI.released_nodup.append (List.nodup_singleton _) (by simpa using hra)

/-- **A step keeps what the containers hold.** -/
theorem KeysInv.step (hI : KeysInv s) (h : Moves s l s') : KeysInv s' := by
  cases h with
  | addOp hp ha => exact hI.addOp hp ha
  | completeOp hp hk => exact hI.completeOp hp
  | refuse hp hk => exact absurd (hI.added hp).1.1 hk
  | notify hp =>
    rename_i op
    refine hI.of_keeps ⟨rfl, rfl, rfl, rfl, rfl, ?_, ?_, ?_⟩ <;> intro op' <;>
      by_cases h : op' = op <;>
      simp [State.goto, State.notifyOne, State.Completed, h, hp]
  | extract hw hc => exact hI.extract hc
  | _ =>
    exact hI.of_keeps
      ⟨rfl, rfl, rfl, rfl, rfl, fun _ => Iff.rfl, fun _ => Iff.rfl, fun _ => Iff.rfl⟩

/-- An op that has been added is released exactly when `submitted_ops` no longer holds it. -/
theorem KeysInv.released_iff (hI : KeysInv s) (hp : s.point op ≠ .fresh) :
    op ∈ s.released ↔ ¬ s.Holds op := by
  constructor
  · intro hr hh
    have h := (hI.key _ hh.1).2.2
    rw [hh.2] at h
    exact h hr
  · intro hh
    by_contra hr
    exact hh (hI.holds op hp hr)

/-! ## The end of the completion thread -/

theorem Moves.completed_mono (h : Moves s l s') (hc : s.Completed op) : s'.Completed op := by
  have hne {op' : ℕ} {p : Point} (hp : s.point op' = p) (hp' : p ≠ .completed ∧ p ≠ .notified) :
      op ≠ op' := by
    rintro rfl
    rcases hc with hc | hc <;> rw [hp] at hc
    · exact hp'.1 hc
    · exact hp'.2 hc
  cases h with
  | addOp hp ha =>
    simp only [State.Completed, State.goto, Function.update_of_ne (hne hp (by decide))]
    exact hc
  | completeOp hp hk =>
    simp only [State.Completed, State.goto, Function.update_of_ne (hne hp (by decide))]
    exact hc
  | refuse hp hk =>
    simp only [State.Completed, State.goto, Function.update_of_ne (hne hp (by decide))]
    exact hc
  | notify hp =>
    rename_i op'
    by_cases h : op = op'
    · subst h
      exact Or.inr (by simp [State.goto])
    · simp only [State.Completed, State.goto, Function.update_of_ne h]
      exact hc
  | _ => exact hc

theorem Moves.released_mono (h : Moves s l s') (hr : op ∈ s.released) : op ∈ s'.released := by
  cases h with
  | extract hw hc => exact List.mem_append_left _ hr
  | _ => exact hr

/-- **The exit**: the thread has exited after `is_finished` had been set, and the ops
that had been completed then are released. -/
structure ExitInv (s : State) : Prop where
  flag : s.monitor.isFinished = true ↔ s.destructor ≠ .before
  early : ∀ op ∈ s.early, s.Completed op
  exited : s.worker = .exited →
    s.monitor.isFinished = true ∧ ∀ op ∈ s.early, op ∈ s.released

theorem ExitInv.init : ExitInv init := ⟨by decide, nofun, nofun⟩

/-- A step that leaves the destructor and does not let the thread exit. -/
theorem ExitInv.of_same (hE : ExitInv s) (h : Moves s l s')
    (hd : s'.destructor = s.destructor) (hf : s'.monitor.isFinished = s.monitor.isFinished)
    (he : s'.early = s.early) (hw : s'.worker = .exited → s.worker = .exited) : ExitInv s' := by
  refine ⟨?_, ?_, ?_⟩
  · rw [hf, hd]; exact hE.flag
  · intro op hop
    exact h.completed_mono (hE.early op (he ▸ hop))
  · intro hex
    obtain ⟨hfin, hrel⟩ := hE.exited (hw hex)
    exact ⟨hf.trans hfin, fun op hop => h.released_mono (hrel op (he ▸ hop))⟩

theorem ExitInv.step (hK : KeysInv s) (hE : ExitInv s) (h : Moves s l s') : ExitInv s' := by
  have h' := h
  cases h with
  | exit hw hc hf =>
    refine ⟨hE.flag, hE.early, fun _ => ⟨hf, fun op hop => ?_⟩⟩
    -- nothing is left in `completed_ops`
    rcases hK.drained op (hE.early op hop) with hr | hin
    · exact hr
    · rw [hc] at hin; cases hin
  | wait hw hc hf => exact hE.of_same h' rfl rfl rfl nofun
  | wake hw =>
    refine hE.of_same h' rfl rfl rfl fun hex => ?_
    simp only at hex
    split at hex <;> cases hex
  | finish hd =>
    refine ⟨by simp, fun op hop => hop, fun hex => ?_⟩
    exact absurd hd (hE.flag.1 (hE.exited hex).1)
  | notifyFinish hd =>
    have hfin : s.monitor.isFinished = true := hE.flag.2 (by rw [hd]; decide)
    refine ⟨?_, hE.early, hE.exited⟩
    simp [State.notifyOne, hfin]
  | _ => exact hE.of_same h' rfl rfl rfl id

/-! ## Wakeups -/

/-- A notification is on its way to the completion thread: it has been made, or an op or
the destructor is about to make it. -/
def Notifying (s : State) : Prop :=
  s.notifyPending = true ∨ (∃ op, s.point op = .completed) ∨ s.destructor = .finished

/-- **No wakeup is lost**: while the thread waits and its test holds, it will be told. -/
def WakeInv (s : State) : Prop :=
  s.worker = .waiting → s.monitor.wakeTest = true → Notifying s

theorem WakeInv.init : WakeInv init := nofun

/-- The move of an op that is not about to notify takes no notification away. -/
theorem Notifying.goto (h : Notifying s) {p : Point} (hop : s.point op ≠ .completed)
    (hn : s'.notifyPending = s.notifyPending) (hp : s'.point = Function.update s.point op p)
    (hd : s'.destructor = s.destructor) : Notifying s' := by
  rcases h with h | ⟨op', hop'⟩ | h
  · exact Or.inl (hn.trans h)
  · have hne : op' ≠ op := by
      rintro rfl
      exact hop hop'
    refine Or.inr (Or.inl ⟨op', ?_⟩)
    rw [hp, Function.update_of_ne hne]
    exact hop'
  · exact Or.inr (Or.inr (hd.trans h))

theorem WakeInv.step (hW : WakeInv s) (h : Moves s l s') : WakeInv s' := by
  intro hw' ht
  cases h with
  | addOp hp ha => exact (hW hw' ht).goto (by rw [hp]; decide) rfl rfl rfl
  | completeOp hp hk => exact Or.inr (Or.inl ⟨_, Function.update_self _ _ _⟩)
  | refuse hp hk => exact (hW hw' ht).goto (by rw [hp]; decide) rfl rfl rfl
  | notify hp =>
    have hw : s.worker = .waiting := hw'
    exact Or.inl (by simp [State.goto, State.notifyOne, hw])
  | extract hw hc => rw [hw] at hw'; cases hw'
  | wait hw hc hf => simp [AsyncMonitor.wakeTest, hc, hf] at ht
  | exit hw hc hf => cases hw'
  | wake hw =>
    -- the test has just failed
    have ht' : s.monitor.wakeTest = true := ht
    simp [ht'] at hw'
  | finish hd => exact Or.inr (Or.inr rfl)
  | notifyFinish hd =>
    have hw : s.worker = .waiting := hw'
    exact Or.inl (by simp [State.notifyOne, hw])

/-! ## Runs -/

theorem inv_of_reachable (hs : machine.Reachable s) : KeysInv s ∧ ExitInv s ∧ WakeInv s := by
  refine hs.invariant (I := fun s => KeysInv s ∧ ExitInv s ∧ WakeInv s)
    ⟨KeysInv.init, ExitInv.init, WakeInv.init⟩ ?_
  rintro s l s' ⟨hK, hE, hW⟩ _ hst
  have hm := step_moves hst
  exact ⟨hK.step hm, hE.step hK hm, hW.step hm⟩

/-- **Ops are released exactly once, and after their completion**, in every run: the
containers are as they should be; an op that was added is released once it is no longer
in `submitted_ops`, once, and after its `completeOp`; the completion thread exits with
`completed_ops` empty and leaves no op that was completed before the destructor; and it
does not wait while there is something to do that it will not be told of. -/
theorem released_once (s : State) (hs : machine.Reachable s) :
    (s.monitor.completedOps.Nodup ∧
      ∀ a ∈ s.monitor.completedOps, a ∈ s.monitor.submittedOps) ∧
    (s.released.Nodup ∧ (∀ op ∈ s.released, s.Completed op) ∧
      ∀ op, s.point op ≠ .fresh → (op ∈ s.released ↔ ¬ s.Holds op)) ∧
    ((∀ l s', machine.step s l = some s' → s.worker ≠ .exited → s'.worker = .exited →
        s.monitor.completedOps = []) ∧
      (s.worker = .exited → ∀ op ∈ s.early, op ∈ s.released)) ∧
    (s.worker = .waiting → s.monitor.completedOps ≠ [] ∨ s.monitor.isFinished = true →
      Notifying s) := by
  obtain ⟨hK, hE, hW⟩ := inv_of_reachable hs
  refine ⟨⟨hK.nodup, hK.subset⟩, ⟨hK.released_nodup, hK.released, ?_⟩, ⟨?_, ?_⟩, ?_⟩
  · intro op hp
    exact hK.released_iff hp
  · intro l s' hst hne hex
    cases step_moves hst with
    | exit hw hc hf => exact hc
    | wake hw => simp only at hex; split at hex <;> cases hex
    | wait hw hc hf => cases hex
    | _ => exact absurd hex hne
  · intro hex
    exact (hE.exited hex).2
  · intro hw ht
    refine hW hw ?_
    rcases ht with hc | hf
    · simp [AsyncMonitor.wakeTest, hc]
    · simp [AsyncMonitor.wakeTest, hf]

/-- Two ops at one address, the second added when the first has been released. -/
def reusedAddress : List Step :=
  [.addOp 0 7, .completeOp 0, .iterate, .notify 0, .addOp 1 7, .iterate, .completeOp 1, .finish]

/-- The completion thread waits and the second op is completed: it is about to be told. -/
theorem released_once_reused :
    ∃ s, machine.run machine.init reusedAddress = some s ∧ s.released = [0] ∧
      s.worker = .waiting ∧ s.monitor.completedOps = [7] ∧ s.monitor.completedOps.Nodup ∧
      Notifying s := by
  refine ⟨_, rfl, by decide, by decide, by decide, ?_, ?_⟩
  · exact (released_once _ (@Machine.reachable_of_run _ _ machine reusedAddress _ rfl)).1.1
  · exact (released_once _ (@Machine.reachable_of_run _ _ machine reusedAddress _ rfl)).2.2.2
      (by decide) (Or.inl (by decide))

end HipFile.Completion
