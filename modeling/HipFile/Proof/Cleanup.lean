import HipFile.Model.CallingProcess
import HipFile.Proof.Descriptors

/-!
# What the destructors let through

* `UnregisteredFile.constructor_eq`: the constructor closes nothing, whatever it ends with.
* `Descriptors.cleaningStep_eq`: a step on descriptors does what it would if every close
  succeeded, or terminates the process if one fails.
* `Registry.alive_step_iff`: which `File`s are gone after a step.
* `Descriptors.closes_eq_ok`: the closes of a step, from the state before.
-/

namespace HipFile

variable {calls : ReleaseCalls}

theorem throwOn_eq_ok {α : Type} {out : Except Errno α} {a : α} :
    throwOn out = .ok a ↔ out = .ok a := by
  cases out with
  | error e => exact iff_of_false nofun nofun
  | ok a' =>
    constructor <;>
    · intro h
      cases h
      rfl

/-! ## Descriptors -/

namespace FileDescriptor

/-- What the close in a destructor ends with. -/
def closes (calls : ReleaseCalls) (d : FileDescriptor) : Except Exn Unit :=
  if d.Owns then throwOn (calls.close d.fd) else .ok ()

theorem closes_eq_ok {d : FileDescriptor} :
    d.closes calls = .ok () ↔ (d.Owns → calls.close d.fd = .ok ()) := by
  unfold closes
  by_cases howns : d.Owns
  · rw [if_pos howns, throwOn_eq_ok]
    exact ⟨fun h _ => h, fun h => h howns⟩
  · rw [if_neg howns]
    exact iff_of_true rfl fun h => absurd h howns

theorem release_apply (d : FileDescriptor) (os : FdTable) :
    d.release calls os = (d.closes calls, d.destroy os) := by
  unfold release closes destroy
  by_cases howns : d.Owns
  · simp only [if_pos howns]
    rfl
  · simp only [if_neg howns]
    rfl

end FileDescriptor

namespace FileMembers

/-- What the closes in the destructors of the members end with: the first that fails counts. -/
def closes (calls : ReleaseCalls) (m : FileMembers) : Except Exn Unit :=
  forM m.descriptors (FileDescriptor.closes calls)

theorem closes_eq_ok {m : FileMembers} :
    m.closes calls = .ok () ↔ ∀ fd ∈ m.managed, calls.close fd = .ok () := by
  unfold closes managed
  rw [Except.forM_eq_ok, List.forall_mem_map]
  simp only [FileDescriptor.closes_eq_ok, List.mem_filter, decide_eq_true_eq, and_imp]

/-- **The destructors of the members.** -/
theorem destructor_apply (m : FileMembers) (os : FdTable) :
    m.destructor calls (.ok os) = (m.closes calls, (m.closes calls).map fun _ => m.destroy os) :=
  Prog.forM_noexcept (fun d os => d.release_apply os) m.descriptors os

end FileMembers

/-- **The constructor closes nothing**, whether it returns or throws. -/
theorem UnregisteredFile.constructor_eq (file : FileCalls) (fd : ℤ) (os : FdTable) :
    constructor calls file fd (.ok os) = Prog.living (build file fd) (.ok os) := by
  rw [Prog.living_ok]
  unfold constructor build
  cases file.statx with
  | error e => rfl
  | ok stx =>
  cases file.fcntl with
  | error e => rfl
  | ok flags =>
  cases file.getMountInfo with
  | error e => rfl
  | ok mountinfo =>
    by_cases hdirect : flags &&& O_DIRECT ≠ 0
    · simp only [if_pos hdirect]
      cases file.openFd (clearDirect (flags ||| O_CLOEXEC)) with
      | error e => rfl
      | ok n => rfl
    · simp only [if_neg hdirect]
      cases file.openFd ((flags ||| O_CLOEXEC) ||| O_DIRECT) with
      | error e =>
        by_cases he : e ≠ EINVAL
        · simp only [if_pos he]
          rfl
        · simp only [if_neg he]
          rfl
      | ok n => rfl

/-! ## Steps -/

namespace Descriptors

variable {d d' : Descriptors} {l : Step}

/-- What the closes of the objects that are not alive end with. -/
def closesDead (calls : ReleaseCalls) (registry : Registry) (objects : List FileObject) :
    Except Exn Unit :=
  forM (objects.filter fun f => ¬ registry.Alive (.file f.handle)) fun f => f.members.closes calls

/-- **The destructors of the objects that are not alive.** -/
theorem destructDead_apply (registry : Registry) (objects : List FileObject) (os : FdTable) :
    destructDead calls registry objects (.ok os) =
      let closes := closesDead calls registry objects
      (closes.map fun _ => (destroyDead registry objects os).1,
        closes.map fun _ => (destroyDead registry objects os).2) := by
  induction objects generalizing os with
  | nil => rfl
  | cons f fs ih =>
    rw [destructDead, destroyDead, closesDead]
    by_cases hf : registry.Alive (.file f.handle)
    · rw [if_pos hf, if_pos hf, List.filter_cons_of_neg (by simpa using hf), Prog.bind_apply, ih]
      change _ = ((closesDead calls registry fs).map _, (closesDead calls registry fs).map _)
      cases closesDead calls registry fs <;> rfl
    · rw [if_neg hf, if_neg hf, List.filter_cons_of_pos (by simpa using hf), List.forM_cons,
        Prog.bind_apply, FileMembers.destructor_apply]
      cases f.members.closes calls with
      | error e => rfl
      | ok _ => exact ih (f.members.destroy os)

/-- A step of the registry destroys the objects that it leaves without references, or fails to. -/
theorem cleaningEnter_eq (d : Descriptors) (registry : Registry) :
    d.cleaningEnter calls registry =
      (closesDead calls registry d.objects).map fun _ => d.enter registry := by
  unfold cleaningEnter
  simp only [destructDead_apply]
  cases closesDead calls registry d.objects <;> rfl

/-- What the closes of a step to `d'` end with. -/
def closes (calls : ReleaseCalls) (d : Descriptors) (l : Step) (d' : Descriptors) :
    Except Exn Unit :=
  match l with
  | .leave t =>
    match d.registrations.lookup t with
    | some r => r.uf.members.closes calls
    | none => .ok ()
  | .registry _ => closesDead calls d'.registry d.objects
  | _ => .ok ()

/-- **A step with the outcomes of its closes** is the step, or terminates the process. -/
theorem cleaningStep_eq (d : Descriptors) (l : Step) :
    d.cleaningStep calls l =
      (d.step l).map fun d' => (d.closes calls l d').map fun _ => d' := by
  cases l with
  | construct t file fd =>
    simp only [cleaningStep, Descriptors.step, UnregisteredFile.constructor_eq, Prog.living_ok]
    split
    · rcases UnregisteredFile.build file fd d.os with ⟨_ | _, os⟩ <;> rfl
    · rfl
  | register t handle => rfl
  | leave t =>
    simp only [cleaningStep, Descriptors.step, closes, FileMembers.destructor_apply]
    cases d.registrations.lookup t with
    | none => rfl
    | some r =>
      by_cases htried : r.tried
      · simp only [if_pos htried]
        cases r.uf.members.closes calls <;> rfl
      · simp only [if_neg htried]
        rfl
  | registry l =>
    have henter (s : Option Registry) : s.map (d.cleaningEnter calls) = (s.map d.enter).map
        fun d' => (closesDead calls d'.registry d.objects).map fun _ => d' := by
      cases s with
      | none => rfl
      | some registry => exact congrArg some (d.cleaningEnter_eq registry)
    have hstep := henter (d.registry.step l)
    -- a `File` is registered by the step `register`
    cases l with
    | registerFile uf handle => rfl
    | _ => exact hstep
  | clientOpen fd flags => rfl
  | clientClose fd => rfl

end Descriptors

/-! ## Last references -/

namespace Registry

variable {s s' : Registry} {l : Step} {fh : ℕ}

/-- A `File` is alive that is registered, or that someone holds. -/
theorem Inv.alive_file (hI : Inv s) :
    s.Alive (.file fh) ↔ (∃ f, s.fromFh.lookup fh = some f) ∨ s.HeldOutside (.file fh) := by
  constructor
  · intro h
    rcases List.mem_append.1 h with htable | hout
    · refine Or.inl ?_
      simp only [tableRefs, List.mem_append, List.mem_map] at htable
      rcases htable with (⟨f, hf, ho⟩ | ⟨f, hf, ho⟩) | ⟨b, -, hb⟩
      · obtain ⟨fd, hfd⟩ := Table.mem_values.1 hf
        have hhandle : f.handle = fh := SharedObject.file.inj ho
        exact ⟨f, hhandle ▸ (hI.fd fd f hfd).2⟩
      · obtain ⟨fh', hfh⟩ := Table.mem_values.1 hf
        have hhandle : f.handle = fh := SharedObject.file.inj ho
        have hkey := (hI.fh fh' f hfh).1
        rw [hhandle] at hkey
        exact ⟨f, hkey ▸ hfh⟩
      · cases hb
    · exact Or.inr hout
  · rintro (⟨f, hf⟩ | hheld)
    · have halive := fromFh_alive hf
      rw [IFile.object, ← (hI.fh fh f hf).1] at halive
      exact halive
    · exact List.mem_append_right _ hheld

/-- A deregistration drops the references of the tables, if there are no others. -/
theorem alive_deregisterFile (hs : machine.Reachable s) (fh' : ℕ)
    (halive : s.Alive (.file fh)) :
    ¬ (deregisterFile fh' s).2.Alive (.file fh) ↔ s.LastReference (.deregisterFile fh') fh := by
  have hI := inv_of_reachable hs
  have hI' : Inv (deregisterFile fh' s).2 := hI.step (eraseFile_moves fh')
  rw [hI'.alive_file]
  cases hf : s.fromFh.lookup fh' with
  | none =>
    have heq : (deregisterFile fh' s).2 = s := by
      rw [deregisterFile, requireInit_bind]
      split
      · rfl
      · rw [eraseFile, hf]
    rw [heq, ← hI.alive_file]
    refine iff_of_false (not_not.2 halive) ?_
    rintro ⟨rfl, hsome, -⟩
    rw [hf] at hsome
    cases hsome
  | some f =>
    have hobject : f.object = .file fh' := congrArg SharedObject.file (hI.fh fh' f hf).1.symm
    have htest := hI.two_lt_useCount hf
    obtain ⟨hheld, hfree⟩ := deregisterFile_spec hs hf
    rw [hobject] at htest hheld hfree
    by_cases hout : s.HeldOutside (.file fh')
    · rw [hheld hout, ← hI.alive_file]
      refine iff_of_false (not_not.2 halive) ?_
      rintro ⟨rfl, -, huse⟩
      exact absurd (htest.2 hout) (Nat.not_lt.2 huse)
    · have hlookup : (deregisterFile fh' s).2.fromFh.lookup fh =
          if fh = fh' then none else s.fromFh.lookup fh := by
        rw [hfree hout]
        exact Table.lookup_erase_eq ..
      have hsame : (deregisterFile fh' s).2.HeldOutside (.file fh) ↔ s.HeldOutside (.file fh) := by
        rw [hfree hout]
        rfl
      rw [hlookup, hsame]
      by_cases heq : fh = fh'
      · subst heq
        have huse := Nat.not_lt.1 fun h => hout (htest.1 h)
        have hgone : ¬ ((∃ f, (none : Option IFile) = some f) ∨ s.HeldOutside (.file fh)) := by
          rintro (⟨f, hf⟩ | hheld)
          · cases hf
          · exact hout hheld
        rw [if_pos rfl]
        exact iff_of_true hgone ⟨rfl, by rw [hf]; rfl, huse⟩
      · rw [if_neg heq, ← hI.alive_file]
        exact iff_of_false (not_not.2 halive) fun h => heq h.1.symm

/-- The last close of the driver drops the references of the tables. -/
theorem alive_decrRefCount (hs : machine.Reachable s) (halive : s.Alive (.file fh)) :
    ¬ (decrRefCount s).2.Alive (.file fh) ↔ s.LastReference .decrRefCount fh := by
  have hI := inv_of_reachable hs
  have hI' : Inv (decrRefCount s).2 := hI.step decrRefCount_moves
  have hsame : (decrRefCount s).2.HeldOutside (.file fh) ↔ s.HeldOutside (.file fh) := by
    rw [decrRefCount_snd]
    unfold clearAtZero dropRef
    split <;> split <;> rfl
  rw [hI'.alive_file, hsame]
  by_cases h1 : s.refCount = 1
  · have hempty : (decrRefCount s).2.fromFh = ∅ := by
      rw [decrRefCount_snd, clearAtZero, if_pos]
      rw [dropRef, if_pos (by omega)]
      show s.refCount - 1 = 0
      omega
    rw [hempty]
    constructor
    · intro hgone
      exact ⟨h1, fun hheld => hgone (Or.inr hheld)⟩
    · rintro ⟨-, hheld⟩ (⟨f, hf⟩ | h)
      · exact Table.lookup_empty_ne hf
      · exact hheld h
  · refine iff_of_false (not_not.2 ?_) fun h => h1 h.1
    rcases hI.alive_file.1 halive with ⟨f, hf⟩ | hheld
    · -- the tables are not cleared: the count does not come to 0
      have h0 := refCount_ne_zero hs (Or.inl ⟨fh, f, hf⟩)
      have hcount : (dropRef s).refCount ≠ 0 := by
        unfold dropRef
        split
        · show s.refCount - 1 ≠ 0
          omega
        · exact h0
      have htable : (dropRef s).fromFh = s.fromFh := by
        unfold dropRef
        split <;> rfl
      rw [decrRefCount_snd, clearAtZero, if_neg hcount, htable]
      exact Or.inl ⟨f, hf⟩
    · exact Or.inr hheld

/-- A reference is dropped. -/
theorem alive_drop {r : Holder × SharedObject} (hr : r ∈ s.outside)
    (halive : s.Alive (.file fh)) :
    ¬ Alive { s with outside := s.outside.erase r } (.file fh) ↔ s.LastReference (.drop r) fh := by
  set s' : Registry := { s with outside := s.outside.erase r } with hs'
  have hcount : s.useCount (.file fh) =
      s'.useCount (.file fh) + if r.2 = .file fh then 1 else 0 := by
    have hperm := ((List.perm_cons_erase hr).map Prod.snd).count_eq (SharedObject.file fh)
    rw [List.map_cons, List.count_cons] at hperm
    have hbatch : s'.batchRefs = s.batchRefs := rfl
    have htable : s'.tableRefs = s.tableRefs := rfl
    rw [useCount_eq, useCount_eq, htable, outsideRefs, outsideRefs, List.count_append,
      List.count_append, hperm, hbatch]
    simp only [beq_iff_eq, hs']
    omega
  have hpos : 0 < s.useCount (.file fh) := List.count_pos_iff.2 halive
  have hgone : ¬ s'.Alive (.file fh) ↔ s'.useCount (.file fh) = 0 := List.count_eq_zero.symm
  rw [hgone]
  show _ ↔ r.2 = .file fh ∧ s.useCount (.file fh) = 1
  by_cases hr2 : r.2 = .file fh
  · rw [if_pos hr2] at hcount
    constructor
    · intro h
      exact ⟨hr2, by omega⟩
    · rintro ⟨-, h⟩
      omega
  · rw [if_neg hr2] at hcount
    exact iff_of_false (by omega) fun h => hr2 h.1

/-- The other steps keep what is alive. -/
theorem Moves.alive (hI : Inv s) (h : Moves s l s') (halive : s.Alive (.file fh))
    (hderegister : ∀ fh', l ≠ .deregisterFile fh') (hclose : l ≠ .decrRefCount)
    (hdrop : ∀ r, l ≠ .drop r) : s'.Alive (.file fh) := by
  have hfd (hsame : s'.fromFd = s.fromFd) : ∀ fd f, s.fromFd.lookup fd = some f →
      f.object = .file fh → s'.Alive (.file fh) :=
    fun fd f hf ho => ho ▸ fromFd_alive (hsame ▸ hf)
  have hfh (hsame : s'.fromFh = s.fromFh) : ∀ fh' f, s.fromFh.lookup fh' = some f →
      f.object = .file fh → s'.Alive (.file fh) :=
    fun fh' f hf ho => ho ▸ fromFh_alive (hsame ▸ hf)
  have hptr : ∀ p b, s.fromPtr.lookup p = some b → b.ref = .file fh → s'.Alive (.file fh) :=
    fun p b _ => nofun
  have hout (hsub : s.outside ⊆ s'.outside) : ∀ r ∈ s.outside, r.2 = .file fh →
      s'.Alive (.file fh) := fun r hr ho => ho ▸ alive_of_outside (hsub hr)
  have hctx (hsame : s'.contexts = s.contexts) : ∀ c ctx, s.contexts.lookup c = some ctx →
      ∀ op ∈ ctx.outstandingOps, .file fh ∈ op.refs → s'.Alive (.file fh) :=
    fun c ctx hc op hop ho => alive_of_context (hsame ▸ hc) hop ho
  cases h with
  | leaves n => exact halive
  | insertFile n hfresh hnew => exact halive.registerFile hI hfresh hnew
  | eraseFile hf huse => exact absurd rfl (hderegister _)
  | clear hpos => exact absurd rfl hclose
  | drop hr => exact absurd rfl (hdrop _)
  | insertBuffer n hfresh hnew hobject =>
    exact halive.before (hfd rfl) (hfh rfl) hptr (hout (List.Subset.refl _)) (hctx rfl)
  | eraseBuffer hb huse =>
    exact halive.before (hfd rfl) (hfh rfl) hptr (hout (List.Subset.refl _)) (hctx rfl)
  | lookup hf hb =>
    refine halive.before (hfd rfl) (hfh rfl) hptr (hout fun r hr => ?_) (hctx rfl)
    exact List.mem_cons_of_mem _ (List.mem_cons_of_mem _ hr)
  | copy hr =>
    exact halive.before (hfd rfl) (hfh rfl) hptr (hout (List.subset_cons_self _ _)) (hctx rfl)
  | @createContext capacity handle new hcapacity hnew =>
    refine halive.before (hfd rfl) (hfh rfl) hptr (hout (List.Subset.refl _)) ?_
    intro c ctx hc op hop ho
    have hne : c ≠ handle := by
      rintro rfl
      rw [hnew] at hc
      cases hc
    exact alive_of_context ((Table.lookup_insert_eq ..).trans ((if_neg hne).trans hc)) hop ho
  | @acceptOperations t context ops ctx hcontext hok =>
    obtain ⟨-, hfresh, -, -⟩ := hok
    -- the operations hold what their thread has held
    have hops : ∀ op ∈ ctx.outstandingOps ++ ops, .file fh ∈ op.refs →
        Alive { s with
          outside := s.outside.diff (pendingRefs t ops)
          contexts := s.contexts.insert context { ctx with
            outstandingOps := ops.foldl BatchContext.insert ctx.outstandingOps } }
          (.file fh) := by
      intro op hop ho
      rw [← BatchContext.foldl_insert ops _ hfresh] at hop
      exact alive_of_context (AList.lookup_insert _) hop ho
    refine halive.before (hfd rfl) (hfh rfl) hptr ?_ ?_
    · intro r hr ho
      by_cases hmem : r ∈ pendingRefs t ops
      · obtain ⟨o, hrefs, rfl⟩ := List.mem_map.1 hmem
        obtain ⟨op, hop, hin⟩ := List.mem_flatMap.1 hrefs
        exact hops op (List.mem_append_right _ hop) (ho ▸ hin)
      · have hkept := List.mem_diff_of_mem hr hmem
        rw [← ho]
        exact alive_of_outside hkept
    · intro c ctx' hc op hop ho
      by_cases hcc : c = context
      · subst hcc
        rw [hcontext] at hc
        cases hc
        exact hops op (List.mem_append_left _ hop) ho
      · exact alive_of_context ((Table.lookup_insert_eq ..).trans ((if_neg hcc).trans hc)) hop ho

/-- **Which `File`s are gone after a step**: those whose last reference it drops. -/
theorem alive_step_iff (hs : machine.Reachable s) (h : machine.step s l = some s')
    (halive : s.Alive (.file fh)) : ¬ s'.Alive (.file fh) ↔ s.LastReference l fh := by
  have hkept (hderegister : ∀ fh', l ≠ .deregisterFile fh') (hclose : l ≠ .decrRefCount)
      (hdrop : ∀ r, l ≠ .drop r) : ¬ ¬ s'.Alive (.file fh) :=
    not_not.2 ((step_moves h).alive (inv_of_reachable hs) halive hderegister hclose hdrop)
  cases l with
  | deregisterFile fh' =>
    obtain rfl := Option.some.inj h
    exact alive_deregisterFile hs fh' halive
  | decrRefCount =>
    obtain rfl := Option.some.inj h
    exact alive_decrRefCount hs halive
  | drop r =>
    obtain ⟨hr, h⟩ := Option.ite_none_right_eq_some.1 h
    obtain rfl := Option.some.inj h
    exact alive_drop hr halive
  | _ => exact iff_of_false (hkept (fun _ => nofun) nofun fun _ => nofun) id

end Registry

namespace Descriptors

variable {d d' : Descriptors} {l : Step}

/-- **The closes of a step, from the state before**: they succeed exactly if those of the
descriptors do whose last owner the step destroys. -/
theorem closes_eq_ok (hd : machine.Reachable d) (h : d.step l = some d') :
    d.closes calls l d' = .ok () ↔ ∀ fd ∈ d.released l, calls.close fd = .ok () := by
  have hnothing : (Except.ok () : Except Exn Unit) = .ok () ↔
      ∀ fd ∈ ([] : List ℤ), calls.close fd = .ok () := iff_of_true rfl nofun
  cases l with
  | leave t =>
    simp only [closes, released]
    cases d.registrations.lookup t with
    | none => exact hnothing
    | some r => exact FileMembers.closes_eq_ok
  | registry l =>
    have hI := inv_of_reachable hd
    have hstep : Registry.machine.step d.registry l = some d'.registry := by
      simp only [Descriptors.step] at h
      split at h
      · cases h
      · obtain ⟨registry, hregistry, rfl⟩ := Option.map_eq_some_iff.1 h
        exact hregistry
    have hdead : (d.objects.filter fun f => ¬ d'.registry.Alive (.file f.handle)) =
        d.objects.filter fun f => d.registry.LastReference l f.handle := by
      refine List.filter_congr fun f hf => ?_
      have halive := (hI.alive f.handle).2 ⟨f, hf, rfl⟩
      exact decide_eq_decide.2 (Registry.alive_step_iff hI.registry hstep halive)
    unfold closes closesDead released
    rw [hdead, Except.forM_eq_ok, List.forall_mem_flatMap]
    exact forall₂_congr fun f _ => FileMembers.closes_eq_ok
  | construct t file fd => exact hnothing
  | register t handle => exact hnothing
  | clientOpen fd flags => exact hnothing
  | clientClose fd => exact hnothing

end Descriptors

end HipFile
