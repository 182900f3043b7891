import HipFile.Model.Registry
import HipFile.Proof.Region

/-!
# The tables of the registry

* `driver_of_step`: a step of the registry is a call of the driver, or leaves it.
* `Inv`: a file is in both of its tables, under its own descriptor and its own handle,
  and a buffer in its table under its own pointer.
* `tables_consistent`: what that makes of deregistration in every run.
-/

namespace HipFile.Registry

variable {s s' : Registry} {l : Step}

/-! ## The driver's calls -/

theorem driver_implicitInit (s : Registry) :
    (implicitInit s).driver = DriverState.implicitInit s.driver := by
  have hrc : s.driver.refCount = s.refCount := rfl
  unfold implicitInit DriverState.implicitInit
  rw [hrc]
  split <;> rfl

/-- A method that requires an initialised driver runs on, or has thrown. -/
theorem requireInit_bind {α : Type} (x : Method α) (s : Registry) :
    (do requireInit; x : Method α) s =
      if s.refCount = 0 then (.error .driverNotInitialized, s) else x s := by
  by_cases h : s.refCount = 0
  · simp [Prog.bind_apply, requireInit, h]
  · simp [Prog.bind_apply, requireInit, h]

theorem driver_insertFile (uf : UnregisteredFile) (handle : ℕ) (s : Registry) :
    (insertFile uf handle s).2.driver =
      { s.driver with fileMap := (FileMap.registerFile uf handle s.driver.fileMap).2 } := by
  have hfd : (s.driver.fileMap.fromFd uf.clientFd.fd).isSome =
      (s.fromFd.lookup uf.clientFd.fd).isSome := Option.isSome_map
  unfold insertFile FileMap.registerFile
  rw [hfd]
  split
  · rfl
  · simp only [driver, Table.view_insert, id]

theorem driver_eraseFile (fh : ℕ) (s : Registry) :
    (eraseFile fh s).2.driver =
      { s.driver with fileMap := (FileMap.deregisterFile fh
        (((s.fromFh.lookup fh).map fun f => s.useCount f.object).getD 0) s.driver.fileMap).2 } := by
  have hfh : s.driver.fileMap.fromFh fh = (s.fromFh.lookup fh).map id := rfl
  unfold eraseFile FileMap.deregisterFile
  rw [hfh]
  cases hlookup : s.fromFh.lookup fh with
  | none => rfl
  | some f =>
    simp only [Option.map_some, Option.getD_some, id]
    split
    · rfl
    · simp only [driver, Table.view_erase]

theorem driver_insertBuffer (hip : HipQueries) (buf length : ℕ) (flags : ℤ) (address : ℕ)
    (s : Registry) :
    (insertBuffer hip buf length flags address s).2.driver =
      { s.driver with
        bufferMap := (BufferMap.registerBuffer hip buf length flags s.driver.bufferMap).2 } := by
  have hbuf : (s.driver.bufferMap.fromPtr buf).isSome = (s.fromPtr.lookup buf).isSome :=
    Option.isSome_map
  unfold insertBuffer BufferMap.registerBuffer
  rw [hbuf]
  cases Buffer.registered hip buf length flags with
  | error e => split <;> rfl
  | ok object =>
    split
    · rfl
    · simp only [driver, Table.view_insert]

theorem driver_eraseBuffer (buf : ℕ) (s : Registry) :
    (eraseBuffer buf s).2.driver =
      { s.driver with bufferMap := (BufferMap.deregisterBuffer buf
        (((s.fromPtr.lookup buf).map fun b => s.useCount b.ref).getD 0)
        s.driver.bufferMap).2 } := by
  have hbuf : s.driver.bufferMap.fromPtr buf =
      (s.fromPtr.lookup buf).map SharedBuffer.object := rfl
  unfold eraseBuffer BufferMap.deregisterBuffer
  rw [hbuf]
  cases hlookup : s.fromPtr.lookup buf with
  | none => rfl
  | some b =>
    simp only [Option.map_some, Option.getD_some]
    split
    · rfl
    · simp only [driver, Table.view_erase]

/-! ## The steps on references -/

/-- A lookup finds a registered file, and a registered buffer or a new one. -/
theorem getFileAndBuffer_cases (hip : HipQueries) (fh buf address : ℕ) (s : Registry) :
    (∃ e, getFileAndBuffer hip fh buf address s = (.error e, s)) ∨
      ∃ f b, getFileAndBuffer hip fh buf address s = (.ok (f, b), s) ∧
        s.fromFh.lookup fh = some f ∧
        ((∃ p, s.fromPtr.lookup p = some b) ∨ b.address = address) := by
  unfold getFileAndBuffer
  rw [requireInit_bind]
  split
  · exact Or.inl ⟨_, rfl⟩
  · cases hfile : s.fromFh.lookup fh with
    | none =>
      have hget : getFile fh s = (.error .fileNotRegistered, s) := by rw [getFile, hfile]
      exact Or.inl ⟨_, Prog.bind_error hget⟩
    | some f =>
      have hget : getFile fh s = (.ok f, s) := by rw [getFile, hfile]
      rw [Prog.bind_ok hget]
      cases hbuf : s.fromPtr.lookup buf with
      | some b =>
        have hget' : getBuffer hip buf address s = (.ok b, s) := by rw [getBuffer, hbuf]
        rw [Prog.bind_ok hget']
        exact Or.inr ⟨f, b, rfl, rfl, Or.inl ⟨buf, hbuf⟩⟩
      | none =>
        cases htmp : Buffer.temporary hip buf with
        | error e =>
          have hget' : getBuffer hip buf address s = (.error e, s) := by rw [getBuffer, hbuf, htmp]
          exact Or.inl ⟨_, Prog.bind_error hget'⟩
        | ok object =>
          have hget' : getBuffer hip buf address s = (.ok ⟨address, object⟩, s) := by
            rw [getBuffer, hbuf, htmp]
          rw [Prog.bind_ok hget']
          exact Or.inr ⟨f, ⟨address, object⟩, rfl, rfl, Or.inr rfl⟩

theorem lookup_cases {t : ℕ} {hip : HipQueries} {fh buf address : ℕ}
    (h : machine.step s (.lookup t hip fh buf address) = some s') :
    s' = s ∨ ∃ f b, s.fromFh.lookup fh = some f ∧
      ((∃ p, s.fromPtr.lookup p = some b) ∨ ¬ s.Alive b.ref) ∧
      s' = { s with outside := (.thread t, f.object) :: (.thread t, b.ref) :: s.outside } := by
  simp only [machine, step, Option.ite_none_left_eq_some] at h
  obtain ⟨hfresh, h⟩ := h
  rcases getFileAndBuffer_cases hip fh buf address s with ⟨e, hget⟩ | ⟨f, b, hget, hf, hb⟩
  · rw [hget] at h
    exact Or.inl (Option.some.inj h).symm
  · rw [hget] at h
    refine Or.inr ⟨f, b, hf, ?_, (Option.some.inj h).symm⟩
    rcases hb with hb | hb
    · exact Or.inl hb
    · exact Or.inr (by rw [SharedBuffer.ref, hb]; exact hfresh)

theorem createContext_cases {capacity handle : ℕ}
    (h : machine.step s (.createContext capacity handle) = some s') :
    (s' = s ∧ ∃ e, BatchContext.construct capacity = .error e) ∨
      ∃ ctx, BatchContext.construct capacity = .ok ctx ∧ s.contexts.lookup handle = none ∧
        s' = { s with contexts := s.contexts.insert handle ctx } := by
  simp only [machine, step, Option.ite_none_left_eq_some, Option.some.injEq] at h
  obtain ⟨hnone, rfl⟩ := h
  unfold createContext
  cases BatchContext.construct capacity with
  | error e => exact Or.inl ⟨rfl, e, rfl⟩
  | ok ctx => exact Or.inr ⟨ctx, rfl, by simpa using hnone, rfl⟩

theorem acceptOperations_cases {t context : ℕ} {ops : List BatchOperation}
    (h : machine.step s (.acceptOperations t context ops) = some s') :
    ∃ ctx, s.contexts.lookup context = some ctx ∧ s.Acceptable t ctx ops ∧
      s' = { s with
        outside := s.outside.diff (pendingRefs t ops)
        contexts := s.contexts.insert context { ctx with
          outstandingOps := ops.foldl BatchContext.insert ctx.outstandingOps } } := by
  simp only [machine, step] at h
  cases hctx : s.contexts.lookup context with
  | none => rw [hctx] at h; cases h
  | some ctx =>
    rw [hctx] at h
    simp only [Option.ite_none_right_eq_some, Option.some.injEq] at h
    exact ⟨ctx, rfl, h.1, h.2.symm⟩

theorem driver_decrRefCount (s : Registry) :
    (decrRefCount s).2.driver = (DriverState.decrRefCount s.driver).2 := by
  have hdrop : (dropRef s).driver = DriverState.dropRef s.driver := by
    have hrc : s.driver.refCount = s.refCount := rfl
    unfold dropRef DriverState.dropRef
    rw [hrc]
    split <;> rfl
  have hclear (s : Registry) : (clearAtZero s).driver = DriverState.clearAtZero s.driver := by
    have hrc : s.driver.refCount = s.refCount := rfl
    unfold clearAtZero DriverState.clearAtZero
    rw [hrc]
    split <;> rfl
  have hnonneg (s : Registry) : (requireNonneg s).2 = s := by unfold requireNonneg; split <;> rfl
  have hnonneg' (s : DriverState) : (DriverState.requireNonneg s).2 = s := by
    unfold DriverState.requireNonneg; split <;> rfl
  show (requireNonneg (clearAtZero (dropRef s))).2.driver = (DriverState.decrRefCount s.driver).2
  rw [DriverState.decrRefCount_apply, hnonneg, hnonneg', hclear, hdrop]

/-- **The registry simulates the driver**: a step is the call that it names, or leaves
the driver as it is. -/
theorem driver_of_step (h : machine.step s l = some s') :
    match l.call s with
    | some c => s'.driver = c.apply s.driver
    | none => s'.driver = s.driver := by
  cases l with
  | registerFile uf handle =>
    simp only [machine, step, Option.ite_none_left_eq_some, Option.some.injEq] at h
    obtain ⟨-, rfl⟩ := h
    show (insertFile uf handle (implicitInit s)).2.driver =
      (DriverState.registerFile uf handle s.driver).2
    rw [driver_insertFile, driver_implicitInit]
    rfl
  | deregisterFile fh =>
    simp only [machine, step, Option.some.injEq] at h
    subst h
    simp only [Step.call, DriverState.Call.apply, deregisterFile, DriverState.deregisterFile]
    rw [requireInit_bind, DriverState.requireInit_bind]
    -- both test the same count
    have hrc : s.driver.refCount = s.refCount := rfl
    rw [hrc]
    split
    · rfl
    · rw [driver_eraseFile]; rfl
  | registerBuffer hip buf length flags address =>
    simp only [machine, step, Option.ite_none_left_eq_some, Option.some.injEq] at h
    obtain ⟨-, rfl⟩ := h
    show (insertBuffer hip buf length flags address (implicitInit s)).2.driver =
      (DriverState.registerBuffer hip buf length flags s.driver).2
    rw [driver_insertBuffer, driver_implicitInit]
    rfl
  | deregisterBuffer buf =>
    simp only [machine, step, Option.some.injEq] at h
    subst h
    simp only [Step.call, DriverState.Call.apply, deregisterBuffer, DriverState.deregisterBuffer]
    rw [requireInit_bind, DriverState.requireInit_bind]
    have hrc : s.driver.refCount = s.refCount := rfl
    rw [hrc]
    split
    · rfl
    · rw [driver_eraseBuffer]; rfl
  | lookup t hip fh buf address =>
    rcases lookup_cases h with rfl | ⟨f, b, -, -, rfl⟩ <;> rfl
  | copy r holder =>
    simp only [machine, step, Option.ite_none_right_eq_some, Option.some.injEq] at h
    obtain ⟨-, rfl⟩ := h
    rfl
  | drop r =>
    simp only [machine, step, Option.ite_none_right_eq_some, Option.some.injEq] at h
    obtain ⟨-, rfl⟩ := h
    rfl
  | incrRefCount =>
    simp only [machine, step, Option.some.injEq] at h
    subst h
    rfl
  | decrRefCount =>
    simp only [machine, step, Option.some.injEq] at h
    subst h
    exact driver_decrRefCount s
  | ensureInitialized =>
    simp only [machine, step, Option.some.injEq] at h
    subst h
    exact driver_implicitInit s
  | createContext capacity handle =>
    rcases createContext_cases h with ⟨rfl, -⟩ | ⟨ctx, -, -, rfl⟩ <;> rfl
  | acceptOperations t context ops =>
    obtain ⟨ctx, -, -, rfl⟩ := acceptOperations_cases h
    rfl

/-! ## The steps on the tables -/

theorem implicitInit_eq (s : Registry) : ∃ n, implicitInit s = { s with refCount := n } := by
  unfold implicitInit
  split
  · exact ⟨_, rfl⟩
  · exact ⟨s.refCount, rfl⟩

/-- What the steps do, the count apart. -/
inductive Moves (s : Registry) : Step → Registry → Prop
  | leaves {l : Step} (n : ℤ) : Moves s l { s with refCount := n }
  | insertFile {uf : UnregisteredFile} {handle : ℕ} (n : ℤ) (hfresh : ¬ s.Alive (.file handle))
      (hnew : s.fromFd.lookup uf.clientFd.fd = none) :
    Moves s (.registerFile uf handle) { s with
      refCount := n
      fromFd := s.fromFd.insert uf.clientFd.fd (File.construct handle uf)
      fromFh := s.fromFh.insert handle (File.construct handle uf) }
  | eraseFile {fh : ℕ} {f : IFile} (hf : s.fromFh.lookup fh = some f)
      (huse : s.useCount f.object ≤ 2) :
    Moves s (.deregisterFile fh) { s with
      fromFd := s.fromFd.erase f.clientFd
      fromFh := s.fromFh.erase fh }
  | insertBuffer {hip : HipQueries} {buf length : ℕ} {flags : ℤ} {address : ℕ} {object : IBuffer}
      (n : ℤ) (hfresh : ¬ s.Alive (.buffer address)) (hnew : s.fromPtr.lookup buf = none)
      (hobject : Buffer.registered hip buf length flags = .ok object) :
    Moves s (.registerBuffer hip buf length flags address) { s with
      refCount := n
      fromPtr := s.fromPtr.insert buf ⟨address, object⟩ }
  | eraseBuffer {buf : ℕ} {b : SharedBuffer} (hb : s.fromPtr.lookup buf = some b)
      (huse : s.useCount b.ref ≤ 1) :
    Moves s (.deregisterBuffer buf) { s with fromPtr := s.fromPtr.erase buf }
  | lookup {t : ℕ} {hip : HipQueries} {fh buf address : ℕ} {f : IFile} {b : SharedBuffer}
      (hf : s.fromFh.lookup fh = some f)
      (hb : (∃ p, s.fromPtr.lookup p = some b) ∨ ¬ s.Alive b.ref) :
    Moves s (.lookup t hip fh buf address)
      { s with outside := (.thread t, f.object) :: (.thread t, b.ref) :: s.outside }
  | copy {r : Holder × SharedObject} {holder : Holder} (hr : r ∈ s.outside) :
    Moves s (.copy r holder) { s with outside := (holder, r.2) :: s.outside }
  | drop {r : Holder × SharedObject} (hr : r ∈ s.outside) :
    Moves s (.drop r) { s with outside := s.outside.erase r }
  | clear (hpos : s.refCount ≤ 1) :
    Moves s .decrRefCount { s with refCount := 0, fromFd := ∅, fromFh := ∅, fromPtr := ∅ }
  | createContext {capacity handle : ℕ} {ctx : BatchContext}
      (hctx : BatchContext.construct capacity = .ok ctx)
      (hnew : s.contexts.lookup handle = none) :
    Moves s (.createContext capacity handle)
      { s with contexts := s.contexts.insert handle ctx }
  | acceptOperations {t context : ℕ} {ops : List BatchOperation} {ctx : BatchContext}
      (hctx : s.contexts.lookup context = some ctx) (hok : s.Acceptable t ctx ops) :
    Moves s (.acceptOperations t context ops) { s with
      outside := s.outside.diff (pendingRefs t ops)
      contexts := s.contexts.insert context { ctx with
        outstandingOps := ops.foldl BatchContext.insert ctx.outstandingOps } }

theorem insertFile_moves {uf : UnregisteredFile} {handle : ℕ}
    (hfresh : ¬ s.Alive (.file handle)) :
    Moves s (.registerFile uf handle) (registerFile uf handle s).2 := by
  obtain ⟨n, hn⟩ := implicitInit_eq s
  show Moves s _ (insertFile uf handle (implicitInit s)).2
  rw [hn]
  unfold insertFile
  split
  · exact .leaves n
  · rename_i hfd
    exact .insertFile n hfresh (by simpa using hfd)

theorem eraseFile_moves (fh : ℕ) : Moves s (.deregisterFile fh) (deregisterFile fh s).2 := by
  unfold deregisterFile
  rw [requireInit_bind]
  split
  · exact .leaves s.refCount
  · unfold eraseFile
    cases hf : s.fromFh.lookup fh with
    | none => exact .leaves s.refCount
    | some f =>
      simp only
      split
      · exact .leaves s.refCount
      · rename_i huse
        exact .eraseFile hf (Nat.le_of_not_lt huse)

theorem insertBuffer_moves {hip : HipQueries} {buf length : ℕ} {flags : ℤ} {address : ℕ}
    (hfresh : ¬ s.Alive (.buffer address)) :
    Moves s (.registerBuffer hip buf length flags address)
      (registerBuffer hip buf length flags address s).2 := by
  obtain ⟨n, hn⟩ := implicitInit_eq s
  show Moves s _ (insertBuffer hip buf length flags address (implicitInit s)).2
  rw [hn]
  unfold insertBuffer
  split
  · exact .leaves n
  · rename_i hbuf
    cases hobject : Buffer.registered hip buf length flags with
    | error e => exact .leaves n
    | ok object => exact .insertBuffer n hfresh (by simpa using hbuf) hobject

theorem eraseBuffer_moves (buf : ℕ) :
    Moves s (.deregisterBuffer buf) (deregisterBuffer buf s).2 := by
  unfold deregisterBuffer
  rw [requireInit_bind]
  split
  · exact .leaves s.refCount
  · unfold eraseBuffer
    cases hb : s.fromPtr.lookup buf with
    | none => exact .leaves s.refCount
    | some b =>
      simp only
      split
      · exact .leaves s.refCount
      · rename_i huse
        exact .eraseBuffer hb (Nat.le_of_not_lt huse)

theorem decrRefCount_snd (s : Registry) : (decrRefCount s).2 = clearAtZero (dropRef s) := by
  show (requireNonneg (clearAtZero (dropRef s))).2 = _
  unfold requireNonneg
  split <;> rfl

theorem decrRefCount_moves : Moves s .decrRefCount (decrRefCount s).2 := by
  rw [decrRefCount_snd]
  have hdrop : ∃ n, dropRef s = { s with refCount := n } ∧ (n = 0 → s.refCount ≤ 1) := by
    unfold dropRef
    split
    · exact ⟨_, rfl, fun h => by omega⟩
    · exact ⟨s.refCount, rfl, fun h => by omega⟩
  obtain ⟨n, hn, hle⟩ := hdrop
  rw [hn]
  unfold clearAtZero
  split
  · rename_i h0
    have h0' : n = 0 := h0
    subst h0'
    exact .clear (hle rfl)
  · exact .leaves n

/-- **The steps, by what they do to the tables and the references.** -/
theorem step_moves (h : machine.step s l = some s') : Moves s l s' := by
  cases l with
  | registerFile uf handle =>
    simp only [machine, step, Option.ite_none_left_eq_some, Option.some.injEq] at h
    obtain ⟨hfresh, rfl⟩ := h
    exact insertFile_moves hfresh
  | deregisterFile fh =>
    simp only [machine, step, Option.some.injEq] at h
    exact h ▸ eraseFile_moves fh
  | registerBuffer hip buf length flags address =>
    simp only [machine, step, Option.ite_none_left_eq_some, Option.some.injEq] at h
    obtain ⟨hfresh, rfl⟩ := h
    exact insertBuffer_moves hfresh
  | deregisterBuffer buf =>
    simp only [machine, step, Option.some.injEq] at h
    exact h ▸ eraseBuffer_moves buf
  | lookup t hip fh buf address =>
    rcases lookup_cases h with rfl | ⟨f, b, hf, hb, rfl⟩
    · exact .leaves s'.refCount
    · exact .lookup hf hb
  | copy r holder =>
    simp only [machine, step, Option.ite_none_right_eq_some, Option.some.injEq] at h
    obtain ⟨hr, rfl⟩ := h
    exact .copy hr
  | drop r =>
    simp only [machine, step, Option.ite_none_right_eq_some, Option.some.injEq] at h
    obtain ⟨hr, rfl⟩ := h
    exact .drop hr
  | incrRefCount =>
    simp only [machine, step, Option.some.injEq] at h
    exact h ▸ .leaves _
  | decrRefCount =>
    simp only [machine, step, Option.some.injEq] at h
    exact h ▸ decrRefCount_moves
  | ensureInitialized =>
    simp only [machine, step, Option.some.injEq] at h
    obtain ⟨n, hn⟩ := implicitInit_eq s
    exact h ▸ (show Moves s _ (implicitInit s) from hn ▸ .leaves n)
  | createContext capacity handle =>
    rcases createContext_cases h with ⟨rfl, -⟩ | ⟨ctx, hctx, hnew, rfl⟩
    · exact .leaves s'.refCount
    · exact .createContext hctx hnew
  | acceptOperations t context ops =>
    obtain ⟨ctx, hctx, hok, rfl⟩ := acceptOperations_cases h
    exact .acceptOperations hctx hok

/-! ## The invariant -/

/-- **The tables are consistent**: the two tables of files hold the same files, each
under its own descriptor and its own handle; a buffer is under its own pointer, and no
two pointers share an object. -/
structure Inv (s : Registry) : Prop where
  fd : ∀ fd f, s.fromFd.lookup fd = some f →
    fd = f.clientFd ∧ s.fromFh.lookup f.handle = some f
  fh : ∀ fh f, s.fromFh.lookup fh = some f →
    fh = f.handle ∧ s.fromFd.lookup f.clientFd = some f
  ptr : ∀ p b, s.fromPtr.lookup p = some b → p = b.object.getBuffer
  distinct : Table.Distinct s.fromPtr SharedBuffer.ref

theorem Inv.of_empty (hfd : s.fromFd = ∅) (hfh : s.fromFh = ∅) (hptr : s.fromPtr = ∅) : Inv s := by
  refine ⟨?_, ?_, ?_, ?_⟩
  · intro fd f hf
    rw [hfd] at hf
    exact absurd hf Table.lookup_empty_ne
  · intro fh f hf
    rw [hfh] at hf
    exact absurd hf Table.lookup_empty_ne
  · intro p b hb
    rw [hptr] at hb
    exact absurd hb Table.lookup_empty_ne
  · rw [hptr]
    exact Table.Distinct.empty

theorem Inv.init : Inv init := .of_empty rfl rfl rfl

theorem fromFh_alive {fh : ℕ} {f : IFile} (h : s.fromFh.lookup fh = some f) :
    s.Alive f.object := by
  have hmem : f.object ∈ (Table.values s.fromFh).map IFile.object :=
    List.mem_map_of_mem (Table.mem_values.2 ⟨fh, h⟩)
  simp only [Alive, refs, tableRefs, List.mem_append]
  exact Or.inl (Or.inl (Or.inr hmem))

theorem fromPtr_alive {p : ℕ} {b : SharedBuffer} (h : s.fromPtr.lookup p = some b) :
    s.Alive b.ref := by
  have hmem : b.ref ∈ (Table.values s.fromPtr).map SharedBuffer.ref :=
    List.mem_map_of_mem (Table.mem_values.2 ⟨p, h⟩)
  simp only [Alive, refs, tableRefs, List.mem_append]
  exact Or.inl (Or.inr hmem)

theorem Inv.insertFile (hI : Inv s) {uf : UnregisteredFile} {handle : ℕ}
    (hfresh : ¬ s.Alive (.file handle)) (hnew : s.fromFd.lookup uf.clientFd.fd = none) {n : ℤ} :
    Inv { s with
      refCount := n
      fromFd := s.fromFd.insert uf.clientFd.fd (File.construct handle uf)
      fromFh := s.fromFh.insert handle (File.construct handle uf) } := by
  have hfh : ∀ fh f, s.fromFh.lookup fh = some f → f.handle ≠ handle := by
    rintro fh f hf rfl
    exact hfresh (fromFh_alive hf)
  have hfd : ∀ fd f, s.fromFd.lookup fd = some f → f.clientFd ≠ uf.clientFd.fd := by
    intro fd f hf heq
    rw [← heq, ← (hI.fd fd f hf).1, hf] at hnew
    cases hnew
  refine ⟨?_, ?_, hI.ptr, hI.distinct⟩
  · intro fd f hf
    simp only [Table.lookup_insert_eq _ handle]
    rcases Table.lookup_insert_cases hf with ⟨rfl, rfl⟩ | ⟨-, hf⟩
    · exact ⟨rfl, if_pos rfl⟩
    · obtain ⟨hkey, hother⟩ := hI.fd fd f hf
      exact ⟨hkey, (if_neg (hfh _ f hother)).trans hother⟩
  · intro fh f hf
    simp only [Table.lookup_insert_eq _ uf.clientFd.fd]
    rcases Table.lookup_insert_cases hf with ⟨rfl, rfl⟩ | ⟨-, hf⟩
    · exact ⟨rfl, if_pos rfl⟩
    · obtain ⟨hkey, hother⟩ := hI.fh fh f hf
      exact ⟨hkey, (if_neg (hfd _ f hother)).trans hother⟩

theorem Inv.eraseFile (hI : Inv s) {fh : ℕ} {f : IFile} (hf : s.fromFh.lookup fh = some f) :
    Inv { s with fromFd := s.fromFd.erase f.clientFd, fromFh := s.fromFh.erase fh } := by
  obtain ⟨hkey, hfd⟩ := hI.fh fh f hf
  refine ⟨?_, ?_, hI.ptr, hI.distinct⟩
  · intro fd f' hf'
    obtain ⟨hne, hf'⟩ := Table.lookup_erase_some hf'
    obtain ⟨hkey', hother⟩ := hI.fd fd f' hf'
    simp only [Table.lookup_erase_eq, Option.ite_none_left_eq_some]
    refine ⟨hkey', ?_, hother⟩
    -- a file under the erased handle would be the erased file
    intro h
    rw [h, hf] at hother
    cases hother
    exact hne hkey'
  · intro fh' f' hf'
    obtain ⟨hne, hf'⟩ := Table.lookup_erase_some hf'
    obtain ⟨hkey', hother⟩ := hI.fh fh' f' hf'
    simp only [Table.lookup_erase_eq, Option.ite_none_left_eq_some]
    refine ⟨hkey', ?_, hother⟩
    intro h
    rw [h, hfd] at hother
    cases hother
    exact hne (hkey'.trans hkey.symm)

theorem Inv.insertBuffer (hI : Inv s) {buf address : ℕ} {object : IBuffer}
    (hfresh : ¬ s.Alive (.buffer address)) (hobject : object.getBuffer = buf) {n : ℤ} :
    Inv { s with refCount := n, fromPtr := s.fromPtr.insert buf ⟨address, object⟩ } := by
  have hne : ∀ p b, s.fromPtr.lookup p = some b → b.ref ≠ .buffer address := by
    intro p b hb h
    exact hfresh (h ▸ fromPtr_alive hb)
  refine ⟨hI.fd, hI.fh, ?_, hI.distinct.insert buf hne⟩
  intro p b hb
  rcases Table.lookup_insert_cases hb with ⟨rfl, rfl⟩ | ⟨-, hb⟩
  · exact hobject.symm
  · exact hI.ptr p b hb

theorem Inv.eraseBuffer (hI : Inv s) (buf : ℕ) :
    Inv { s with fromPtr := s.fromPtr.erase buf } := by
  refine ⟨hI.fd, hI.fh, ?_, hI.distinct.erase buf⟩
  intro p b hb
  exact hI.ptr p b (Table.lookup_erase_some hb).2

/-- A registered buffer is at the pointer that it was registered with. -/
theorem registered_getBuffer {hip : HipQueries} {buf length : ℕ} {flags : ℤ} {object : IBuffer}
    (h : Buffer.registered hip buf length flags = .ok object) : object.getBuffer = buf := by
  unfold Buffer.registered at h
  split at h
  · cases h
  · split at h <;> cases h
    rfl

theorem Inv.step (hI : Inv s) (h : Moves s l s') : Inv s' := by
  cases h with
  | insertFile n hfresh hnew => exact hI.insertFile hfresh hnew
  | eraseFile hf huse => exact hI.eraseFile hf
  | insertBuffer n hfresh hnew hobject =>
    exact hI.insertBuffer hfresh (registered_getBuffer hobject)
  | eraseBuffer hb huse => exact hI.eraseBuffer _
  | clear hpos => exact .of_empty rfl rfl rfl
  | _ => exact ⟨hI.fd, hI.fh, hI.ptr, hI.distinct⟩

theorem inv_of_reachable (hs : machine.Reachable s) : Inv s :=
  hs.invariant Inv.init fun _ _ _ hI _ hst => hI.step (step_moves hst)

/-- The driver of a reachable registry is a reachable driver. -/
theorem driver_reachable (hs : machine.Reachable s) :
    DriverState.machine.Reachable s.driver := by
  refine hs.invariant (I := fun s => DriverState.machine.Reachable s.driver) .init ?_
  intro s l s' ih _ hst
  have hcall := driver_of_step hst
  cases hc : l.call s with
  | none => rw [hc] at hcall; rw [hcall]; exact ih
  | some c => rw [hc] at hcall; rw [hcall]; exact .step c ih trivial rfl

/-- Where something is registered, the driver is initialised. -/
theorem refCount_ne_zero (hs : machine.Reachable s)
    (h : (∃ fh f, s.fromFh.lookup fh = some f) ∨ ∃ p b, s.fromPtr.lookup p = some b) :
    s.refCount ≠ 0 := by
  intro h0
  obtain ⟨hfiles, hbuffers⟩ := (DriverState.inv_of_reachable (driver_reachable hs)).empty h0
  rcases h with ⟨fh, f, hf⟩ | ⟨p, b, hb⟩
  · have hview : s.driver.fileMap.fromFh fh = some f := by
      show (s.fromFh.lookup fh).map id = some f
      rw [hf]; rfl
    rw [hfiles] at hview
    cases hview
  · have hview : s.driver.bufferMap.fromPtr p = some b.object := by
      show (s.fromPtr.lookup p).map SharedBuffer.object = some b.object
      rw [hb]; rfl
    rw [hbuffers] at hview
    cases hview

/-! ## Use counts -/

/-- A reference to the object is held outside of the tables. -/
def HeldOutside (s : Registry) (o : SharedObject) : Prop := o ∈ s.outsideRefs

theorem useCount_eq (s : Registry) (o : SharedObject) :
    s.useCount o = s.tableRefs.count o + s.outsideRefs.count o := List.count_append

/-- The tables hold two references to a registered file. -/
theorem Inv.count_file (hI : Inv s) {fh : ℕ} {f : IFile} (hf : s.fromFh.lookup fh = some f) :
    s.tableRefs.count f.object = 2 := by
  have hfd := (hI.fh fh f hf).2
  have hdistinct_fh : Table.Distinct s.fromFh IFile.object := by
    intro k a k' a' ha ha' htag
    have hh : a.handle = a'.handle := SharedObject.file.inj htag
    rw [(hI.fh k a ha).1, (hI.fh k' a' ha').1, hh]
  have hdistinct_fd : Table.Distinct s.fromFd IFile.object := by
    intro k a k' a' ha ha' htag
    have hh : a.handle = a'.handle := SharedObject.file.inj htag
    obtain ⟨hk, hl⟩ := hI.fd k a ha
    obtain ⟨hk', hl'⟩ := hI.fd k' a' ha'
    rw [hh, hl'] at hl
    cases hl
    exact hk.trans hk'.symm
  have hbuf : ((Table.values s.fromPtr).map SharedBuffer.ref).count f.object = 0 :=
    Table.count_values_eq_zero fun _ _ _ => nofun
  simp only [tableRefs, List.count_append]
  rw [Table.count_values_eq_one hdistinct_fd hfd, Table.count_values_eq_one hdistinct_fh hf, hbuf]

/-- The table holds one reference to a registered buffer. -/
theorem Inv.count_buffer (hI : Inv s) {p : ℕ} {b : SharedBuffer}
    (hb : s.fromPtr.lookup p = some b) : s.tableRefs.count b.ref = 1 := by
  have hfd : ((Table.values s.fromFd).map IFile.object).count b.ref = 0 :=
    Table.count_values_eq_zero fun _ _ _ => nofun
  have hfh : ((Table.values s.fromFh).map IFile.object).count b.ref = 0 :=
    Table.count_values_eq_zero fun _ _ _ => nofun
  simp only [tableRefs, List.count_append]
  rw [hfd, hfh, Table.count_values_eq_one hI.distinct hb]

/-- **The test of `deregisterFile` finds the references outside of the tables.** -/
theorem Inv.two_lt_useCount (hI : Inv s) {fh : ℕ} {f : IFile}
    (hf : s.fromFh.lookup fh = some f) : 2 < s.useCount f.object ↔ s.HeldOutside f.object := by
  rw [useCount_eq, hI.count_file hf, HeldOutside, ← List.count_pos_iff]
  omega

/-- **The test of `deregisterBuffer` finds the references outside of the table.** -/
theorem Inv.one_lt_useCount (hI : Inv s) {p : ℕ} {b : SharedBuffer}
    (hb : s.fromPtr.lookup p = some b) : 1 < s.useCount b.ref ↔ s.HeldOutside b.ref := by
  rw [useCount_eq, hI.count_buffer hb, HeldOutside, ← List.count_pos_iff]
  omega

/-! ## Deregistration -/

/-- What `deregisterFile` does at a registered handle. -/
theorem deregisterFile_spec (hs : machine.Reachable s) {fh : ℕ} {f : IFile}
    (hf : s.fromFh.lookup fh = some f) :
    (s.HeldOutside f.object → deregisterFile fh s = (.error .fileOperationsOutstanding, s)) ∧
      (¬ s.HeldOutside f.object → deregisterFile fh s = (.ok (), { s with
        fromFd := s.fromFd.erase f.clientFd
        fromFh := s.fromFh.erase fh })) := by
  have htest := (inv_of_reachable hs).two_lt_useCount hf
  have h0 := refCount_ne_zero hs (Or.inl ⟨fh, f, hf⟩)
  have heq : deregisterFile fh s = eraseFile fh s := by
    rw [deregisterFile, requireInit_bind, if_neg h0]
  rw [heq, eraseFile, hf]
  simp only
  constructor
  · intro hheld
    rw [if_pos (htest.2 hheld)]
  · intro hheld
    rw [if_neg (fun h => hheld (htest.1 h))]

/-- What `deregisterBuffer` does at a registered pointer. -/
theorem deregisterBuffer_spec (hs : machine.Reachable s) {p : ℕ} {b : SharedBuffer}
    (hb : s.fromPtr.lookup p = some b) :
    (s.HeldOutside b.ref → deregisterBuffer p s = (.error .bufferOperationsOutstanding, s)) ∧
      (¬ s.HeldOutside b.ref →
        deregisterBuffer p s = (.ok (), { s with fromPtr := s.fromPtr.erase p })) := by
  have htest := (inv_of_reachable hs).one_lt_useCount hb
  have h0 := refCount_ne_zero hs (Or.inr ⟨p, b, hb⟩)
  have heq : deregisterBuffer p s = eraseBuffer p s := by
    rw [deregisterBuffer, requireInit_bind, if_neg h0]
  rw [heq, eraseBuffer, hb]
  simp only
  constructor
  · intro hheld
    rw [if_pos (htest.2 hheld)]
  · intro hheld
    rw [if_neg (fun h => hheld (htest.1 h))]

/-- A method's result is the error exactly under the condition that divides its cases. -/
theorem error_iff {α : Type} {r : Except Exn α × Registry} {e : Exn} {P : Prop} {a : α}
    {s₁ s₂ : Registry} (h : P → r = (.error e, s₁)) (h' : ¬ P → r = (.ok a, s₂)) :
    r.1 = .error e ↔ P := by
  constructor
  · intro he
    by_contra hP
    rw [h' hP] at he
    cases he
  · intro hP
    rw [h hP]

/-- The two tables of files hold the same files, each under its own descriptor and its
own handle, none of which comes twice; each buffer is under its own pointer. -/
structure Consistent (s : Registry) : Prop where
  fromFd : ∀ fd f, s.fromFd.lookup fd = some f ↔
    fd = f.clientFd ∧ s.fromFh.lookup f.handle = some f
  fromFh : ∀ fh f, s.fromFh.lookup fh = some f ↔
    fh = f.handle ∧ s.fromFd.lookup f.clientFd = some f
  clientFds : ((Table.values s.fromFd).map IFile.clientFd).Nodup
  handles : ((Table.values s.fromFh).map IFile.handle).Nodup
  fromPtr : ∀ p b, s.fromPtr.lookup p = some b → p = b.object.getBuffer

theorem Inv.consistent (hI : Inv s) : Consistent s where
  fromFd fd f := by
    constructor
    · exact hI.fd fd f
    · rintro ⟨rfl, h⟩
      exact (hI.fh _ f h).2
  fromFh fh f := by
    constructor
    · exact hI.fh fh f
    · rintro ⟨rfl, h⟩
      exact (hI.fd _ f h).2
  clientFds := Table.Distinct.nodup fun k a k' a' ha ha' htag => by
    rw [(hI.fd k a ha).1, (hI.fd k' a' ha').1, htag]
  handles := Table.Distinct.nodup fun k a k' a' ha ha' htag => by
    rw [(hI.fh k a ha).1, (hI.fh k' a' ha').1, htag]
  fromPtr := hI.ptr

/-- **The tables are consistent and deregistration is exact**, in every run: it is
refused exactly if a reference is held outside of the tables, and then changes nothing;
otherwise it removes the entry from every table. -/
theorem tables_consistent (s : Registry) (hs : machine.Reachable s) :
    Consistent s ∧
    (∀ fh f, s.fromFh.lookup fh = some f →
      ((deregisterFile fh s).1 = .error .fileOperationsOutstanding ↔ s.HeldOutside f.object) ∧
      (s.HeldOutside f.object → (deregisterFile fh s).2 = s) ∧
      (¬ s.HeldOutside f.object → deregisterFile fh s = (.ok (), { s with
        fromFd := s.fromFd.erase f.clientFd
        fromFh := s.fromFh.erase fh }))) ∧
    (∀ p b, s.fromPtr.lookup p = some b →
      ((deregisterBuffer p s).1 = .error .bufferOperationsOutstanding ↔ s.HeldOutside b.ref) ∧
      (s.HeldOutside b.ref → (deregisterBuffer p s).2 = s) ∧
      (¬ s.HeldOutside b.ref →
        deregisterBuffer p s = (.ok (), { s with fromPtr := s.fromPtr.erase p }))) := by
  refine ⟨(inv_of_reachable hs).consistent, ?_, ?_⟩
  · intro fh f hf
    obtain ⟨hheld, hfree⟩ := deregisterFile_spec hs hf
    exact ⟨error_iff hheld hfree, fun h => by rw [hheld h], hfree⟩
  · intro p b hb
    obtain ⟨hheld, hfree⟩ := deregisterBuffer_spec hs hb
    exact ⟨error_iff hheld hfree, fun h => by rw [hheld h], hfree⟩

/-- A file without direct IO, on descriptor 3. -/
def plainFile : UnregisteredFile where
  clientFd := ⟨3, false⟩
  bufferedFd := ⟨3, false⟩
  unbufferedFd := none
  stx := ⟨0, 0, 0, 0⟩
  flags := 0
  mountinfo := none
  dioMemAlign := 0
  dioOffsetAlign := 0

/-- A file is registered, referenced, cleared at a close with the reference outstanding,
and registered again as another object; then the reference is dropped. -/
def registeredAgain : List Step :=
  [.registerFile plainFile 64, .lookup 0 oneAllocation 64 0x10000 128, .decrRefCount,
    .registerFile plainFile 72, .drop (.thread 0, .file 64)]

theorem tables_consistent_registeredAgain :
    ∃ s, machine.run machine.init registeredAgain = some s ∧ Consistent s ∧
      s.outside = [(.thread 0, .buffer 128)] ∧ (deregisterFile 72 s).1 = .ok () := by
  refine ⟨_, rfl, ?_, by decide, ?_⟩
  · exact (tables_consistent _ (@Machine.reachable_of_run _ _ machine registeredAgain _ rfl)).1
  · have h := (tables_consistent _
      (@Machine.reachable_of_run _ _ machine registeredAgain _ rfl)).2.1
      72 (File.construct 72 plainFile) (by decide)
    rw [h.2.2 (by unfold HeldOutside; decide)]

end HipFile.Registry
