import HipFile.Model.HipFile

/-!
# Registration and the driver state

* `DriverState.inv_of_reachable`: the reference count is not negative, and without
  references there are no files and no buffers.
* `hipFileBufRegister_failed`, `hipFileHandleRegister_failed`: the state that a
  failed registration leaves.
* `registration_failed_iff`: when it is the state before the call.
-/

namespace HipFile

namespace DriverState

/-- **The invariant of the driver state.** -/
structure Inv (s : DriverState) : Prop where
  nonneg : 0 ≤ s.refCount
  empty : s.refCount = 0 → s.fileMap = .empty ∧ s.bufferMap = .empty

theorem Inv.init : Inv DriverState.init := ⟨Int.le_refl 0, fun _ => ⟨rfl, rfl⟩⟩

/-- With a positive count the maps are free. -/
theorem Inv.of_pos {s : DriverState} (h : 0 < s.refCount) : Inv s :=
  ⟨Int.le_of_lt h, fun h0 => absurd h0 (Int.ne_of_gt h)⟩

variable {s : DriverState}

theorem implicitInit_pos (hI : Inv s) : 0 < (implicitInit s).refCount := by
  have := hI.nonneg
  unfold implicitInit
  split
  · simp only; omega
  · omega

@[simp] theorem implicitInit_of_pos (h : 0 < s.refCount) : implicitInit s = s := by
  unfold implicitInit; rw [if_neg (Int.ne_of_gt h)]

@[simp] theorem implicitInit_maps (s : DriverState) :
    (implicitInit s).fileMap = s.fileMap ∧ (implicitInit s).bufferMap = s.bufferMap ∧
      (implicitInit s).streamMap = s.streamMap := by
  unfold implicitInit; split <;> exact ⟨rfl, rfl, rfl⟩

/-- A method that requires an initialised driver runs on, or has thrown. -/
theorem requireInit_bind {α : Type} (x : Method α) (s : DriverState) :
    (do requireInit; x) s =
      if s.refCount = 0 then (.error .driverNotInitialized, s) else x s := by
  by_cases h : s.refCount = 0
  · simp [Prog.bind_apply, requireInit, h]
  · simp [Prog.bind_apply, requireInit, h]

/-- After `requireInit`, a method that keeps the count keeps the invariant. -/
theorem Inv.requireInit {α : Type} {x : Method α} (hI : Inv s)
    (hx : (x s).2.refCount = s.refCount) :
    Inv ((do DriverState.requireInit; x : Method α) s).2 := by
  rw [requireInit_bind]
  split
  · exact hI
  · rename_i h0
    have := hI.nonneg
    exact Inv.of_pos (by omega)

theorem decrRefCount_apply (s : DriverState) :
    decrRefCount s = requireNonneg (clearAtZero (dropRef s)) := rfl

/-- Dropping a reference and clearing the maps at zero keeps the invariant. -/
theorem inv_clearAtZero (hI : Inv s) : Inv (clearAtZero (dropRef s)) := by
  have hnonneg := hI.nonneg
  have hdrop : 0 ≤ (dropRef s).refCount := by
    unfold dropRef
    split
    · simp only; omega
    · exact hnonneg
  unfold clearAtZero
  split
  · exact ⟨hdrop, fun _ => ⟨rfl, rfl⟩⟩
  · exact Inv.of_pos (by omega)

/-- The throw of `decrRefCount` is not reached. -/
theorem decrRefCount_eq (hI : Inv s) : decrRefCount s = (.ok (), clearAtZero (dropRef s)) := by
  have := (inv_clearAtZero hI).nonneg
  rw [decrRefCount_apply, requireNonneg, if_neg (by omega)]

/-- **Every method keeps the invariant.** -/
theorem inv_apply (hI : Inv s) (c : Call) : Inv (c.apply s) := by
  cases c with
  | registerBuffer hip buf length flags => exact Inv.of_pos (implicitInit_pos hI)
  | deregisterBuffer buf useCount => exact hI.requireInit rfl
  | registerFile uf handle => exact Inv.of_pos (implicitInit_pos hI)
  | deregisterFile fh useCount => exact hI.requireInit rfl
  | registerStream hip hipStream flags => exact ⟨hI.nonneg, hI.empty⟩
  | deregisterStream hipStream => exact ⟨hI.nonneg, hI.empty⟩
  | incrRefCount =>
    have hpos : 0 < s.refCount + 1 := by have := hI.nonneg; omega
    exact Inv.of_pos hpos
  | decrRefCount =>
    have heq := congrArg (fun r => Inv r.2) (decrRefCount_eq hI)
    exact heq.mpr (inv_clearAtZero hI)
  | ensureInitialized => exact Inv.of_pos (implicitInit_pos hI)

/-- **The invariant holds in every reachable state.** -/
theorem inv_of_reachable (h : machine.Reachable s) : Inv s :=
  h.invariant Inv.init fun s c s' hI _ hst => by
    obtain rfl := Option.some.inj hst
    exact inv_apply hI c

end DriverState

open DriverState

variable {s : DriverState}

/-- **What a failed `hipFileBufRegister` leaves**: the state before the call, with the
driver initialised. -/
theorem hipFileBufRegister_failed {hip : HipQueries} {bufferBase length : ℕ} {flags : ℤ}
    (h : (hipFileBufRegister hip bufferBase length flags s).1.err ≠ .success) :
    (hipFileBufRegister hip bufferBase length flags s).2 = implicitInit s := by
  unfold hipFileBufRegister at h ⊢
  cases hr : DriverState.registerBuffer hip bufferBase length flags s with
  | mk ret s' =>
    cases ret with
    | ok u => simp [hr, hipFileSuccess] at h
    | error e =>
      simp only
      have hmap : BufferMap.registerBuffer hip bufferBase length flags (implicitInit s).bufferMap =
          (.error e, s'.bufferMap) ∧ s' = { implicitInit s with bufferMap := s'.bufferMap } := by
        simp only [DriverState.registerBuffer, Prog.bind_apply, Prog.update_apply, onBufferMap,
          Prog.zoom, Prod.mk.injEq] at hr
        rw [← hr.2]
        exact ⟨Prod.ext hr.1 rfl, rfl⟩
      rw [hmap.2, BufferMap.registerBuffer_error hmap.1]

/-- **A failed `hipFileHandleRegister` leaves the state before the call**: the file is
looked at before the lock is taken, and without references there is no file that
could be registered already. -/
theorem hipFileHandleRegister_failed (hI : Inv s) {calls : FileCalls} {newFile : ℕ} {fhNull : Bool}
    {descr : Option HipFileDescr}
    (h : (hipFileHandleRegister calls newFile fhNull descr s).1.err ≠ .success) :
    (hipFileHandleRegister calls newFile fhNull descr s).2.2 = s := by
  unfold hipFileHandleRegister at h ⊢
  split
  · rfl
  · rfl
  · split
    · split
      · rfl
      · rename_i uf _
        cases hr : DriverState.registerFile uf newFile s with
        | mk ret s' =>
          cases ret with
          | ok fh => simp_all [hipFileSuccess]
          | error e =>
            simp only
            have hmap : FileMap.registerFile uf newFile (implicitInit s).fileMap =
                (.error e, s'.fileMap) ∧ s' = { implicitInit s with fileMap := s'.fileMap } := by
              simp only [DriverState.registerFile, Prog.bind_apply, Prog.update_apply, onFileMap,
                Prog.zoom, Prod.mk.injEq] at hr
              rw [← hr.2]
              exact ⟨Prod.ext hr.1 rfl, rfl⟩
            obtain ⟨hfd, heq⟩ := FileMap.registerFile_error hmap.1
            -- without references there would be no file to be registered already
            have hpos : 0 < s.refCount := by
              rcases Int.lt_or_eq_of_le hI.nonneg with h0 | h0
              · exact h0
              · rw [(implicitInit_maps s).1, (hI.empty h0.symm).1] at hfd
                simp [FileMap.empty] at hfd
            rw [hmap.2, heq, implicitInit_of_pos hpos]
    · rfl

/-- A call of one of the two registration functions. -/
inductive RegisterCall
  | buf (hip : HipQueries) (bufferBase length : ℕ) (flags : ℤ)
  | handle (calls : FileCalls) (newFile : ℕ) (fhNull : Bool) (descr : Option HipFileDescr)

/-- What the call returns, and the state it leaves. -/
def RegisterCall.run (s : DriverState) : RegisterCall → HipFileError × DriverState
  | .buf hip bufferBase length flags => hipFileBufRegister hip bufferBase length flags s
  | .handle calls newFile fhNull descr =>
    let r := hipFileHandleRegister calls newFile fhNull descr s
    (r.1, r.2.2)

/-- The reference count, the buffer map and the file map are the same. -/
def Unchanged (s s' : DriverState) : Prop :=
  s'.refCount = s.refCount ∧ s'.bufferMap = s.bufferMap ∧ s'.fileMap = s.fileMap

/-- **When a failed registration changes nothing**: when the driver is initialised
already, or the registration is of a file. -/
theorem registration_failed_iff (s : DriverState) (hs : DriverState.machine.Reachable s)
    (c : RegisterCall) (hc : (c.run s).1.err ≠ .success) :
    Unchanged s (c.run s).2 ↔
      0 < s.refCount ∨ ∃ calls newFile fhNull descr, c = .handle calls newFile fhNull descr := by
  have hI := inv_of_reachable hs
  cases c with
  | buf hip bufferBase length flags =>
    simp only [RegisterCall.run] at hc ⊢
    rw [hipFileBufRegister_failed hc]
    constructor
    · intro h
      -- the count after the implicit initialisation is positive, and it has not changed
      have hpos := implicitInit_pos hI
      rw [h.1] at hpos
      exact Or.inl hpos
    · rintro (h | ⟨_, _, _, _, h⟩)
      · rw [implicitInit_of_pos h]
        exact ⟨rfl, rfl, rfl⟩
      · cases h
  | handle calls newFile fhNull descr =>
    simp only [RegisterCall.run] at hc ⊢
    rw [hipFileHandleRegister_failed hI hc]
    exact ⟨fun _ => Or.inr ⟨_, _, _, _, rfl⟩, fun _ => ⟨rfl, rfl, rfl⟩⟩

/-- A HIP runtime that knows no pointer and no stream. -/
def noHip : HipQueries :=
  ⟨fun _ => .error .invalidValue, fun _ => .error .notFound, fun _ => .error .invalidValue⟩

/-- After `hipFileDriverOpen`, registering a null pointer changes nothing. -/
theorem registration_failed_opened :
    Unchanged { DriverState.init with refCount := 1 }
      ((RegisterCall.buf noHip 0 64 0).run { DriverState.init with refCount := 1 }).2 :=
  (registration_failed_iff { DriverState.init with refCount := 1 }
    (.step .incrRefCount .init trivial rfl) (.buf noHip 0 64 0) (by decide)).2 (Or.inl (by decide))

/-- Registering a null pointer opens a driver that is not initialised, and fails. -/
theorem registration_failed_closed :
    DriverState.machine.Reachable DriverState.init ∧
      ((RegisterCall.buf noHip 0 64 0).run DriverState.init).1.err ≠ .success ∧
      ((RegisterCall.buf noHip 0 64 0).run DriverState.init).2.refCount = 1 ∧
      ¬ Unchanged DriverState.init ((RegisterCall.buf noHip 0 64 0).run DriverState.init).2 :=
  ⟨.init, by decide, by decide, fun h => absurd h.1 (by decide)⟩

end HipFile
