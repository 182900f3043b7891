import Mathlib.Data.Int.ConditionallyCompleteOrder
import Mathlib.Order.ConditionallyCompleteLattice.Basic
import HipFile.Lib.FirstMax
import HipFile.Model.BackendWithFallback
import HipFile.Proof.Region
import HipFile.Proof.ReturnValue

/-!
# The selection of a backend

* `foldl_consider`: the loop of `hipFileIo` is the scan for a maximum, of the backends that
  do not refuse.
* `hipFileIo_selected`, `hipFileIo_refused`: the calls made, and the value returned.
* `selection_maximum`: both, and that the order of the backends matters for equal scores only.
-/

namespace HipFile

open FirstMax

variable {ω ι : Type} {file : IFile} {buffer : IBuffer} {size : ℕ} {fileOffset bufferOffset : ℤ}

/-- The score of a backend for the request. -/
def scoreOf (file : IFile) (buffer : IBuffer) (size : ℕ) (fileOffset bufferOffset : ℤ)
    (backend : Backend ω) : ℤ := backend.score file buffer size fileOffset bufferOffset

/-- The backends that do not refuse the request. -/
def accepting (backends : List (Backend ω)) (file : IFile) (buffer : IBuffer) (size : ℕ)
    (fileOffset bufferOffset : ℤ) : List (Backend ω) :=
  backends.filter fun b => 0 ≤ scoreOf file buffer size fileOffset bufferOffset b

theorem mem_accepting {backends : List (Backend ω)} {b : Backend ω} :
    b ∈ accepting backends file buffer size fileOffset bufferOffset ↔
      b ∈ backends ∧ 0 ≤ scoreOf file buffer size fileOffset bufferOffset b := by
  rw [accepting, List.mem_filter, decide_eq_true_eq]

theorem accepting_concat {b : Backend ω}
    (hb : 0 ≤ scoreOf file buffer size fileOffset bufferOffset b) (backends : List (Backend ω)) :
    accepting (backends ++ [b]) file buffer size fileOffset bufferOffset =
      accepting backends file buffer size fileOffset bufferOffset ++ [b] := by
  simp [accepting, hb]

theorem accepting_concat_refused {b : Backend ω}
    (hb : ¬ 0 ≤ scoreOf file buffer size fileOffset bufferOffset b) (backends : List (Backend ω)) :
    accepting (backends ++ [b]) file buffer size fileOffset bufferOffset =
      accepting backends file buffer size fileOffset bufferOffset := by
  simp [accepting, hb]

/-- The locals of the loop, after the backend `best` has been found. -/
def selectionOf (file : IFile) (buffer : IBuffer) (size : ℕ) (fileOffset bufferOffset : ℤ)
    (best : Option (Backend ω)) : Selection ω :=
  ⟨(best.map (scoreOf file buffer size fileOffset bufferOffset)).getD (-1), best⟩

/-- **The loop is the scan for a maximum** of the backends that do not refuse. -/
theorem foldl_consider (backends : List (Backend ω)) (file : IFile) (buffer : IBuffer) (size : ℕ)
    (fileOffset bufferOffset : ℤ) :
    backends.foldl (Selection.consider file buffer size fileOffset bufferOffset) ⟨-1, none⟩ =
      selectionOf file buffer size fileOffset bufferOffset
        ((accepting backends file buffer size fileOffset bufferOffset).argmax
          (scoreOf file buffer size fileOffset bufferOffset)) := by
  induction backends using List.reverseRecOn with
  | nil => rfl
  | append_singleton backends b ih =>
    rw [List.foldl_append, ih, List.foldl_cons, List.foldl_nil]
    by_cases hb : 0 ≤ scoreOf file buffer size fileOffset bufferOffset b
    · rw [accepting_concat hb, List.argmax_concat]
      cases hbest : (accepting backends file buffer size fileOffset bufferOffset).argmax
          (scoreOf file buffer size fileOffset bufferOffset) with
      | none => exact if_pos (Int.lt_of_lt_of_le (by decide : (-1 : ℤ) < 0) hb)
      | some best =>
        by_cases hlt : scoreOf file buffer size fileOffset bufferOffset best <
            scoreOf file buffer size fileOffset bufferOffset b
        · simp only [if_pos hlt]
          exact if_pos hlt
        · simp only [if_neg hlt]
          exact if_neg hlt
    · rw [accepting_concat_refused hb]
      -- the best so far has at least -1, and this backend less than 0
      refine if_neg fun hlt => hb ?_
      cases hbest : (accepting backends file buffer size fileOffset bufferOffset).argmax
          (scoreOf file buffer size fileOffset bufferOffset) with
      | none =>
        rw [hbest] at hlt
        exact hlt
      | some best =>
        rw [hbest] at hlt
        exact (mem_accepting.1 (List.argmax_mem hbest)).2.trans hlt.le

/-- **The backend selected**: the first whose score is the maximum of those that are not
negative. -/
theorem selectBackend_eq (backends : List (Backend ω)) (file : IFile) (buffer : IBuffer)
    (size : ℕ) (fileOffset bufferOffset : ℤ) :
    selectBackend backends file buffer size fileOffset bufferOffset =
      (accepting backends file buffer size fileOffset bufferOffset).argmax
        (scoreOf file buffer size fileOffset bufferOffset) := by
  rw [selectBackend, foldl_consider]
  rfl

theorem selectBackend_of_isFirstMax {backends : List (Backend ω)} {b : Backend ω}
    (h : IsFirstMax (scoreOf file buffer size fileOffset bufferOffset) backends b)
    (hb : 0 ≤ scoreOf file buffer size fileOffset bufferOffset b) :
    selectBackend backends file buffer size fileOffset bufferOffset = some b := by
  rw [selectBackend_eq]
  exact mem_argmax_iff_isFirstMax.2 (h.filter (decide_eq_true hb))

theorem selectBackend_of_refused {backends : List (Backend ω)}
    (h : ∀ b ∈ backends, scoreOf file buffer size fileOffset bufferOffset b < 0) :
    selectBackend backends file buffer size fileOffset bufferOffset = none := by
  rw [selectBackend_eq, List.argmax_eq_none, List.eq_nil_iff_forall_not_mem]
  intro b hb
  obtain ⟨hmem, h0⟩ := mem_accepting.1 hb
  exact absurd h0 (not_le.2 (h b hmem))

/-! ## The calls of a request -/

/-- The backends of a list, each recording under its name. -/
def recordedAll (backends : List (ι × Backend ω)) : List (Backend (ω × List (IoCall ι))) :=
  backends.map fun b => b.2.recorded b.1

variable {hip : HipQueries} {s : DriverState} {type : IoType} {fh bufferBase : ℕ}
  {backends backends' : List (ι × Backend ω)} {w : ω} {b : ι × Backend ω}

/-- A first maximum makes the one call. -/
theorem hipFileIo_selected
    (hlookup : (DriverState.getFileAndBuffer hip fh bufferBase s).1 = .ok (file, buffer))
    (h : IsFirstMax (fun b => b.2.score file buffer size fileOffset bufferOffset) backends b)
    (hb : 0 ≤ b.2.score file buffer size fileOffset bufferOffset) :
    hipFileIo hip s type fh bufferBase size fileOffset bufferOffset (recordedAll backends) (w, []) =
      (ioResult (b.2.io type file buffer size fileOffset bufferOffset w).1,
        (b.2.io type file buffer size fileOffset bufferOffset w).2,
        [⟨b.1, type, file, buffer, size, fileOffset, bufferOffset⟩]) := by
  have hselect : selectBackend (recordedAll backends) file buffer size fileOffset bufferOffset =
      some (b.2.recorded b.1) := selectBackend_of_isFirstMax h.map hb
  simp only [hipFileIo, hipFileIoTry, hlookup, hselect]
  rfl

/-- Refused by all, a request makes no call. -/
theorem hipFileIo_refused
    (hlookup : (DriverState.getFileAndBuffer hip fh bufferBase s).1 = .ok (file, buffer))
    (h : ∀ b ∈ backends, b.2.score file buffer size fileOffset bufferOffset < 0) :
    hipFileIo hip s type fh bufferBase size fileOffset bufferOffset (recordedAll backends) (w, []) =
      (⟨-HipFileOpError.internalError.code, none⟩, w, []) := by
  have hselect : selectBackend (recordedAll backends) file buffer size fileOffset bufferOffset =
      none := by
    refine selectBackend_of_refused fun b hb => ?_
    obtain ⟨c, hc, rfl⟩ := List.mem_map.1 hb
    exact h c hc
  have hcatch : hipFileIoCatch (noBackend (recordedAll backends)) =
      ⟨-HipFileOpError.internalError.code, none⟩ := by
    unfold noBackend
    split <;> rfl
  simp only [hipFileIo, hipFileIoTry, hlookup, hselect, ioResult, hcatch]

/-- The order of backends with distinct scores does not matter. -/
theorem hipFileIo_perm
    (hlookup : (DriverState.getFileAndBuffer hip fh bufferBase s).1 = .ok (file, buffer))
    (hperm : backends.Perm backends')
    (hdistinct : ∀ b ∈ backends, ∀ b' ∈ backends,
      0 ≤ b.2.score file buffer size fileOffset bufferOffset →
      b.2.score file buffer size fileOffset bufferOffset =
        b'.2.score file buffer size fileOffset bufferOffset → b = b') :
    hipFileIo hip s type fh bufferBase size fileOffset bufferOffset (recordedAll backends) (w, []) =
      hipFileIo hip s type fh bufferBase size fileOffset bufferOffset (recordedAll backends')
        (w, []) := by
  have hperm' : (recordedAll backends).Perm (recordedAll backends') := hperm.map _
  have hselect : selectBackend (recordedAll backends) file buffer size fileOffset bufferOffset =
      selectBackend (recordedAll backends') file buffer size fileOffset bufferOffset := by
    rw [selectBackend_eq, selectBackend_eq]
    refine argmax_eq_of_perm (hperm'.filter _) fun r hr r' hr' heq => ?_
    obtain ⟨hr, h0⟩ := mem_accepting.1 hr
    obtain ⟨c, hc, rfl⟩ := List.mem_map.1 hr
    obtain ⟨c', hc', rfl⟩ := List.mem_map.1 (mem_accepting.1 hr').1
    rw [hdistinct c hc c' hc' h0 heq]
  have hno : noBackend (recordedAll backends) = noBackend (recordedAll backends') := by
    rw [noBackend, noBackend, hperm'.length_eq]
  simp only [hipFileIo, hipFileIoTry, hlookup, hselect, hno]

/-- **Backend selection is a maximum over the list**: the first backend of the greatest score
makes the one call, unless it refuses; and of distinct scores the order does not matter. -/
theorem selection_maximum (hip : HipQueries) (s : DriverState) (type : IoType)
    (fh bufferBase size : ℕ) (fileOffset bufferOffset : ℤ) (file : IFile) (buffer : IBuffer)
    (hlookup : (DriverState.getFileAndBuffer hip fh bufferBase s).1 = .ok (file, buffer))
    (backends : List (ι × Backend ω)) (w : ω) :
    let score := fun b : ι × Backend ω => b.2.score file buffer size fileOffset bufferOffset
    let run := fun backends => hipFileIo hip s type fh bufferBase size fileOffset bufferOffset
      (recordedAll backends) (w, [])
    ((∃ b, IsFirstMax score backends b ∧ 0 ≤ score b) ∨ ∀ b ∈ backends, score b < 0) ∧
      (∀ b, IsFirstMax score backends b → 0 ≤ score b → run backends =
        (ioResult (b.2.io type file buffer size fileOffset bufferOffset w).1,
          (b.2.io type file buffer size fileOffset bufferOffset w).2,
          [⟨b.1, type, file, buffer, size, fileOffset, bufferOffset⟩])) ∧
      ((∀ b ∈ backends, score b < 0) →
        run backends = (⟨-HipFileOpError.internalError.code, none⟩, w, [])) ∧
      ∀ backends', backends.Perm backends' →
        (∀ b ∈ backends, ∀ b' ∈ backends, 0 ≤ score b → score b = score b' → b = b') →
          run backends' = run backends := by
  intro score run
  refine ⟨?_, fun b h hb => hipFileIo_selected hlookup h hb, hipFileIo_refused hlookup,
    fun backends' hperm hdistinct => (hipFileIo_perm hlookup hperm hdistinct).symm⟩
  by_cases hall : ∀ b ∈ backends, score b < 0
  · exact Or.inr hall
  · refine Or.inl ?_
    obtain ⟨c, hc⟩ := not_forall.1 hall
    obtain ⟨hmem, h0⟩ := Classical.not_imp.1 hc
    obtain ⟨b, hb⟩ := exists_isFirstMax score (List.ne_nil_of_mem hmem)
    exact ⟨b, hb, (not_lt.1 h0).trans (hb.le hmem)⟩

/-- A backend with a fixed score, which transfers `n` bytes. -/
def scored (score : ℤ) (n : ℕ) : Backend Unit where
  score _ _ _ _ _ := score
  io _ _ _ _ _ _ := pure n

/-- A backend that refuses, and two that do not. -/
def threeBackends : List (ℕ × Backend Unit) :=
  [(0, scored (-1) 0), (1, scored 0 8), (2, scored 100 16)]

/-- The last of three has the greatest score. -/
theorem selection_maximum_three :
    hipFileIo oneAllocation oneFile .read 8 0x10000 16 0 0 (recordedAll threeBackends) ((), []) =
      (⟨16, none⟩, (), [⟨2, .read, foundFile, ⟨0x10000, 8192, 0, .device, 0⟩, 16, 0, 0⟩]) :=
  (selection_maximum oneAllocation oneFile .read 8 0x10000 16 0 0 foundFile
    ⟨0x10000, 8192, 0, .device, 0⟩ rfl threeBackends ()).2.1 (2, scored 100 16)
    ⟨[(0, scored (-1) 0), (1, scored 0 8)], [], rfl, by simp [scored], nofun⟩ (by decide)

end HipFile
