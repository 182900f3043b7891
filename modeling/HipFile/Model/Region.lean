import HipFile.Lib.Word
import HipFile.Model.State

/-!
# The region checks on machine words

`isValidBufferRegion`, the length of a temporary buffer and `paramsValid` as the
hardware computes them, in words of `w` bits, and that with 64 bits their values are
those of the definitions on numbers.
-/

namespace HipFile

/-- A `size_t`, `uintptr_t`, or the bits of an `off_t`. -/
abbrev Word := BitVec 64

/-- The word of a number. -/
def word (n : ℕ) : Word := BitVec.ofNat 64 n

theorem word_toNat {n : ℕ} (h : n < wordModulus) : (word n).toNat = n := by
  unfold word wordModulus at *
  rw [BitVec.toNat_ofNat, Nat.mod_eq_of_lt h]

section

variable {w : ℕ}

/-- `isValidBufferRegion`, after HIP's answer -/
def isValidBufferRegionWords (base rangeSize ptr length : BitVec w) : Calc w Bool := do
  let space ← Calc.sub (BitVec.allOnes w) ptr
  if space < length then return false
  let regionEnd ← Calc.add ptr length
  let rangeEnd ← Calc.add base rangeSize
  if rangeEnd < regionEnd then return false
  return true

/-- The length in `Buffer::Buffer(buffer)`, after HIP's answer -/
def temporaryLengthWords (base rangeSize ptr : BitVec w) : Calc w (BitVec w) := do
  let before ← Calc.sub ptr base
  Calc.sub rangeSize before

/-- `paramsValid` -/
def paramsValidWords (bufferLength size fileOffset bufferOffset : BitVec w) : Calc w Bool := do
  if fileOffset.toInt < 0 then return false
  if bufferOffset.toInt < 0 then return false
  if bufferLength ≤ bufferOffset then return false
  let rest ← Calc.sub bufferLength bufferOffset
  if rest < size then return false
  return true

/-! ## Their values, in numbers -/

theorem isValidBufferRegionWords_value (base rangeSize ptr length : BitVec w) :
    (isValidBufferRegionWords base rangeSize ptr length).value = true ↔
      length.toNat ≤ 2 ^ w - 1 - ptr.toNat ∧
        ptr.toNat + length.toNat ≤ (base.toNat + rangeSize.toNat) % 2 ^ w := by
  have hptr := ptr.isLt
  have hspace : (Calc.sub (BitVec.allOnes w) ptr).Exact := by
    rw [Calc.exact_sub, BitVec.toNat_allOnes]; omega
  unfold isValidBufferRegionWords
  simp only [Calc.bind_value, Calc.sub_value, BitVec.lt_def, Calc.sub_toNat hspace,
    BitVec.toNat_allOnes]
  by_cases hs : 2 ^ w - 1 - ptr.toNat < length.toNat
  · simp only [hs, if_true, Calc.pure_value]
    simp; omega
  · have hend : (Calc.add ptr length).Exact := by rw [Calc.exact_add]; omega
    simp only [hs, if_false, Calc.bind_value, Calc.add_value, Calc.add_toNat hend,
      BitVec.toNat_add]
    by_cases he : (base.toNat + rangeSize.toNat) % 2 ^ w < ptr.toNat + length.toNat
    · simp only [he, if_true, Calc.pure_value]
      simp; omega
    · simp only [he, if_false, Calc.pure_value]
      simp; omega

theorem paramsValidWords_value (length size fileOffset bufferOffset : BitVec w) :
    (paramsValidWords length size fileOffset bufferOffset).value = true ↔
      ¬ fileOffset.toInt < 0 ∧ ¬ bufferOffset.toInt < 0 ∧
        ¬ length.toNat ≤ bufferOffset.toNat ∧
        ¬ length.toNat - bufferOffset.toNat < size.toNat := by
  unfold paramsValidWords
  by_cases hf : fileOffset.toInt < 0
  · simp [hf]
  · by_cases hb : bufferOffset.toInt < 0
    · simp [hf, hb]
    · by_cases hl : length.toNat ≤ bufferOffset.toNat
      · simp [hf, hb, hl, BitVec.le_def]
      · have hrest : (Calc.sub length bufferOffset).Exact := by rw [Calc.exact_sub]; omega
        simp only [hf, hb, hl, BitVec.le_def, if_false, Calc.bind_value, Calc.sub_value,
          BitVec.lt_def, Calc.sub_toNat hrest]
        by_cases hs : length.toNat - bufferOffset.toNat < size.toNat <;> simp [hs]

end

/-! ## The definitions on numbers -/

theorem toSizeT_toInt (x : Word) : toSizeT x.toInt = x.toNat := by
  have hlt := x.isLt
  unfold toSizeT wordModulus
  rw [BitVec.toInt_eq_toNat_cond]
  split <;> omega

/-- What `isValidBufferRegion` returns once HIP has answered. -/
theorem isValidBufferRegion_of_range {hip : HipQueries} {ptr length : ℕ}
    {range : HipMemAddressRange} (h : hip.hipMemGetAddressRange ptr = .ok range) :
    isValidBufferRegion hip ptr length =
      .ok (decide (length ≤ wordModulus - 1 - ptr ∧
        ptr + length ≤ (range.base + range.size) % wordModulus)) := by
  unfold isValidBufferRegion
  rw [h]
  by_cases hs : wordModulus - 1 - ptr < length
  · rw [decide_eq_false (by omega)]
    simp only [hs, if_true]
  · by_cases he : (range.base + range.size) % wordModulus < ptr + length
    · rw [decide_eq_false (by omega)]
      simp only [hs, he, if_true, if_false]
    · rw [decide_eq_true (by omega)]
      simp only [hs, he, if_false]

theorem isValidBufferRegion_words (hip : HipQueries) (base rangeSize ptr length : Word)
    (h : hip.hipMemGetAddressRange ptr.toNat = .ok ⟨base.toNat, rangeSize.toNat⟩) :
    isValidBufferRegion hip ptr.toNat length.toNat =
      .ok (isValidBufferRegionWords base rangeSize ptr length).value := by
  rw [isValidBufferRegion_of_range h, wordModulus]
  have hvalue := isValidBufferRegionWords_value base rangeSize ptr length
  exact congrArg Except.ok (Bool.eq_iff_iff.2 (by rw [hvalue, decide_eq_true_iff]))

theorem paramsValid_words {buffer : IBuffer} {length : Word} (size fileOffset bufferOffset : Word)
    (h : buffer.getLength = length.toNat) :
    paramsValid buffer size.toNat fileOffset.toInt bufferOffset.toInt =
      (paramsValidWords length size fileOffset bufferOffset).value := by
  have hvalue := paramsValidWords_value length size fileOffset bufferOffset
  refine Bool.eq_iff_iff.2 ?_
  rw [hvalue]
  simp only [paramsValid, h, toSizeT_toInt, ite_false_eq_true, and_true]

theorem temporaryLength_words (base rangeSize ptr : Word) :
    toSizeT ((rangeSize.toNat : ℤ) - ((ptr.toNat : ℤ) - base.toNat)) =
      (temporaryLengthWords base rangeSize ptr).value.toNat := by
  have := base.isLt
  have := ptr.isLt
  simp only [temporaryLengthWords, Calc.bind_value, Calc.sub_value, BitVec.toNat_sub]
  unfold toSizeT wordModulus
  omega

end HipFile
