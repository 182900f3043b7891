import HipFile.Model.Environment

/-!
# Unsigned values of the environment

* `saturatingDecimal`: the digits of a string, saturated; any other string is refused.
* `saturatingDecimal_mono`: a larger number has no smaller value.
* `getUnsignedInt_numeral`: what the code makes of a numeral.
* `getUnsignedInt_iff`: the code gives the saturated digits exactly if what it reads is
  without white space and sign, or out of the range of `unsigned long`, and not both.
-/

namespace HipFile.Environment

open Strtoul

/-- **A saturating decimal.** -/
def saturatingDecimal (s : CString) : Option ℕ :=
  if s ≠ [] ∧ s.all Char.isDigit = true then some (min (Nat.ofDigitChars 10 s 0) UINT_MAX)
  else none

/-- The value of a larger number is not smaller. -/
theorem saturatingDecimal_mono {s s' : CString} {x x' : ℕ} (hs : saturatingDecimal s = some x)
    (hs' : saturatingDecimal s' = some x')
    (hle : Nat.ofDigitChars 10 s 0 ≤ Nat.ofDigitChars 10 s' 0) : x ≤ x' := by
  simp only [saturatingDecimal, Option.ite_none_right_eq_some, Option.some.injEq] at hs hs'
  obtain ⟨-, rfl⟩ := hs
  obtain ⟨-, rfl⟩ := hs'
  exact min_le_min_right _ hle

variable {getenv : CString → Option CString} {key : CString}

/-- **What the code makes of a numeral.** -/
theorem getUnsignedInt_numeral (n : Numeral) (h : getenv key = some n.text) :
    getUnsignedInt getenv key =
      if ULONG_MAX < n.magnitude then none
      else some (min (n.sign.apply n.magnitude) UINT_MAX) := by
  have hlength : n.text.length ≠ 0 := by
    have hdigits := List.length_pos_iff.2 n.nonempty
    simp only [Numeral.text, List.length_append]
    omega
  unfold getUnsignedInt
  simp only [h, strtoul_text]
  by_cases hmax : ULONG_MAX < n.magnitude
  · simp only [if_pos hmax]
    exact if_pos (by decide)
  · simp only [if_neg hmax, ne_eq, not_true_eq_false, if_false, if_neg hlength,
      List.drop_length]
    by_cases hgt : UINT_MAX < n.sign.apply n.magnitude
    · rw [if_pos hgt, min_eq_right hgt.le]
    · rw [if_neg hgt, min_eq_left (not_lt.1 hgt)]

/-- Only of numerals there is a value. -/
theorem getUnsignedInt_some {x : ℕ} (h : getUnsignedInt getenv key = some x) :
    ∃ n : Numeral, getenv key = some n.text := by
  unfold getUnsignedInt at h
  cases hvalue : getenv key with
  | none => rw [hvalue] at h; cases h
  | some value =>
    rw [hvalue] at h
    simp only [Option.ite_none_left_eq_some, ne_eq, not_not] at h
    obtain ⟨-, hend, hwhole, -⟩ := h
    obtain ⟨n, rfl⟩ := exists_numeral hend hwhole
    exact ⟨n, rfl⟩

/-- A numeral is digits only, or has a character that is no digit. -/
theorem all_isDigit_iff (n : Numeral) : n.text.all Char.isDigit = true ↔ n.Plain := by
  rw [List.all_eq_true]
  constructor
  · intro h
    refine ⟨?_, ?_⟩
    · refine List.eq_nil_iff_forall_not_mem.2 fun c hc => ?_
      have hdigit := h c (List.mem_append_left _ hc)
      have hspace := n.isSpace c hc
      rw [isspace_of_isDigit hdigit] at hspace
      cases hspace
    · have hsign : ∀ c ∈ n.sign.text, c.isDigit = true := fun c hc =>
        h c (List.mem_append_right _ (List.mem_append_left _ hc))
      cases hs : n.sign with
      | none => rfl
      | plus => rw [hs] at hsign; exact absurd (hsign '+' List.mem_cons_self) (by decide)
      | minus => rw [hs] at hsign; exact absurd (hsign '-' List.mem_cons_self) (by decide)
  · rintro ⟨hspaces, hsign⟩ c hc
    rw [Numeral.text, hspaces, hsign] at hc
    exact n.isDigit c hc

theorem saturatingDecimal_numeral (n : Numeral) : saturatingDecimal n.text =
    if n.Plain then some (min n.magnitude UINT_MAX) else none := by
  have hne : n.text ≠ [] := by
    simp only [Numeral.text, ne_eq, List.append_eq_nil_iff, n.nonempty, and_false,
      not_false_eq_true]
  unfold saturatingDecimal
  by_cases hplain : n.Plain
  · have htext : n.text = n.digits := by
      rw [Numeral.text, hplain.1, hplain.2]
      rfl
    rw [if_pos ⟨hne, (all_isDigit_iff n).2 hplain⟩, if_pos hplain, htext]
    rfl
  · rw [if_neg fun h => hplain ((all_isDigit_iff n).1 h.2), if_neg hplain]

/-- A string of digits is a numeral. -/
theorem saturatingDecimal_some {s : CString} {x : ℕ} (h : saturatingDecimal s = some x) :
    ∃ n : Numeral, s = n.text := by
  simp only [saturatingDecimal, Option.ite_none_right_eq_some] at h
  obtain ⟨⟨hne, hdigits⟩, -⟩ := h
  exact ⟨.ofDigits s hne (List.all_eq_true.1 hdigits), rfl⟩

/-- **When an unsigned value is a saturating decimal**: white space and a sign are there
exactly where the number is too large for `unsigned long`. -/
theorem getUnsignedInt_iff (getenv : CString → Option CString) (key : CString) :
    getUnsignedInt getenv key = (getenv key).bind saturatingDecimal ↔
      ∀ n : Numeral, getenv key = some n.text → (n.Plain ↔ n.magnitude ≤ ULONG_MAX) := by
  constructor
  · intro heq n hn
    rw [getUnsignedInt_numeral n hn, hn, Option.bind_some, saturatingDecimal_numeral] at heq
    by_cases hmax : ULONG_MAX < n.magnitude <;> by_cases hplain : n.Plain
    · rw [if_pos hmax, if_pos hplain] at heq
      cases heq
    · exact iff_of_false hplain (not_le.2 hmax)
    · exact iff_of_true hplain (not_lt.1 hmax)
    · rw [if_neg hmax, if_neg hplain] at heq
      cases heq
  · intro hall
    by_cases hnum : ∃ n : Numeral, getenv key = some n.text
    · obtain ⟨n, hn⟩ := hnum
      rw [getUnsignedInt_numeral n hn, hn, Option.bind_some, saturatingDecimal_numeral]
      by_cases hmax : ULONG_MAX < n.magnitude
      · rw [if_pos hmax, if_neg fun hplain => not_le.2 hmax ((hall n hn).1 hplain)]
      · have hplain := (hall n hn).2 (not_lt.1 hmax)
        have hvalue : n.sign.apply n.magnitude = n.magnitude := by
          rw [Sign.apply, hplain.2]
          exact if_neg (by decide)
        rw [if_neg hmax, if_pos hplain, hvalue]
    · -- of any other string neither makes a value
      have hcode : getUnsignedInt getenv key = none := by
        refine Option.eq_none_iff_forall_ne_some.2 fun x hx => hnum (getUnsignedInt_some hx)
      have hspec : (getenv key).bind saturatingDecimal = none := by
        refine Option.eq_none_iff_forall_ne_some.2 fun x hx => ?_
        obtain ⟨value, hvalue, hx⟩ := Option.bind_eq_some_iff.1 hx
        obtain ⟨n, rfl⟩ := saturatingDecimal_some hx
        exact hnum ⟨n, hvalue⟩
      rw [hcode, hspec]

/-- The environment in which every variable has this value. -/
def always (value : String) : CString → Option CString := fun _ => some value.toList

/-- `2^64` has no value, although smaller numbers saturate; a negative number has one, and so
has a number after white space. -/
theorem not_saturatingDecimal_outOfRange :
    getUnsignedInt (always "18446744073709551615") [] = some UINT_MAX ∧
      getUnsignedInt (always "18446744073709551616") [] ≠
        (always "18446744073709551616" []).bind saturatingDecimal ∧
      getUnsignedInt (always "-1") [] ≠ (always "-1" []).bind saturatingDecimal ∧
      getUnsignedInt (always " 7") [] ≠ (always " 7" []).bind saturatingDecimal := by
  decide

end HipFile.Environment
