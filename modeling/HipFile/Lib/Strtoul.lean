import Mathlib.Algebra.Group.Nat.Defs
import Mathlib.Tactic.Common
import Mathlib.Data.Int.Notation
import Mathlib.Data.List.TakeWhile

/-!
# Decimal numerals as C reads them

`strtoul` is the C function in base 10, in the "C" locale and with a 64-bit
`unsigned long`: it skips white space, accepts a sign, reads digits as far as there
are any, and negates modulo `2^64` after a minus.

* `Numeral`: white space, a sign and digits.
* `strtoul_text`: what is read of a numeral.
* `exists_numeral`: a string that is read to its end is a numeral.
-/

namespace Strtoul

/-- `isspace` -/
def isspace (c : Char) : Bool := c.toNat == 32 || (9 ≤ c.toNat && c.toNat ≤ 13)

/-- `ULONG_MAX` -/
def ULONG_MAX : ℕ := 2 ^ 64 - 1

def ERANGE : ℤ := 34

/-- The sign of a numeral. -/
inductive Sign
  | none | plus | minus
  deriving DecidableEq, Repr

def Sign.text : Sign → List Char
  | .none => []
  | .plus => ['+']
  | .minus => ['-']

/-- The sign at the start of a string. -/
def signOf : List Char → Sign
  | '+' :: _ => .plus
  | '-' :: _ => .minus
  | _ => .none

/-- The value of a magnitude that is in range, as an `unsigned long`. -/
def Sign.apply (sign : Sign) (magnitude : ℕ) : ℕ :=
  if sign = .minus then (ULONG_MAX + 1 - magnitude) % (ULONG_MAX + 1) else magnitude

/-- What `strtoul` returns, the place that it sets `*endptr` to, and `errno` afterwards. -/
structure Result where
  value : ℕ
  endptr : ℕ
  errno : ℤ
  deriving DecidableEq, Repr

/-- `strtoul(nptr, &endptr, 10)`, called with `errno` as it is. -/
def strtoul (nptr : List Char) (errno : ℤ) : Result :=
  let spaces := nptr.takeWhile isspace
  let rest := nptr.dropWhile isspace
  let sign := signOf rest
  let digits := (rest.drop sign.text.length).takeWhile Char.isDigit
  -- without digits there is no conversion
  if digits = [] then ⟨0, 0, errno⟩
  else
    let magnitude := Nat.ofDigitChars 10 digits 0
    let endptr := spaces.length + sign.text.length + digits.length
    if ULONG_MAX < magnitude then ⟨ULONG_MAX, endptr, ERANGE⟩
    else ⟨sign.apply magnitude, endptr, errno⟩

/-- White space, a sign and digits. -/
structure Numeral where
  spaces : List Char
  sign : Sign
  digits : List Char
  isSpace : ∀ c ∈ spaces, isspace c = true
  isDigit : ∀ c ∈ digits, c.isDigit = true
  nonempty : digits ≠ []

namespace Numeral

def text (n : Numeral) : List Char := n.spaces ++ (n.sign.text ++ n.digits)

/-- The number that the digits denote. -/
def magnitude (n : Numeral) : ℕ := Nat.ofDigitChars 10 n.digits 0

/-- Digits only. -/
def Plain (n : Numeral) : Prop := n.spaces = [] ∧ n.sign = .none

instance (n : Numeral) : Decidable n.Plain := inferInstanceAs (Decidable (_ ∧ _))

/-- The numeral that is its digits. -/
def ofDigits (digits : List Char) (hne : digits ≠ []) (h : ∀ c ∈ digits, c.isDigit = true) :
    Numeral := ⟨[], .none, digits, nofun, h, hne⟩

end Numeral

/-! ## What is read -/

theorem isspace_of_isDigit {c : Char} (h : c.isDigit = true) : isspace c = false := by
  simp only [Char.isDigit, Bool.and_eq_true, decide_eq_true_eq, ge_iff_le, UInt32.le_iff_toNat_le]
    at h
  have hlow : 48 ≤ c.toNat := h.1
  simp only [isspace, Bool.or_eq_false_iff, Bool.and_eq_false_iff, beq_eq_false_iff_ne,
    decide_eq_false_iff_not]
  omega

theorem signOf_of_isDigit {c : Char} (h : c.isDigit = true) (cs : List Char) :
    signOf (c :: cs) = .none := by
  have hplus : c ≠ '+' := by rintro rfl; simp at h
  have hminus : c ≠ '-' := by rintro rfl; simp at h
  unfold signOf
  split
  · rename_i heq; exact absurd (List.cons.inj heq).1 hplus
  · rename_i heq; exact absurd (List.cons.inj heq).1 hminus
  · rfl

/-- The sign of a numeral without white space is what stands before its digits. -/
theorem signOf_text (sign : Sign) {digits : List Char} (hne : digits ≠ [])
    (hdigits : ∀ c ∈ digits, c.isDigit = true) : signOf (sign.text ++ digits) = sign := by
  cases sign with
  | plus => rfl
  | minus => rfl
  | none =>
    cases digits with
    | nil => exact absurd rfl hne
    | cons c cs => exact signOf_of_isDigit (hdigits c List.mem_cons_self) cs

/-- Neither a sign nor a digit is white space. -/
theorem dropWhile_text (sign : Sign) {digits : List Char} (hne : digits ≠ [])
    (hdigits : ∀ c ∈ digits, c.isDigit = true) :
    (sign.text ++ digits).takeWhile isspace = [] ∧
      (sign.text ++ digits).dropWhile isspace = sign.text ++ digits := by
  cases sign with
  | plus => exact ⟨rfl, rfl⟩
  | minus => exact ⟨rfl, rfl⟩
  | none =>
    cases digits with
    | nil => exact absurd rfl hne
    | cons c cs =>
      have hc := isspace_of_isDigit (hdigits c List.mem_cons_self)
      simp [Sign.text, hc]

/-- **A numeral is read to its end.** -/
theorem strtoul_text (n : Numeral) (errno : ℤ) : strtoul n.text errno =
    if ULONG_MAX < n.magnitude then ⟨ULONG_MAX, n.text.length, ERANGE⟩
    else ⟨n.sign.apply n.magnitude, n.text.length, errno⟩ := by
  obtain ⟨htake, hdrop⟩ := dropWhile_text n.sign n.nonempty n.isDigit
  have hspaces : n.text.takeWhile isspace = n.spaces := by
    rw [Numeral.text, List.takeWhile_append_of_pos n.isSpace, htake, List.append_nil]
  have hrest : n.text.dropWhile isspace = n.sign.text ++ n.digits := by
    rw [Numeral.text, List.dropWhile_append_of_pos n.isSpace, hdrop]
  have hsign := signOf_text n.sign n.nonempty n.isDigit
  have hdigits : n.digits.takeWhile Char.isDigit = n.digits :=
    List.takeWhile_eq_self_iff.2 n.isDigit
  have hlength : n.text.length = n.spaces.length + n.sign.text.length + n.digits.length := by
    rw [Numeral.text, List.length_append, List.length_append, Nat.add_assoc]
  simp only [strtoul, hspaces, hrest, hsign, List.drop_left, hdigits]
  rw [if_neg n.nonempty, hlength]
  rfl

theorem signOf_append (cs : List Char) :
    cs = (signOf cs).text ++ cs.drop (signOf cs).text.length := by
  unfold signOf
  split <;> rfl

/-- **What is read to its end is a numeral.** -/
theorem exists_numeral {s : List Char} {errno : ℤ} (hend : (strtoul s errno).endptr ≠ 0)
    (hwhole : s.drop (strtoul s errno).endptr = []) : ∃ n : Numeral, s = n.text := by
  set spaces := s.takeWhile isspace with hspaces
  set rest := s.dropWhile isspace with hrest
  set sign := signOf rest with hsign
  set tail := rest.drop sign.text.length with htail
  set digits := tail.takeWhile Char.isDigit with hdigits
  have hne : digits ≠ [] := by
    intro hnil
    apply hend
    simp only [strtoul, ← hrest, ← hsign, ← htail, ← hdigits, hnil, if_true]
  have hendptr : (strtoul s errno).endptr =
      spaces.length + sign.text.length + digits.length := by
    simp only [strtoul, ← hspaces, ← hrest, ← hsign, ← htail, ← hdigits, if_neg hne]
    split <;> rfl
  have hsplit : s = spaces ++ (sign.text ++ (digits ++ tail.dropWhile Char.isDigit)) := by
    rw [hdigits, List.takeWhile_append_dropWhile, htail, hsign, ← signOf_append, hspaces, hrest,
      List.takeWhile_append_dropWhile]
  have hnil : tail.dropWhile Char.isDigit = [] := by
    have hlen := List.drop_eq_nil_iff.1 hwhole
    rw [hendptr] at hlen
    have hs := congrArg List.length hsplit
    simp only [List.length_append] at hs
    exact List.length_eq_zero_iff.1 (by omega)
  rw [hnil, List.append_nil] at hsplit
  have hspace : ∀ c ∈ spaces, isspace c = true := fun c hc => List.mem_takeWhile_imp hc
  have hdigit : ∀ c ∈ digits, c.isDigit = true := fun c hc => List.mem_takeWhile_imp hc
  exact ⟨⟨spaces, sign, digits, hspace, hdigit, hne⟩, hsplit⟩

end Strtoul
