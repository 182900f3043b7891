import Mathlib.Tactic.Common
import Mathlib.Algebra.Group.Int.Defs
import Mathlib.Data.Nat.Notation

/-!
# Signed arithmetic, with a record of it

A calculation gives a value and the exact results of the signed additions made on the way. In
a language where a result out of range is undefined, the value means something only if the
calculation fits.

* `fits_bind`: a calculation fits when its parts do.
* `fits_add`: an addition fits when its result does.
-/

/-- A value, with the exact results of the signed additions made for it. -/
structure Sums (α : Type) where
  value : α
  results : List ℤ

namespace Sums

variable {α β : Type} {w : ℕ}

instance : Monad Sums where
  pure a := ⟨a, []⟩
  bind x f := ⟨(f x.value).value, x.results ++ (f x.value).results⟩

/-- Signed addition. -/
def add (a b : ℤ) : Sums ℤ := ⟨a + b, [a + b]⟩

/-- `i` is a value of the signed type of `w` bits. -/
def InRange (w : ℕ) (i : ℤ) : Prop := -2 ^ (w - 1) ≤ i ∧ i < 2 ^ (w - 1)

/-- No addition has left the signed type of `w` bits. -/
def Fits (w : ℕ) (x : Sums α) : Prop := ∀ r ∈ x.results, InRange w r

@[simp] theorem pure_value (a : α) : (pure a : Sums α).value = a := rfl

@[simp] theorem bind_value (x : Sums α) (f : α → Sums β) :
    (x >>= f).value = (f x.value).value := rfl

@[simp] theorem add_value (a b : ℤ) : (add a b).value = a + b := rfl

@[simp] theorem fits_pure (a : α) : (pure a : Sums α).Fits w := nofun

@[simp] theorem fits_bind (x : Sums α) (f : α → Sums β) :
    (x >>= f).Fits w ↔ x.Fits w ∧ (f x.value).Fits w := by
  show (∀ r ∈ x.results ++ (f x.value).results, InRange w r) ↔ _
  simp only [List.mem_append, or_imp, forall_and]
  rfl

@[simp] theorem fits_add (a b : ℤ) : (add a b).Fits w ↔ InRange w (a + b) := by
  simp [Fits, add]

end Sums
