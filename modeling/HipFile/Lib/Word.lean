import Mathlib.Tactic.Common
import Mathlib.Data.Nat.Bitwise

/-!
# Arithmetic on machine words, with a record of it

A calculation gives a value and the list of the additions and subtractions made on the
way; it is exact when none of them has wrapped.

* `exact_bind`: a calculation is exact when its parts are.
* `add_toNat`, `sub_toNat`: the values of exact operations.
-/

/-- An operation on unsigned words of `w` bits. -/
inductive WordOp (w : ℕ)
  | add (a b : BitVec w)
  | sub (a b : BitVec w)

/-- The operation leaves the range of the words. -/
def WordOp.Wraps {w : ℕ} : WordOp w → Prop
  | .add a b => 2 ^ w ≤ a.toNat + b.toNat
  | .sub a b => a.toNat < b.toNat

/-- A value, with the operations made for it. -/
structure Calc (w : ℕ) (α : Type) where
  value : α
  ops : List (WordOp w)

namespace Calc

variable {w : ℕ} {α β : Type}

instance : Monad (Calc w) where
  pure a := ⟨a, []⟩
  bind x f := ⟨(f x.value).value, x.ops ++ (f x.value).ops⟩

/-- Unsigned addition. -/
def add (a b : BitVec w) : Calc w (BitVec w) := ⟨a + b, [.add a b]⟩

/-- Unsigned subtraction. -/
def sub (a b : BitVec w) : Calc w (BitVec w) := ⟨a - b, [.sub a b]⟩

/-- No operation has wrapped. -/
def Exact (x : Calc w α) : Prop := ∀ op ∈ x.ops, ¬ op.Wraps

@[simp] theorem pure_value (a : α) : (pure a : Calc w α).value = a := rfl

@[simp] theorem bind_value (x : Calc w α) (f : α → Calc w β) :
    (x >>= f).value = (f x.value).value := rfl

@[simp] theorem add_value (a b : BitVec w) : (add a b).value = a + b := rfl

@[simp] theorem sub_value (a b : BitVec w) : (sub a b).value = a - b := rfl

@[simp] theorem exact_pure (a : α) : (pure a : Calc w α).Exact := nofun

@[simp] theorem exact_bind (x : Calc w α) (f : α → Calc w β) :
    (x >>= f).Exact ↔ x.Exact ∧ (f x.value).Exact := by
  show (∀ op ∈ x.ops ++ (f x.value).ops, ¬ op.Wraps) ↔ _
  simp only [List.mem_append, or_imp, forall_and]
  rfl

@[simp] theorem exact_add (a b : BitVec w) : (add a b).Exact ↔ a.toNat + b.toNat < 2 ^ w := by
  simp [Exact, add, WordOp.Wraps]

@[simp] theorem exact_sub (a b : BitVec w) : (sub a b).Exact ↔ b.toNat ≤ a.toNat := by
  simp [Exact, sub, WordOp.Wraps]

/-- An exact addition is the addition of the numbers. -/
theorem add_toNat {a b : BitVec w} (h : (add a b).Exact) : (a + b).toNat = a.toNat + b.toNat := by
  rw [exact_add] at h
  rw [BitVec.toNat_add, Nat.mod_eq_of_lt h]

/-- An exact subtraction is the subtraction of the numbers. -/
theorem sub_toNat {a b : BitVec w} (h : (sub a b).Exact) : (a - b).toNat = a.toNat - b.toNat := by
  rw [exact_sub] at h
  exact BitVec.toNat_sub_of_le h

end Calc
