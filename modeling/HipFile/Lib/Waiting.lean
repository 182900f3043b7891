import Mathlib.Tactic.Common
import Mathlib.Data.Nat.Notation

/-!
# Locks in a fixed order

Parties take locks, give them back in the reverse order, and wait for other things; each lock
and each thing has a level, and a party waits only at a level above those of the locks it holds.

* `exists_moves`: parties that wait for each other at rising levels do not all wait.
* `Disciplined`: a program that keeps the order; `Disciplined.above`: what it waits for next.
* `Scoped`: a part of a program that ends with the locks it has started with; its rules build
  programs from their parts.
-/

namespace Waiting

/-- **Somebody moves** where every party that has to go on either moves itself or waits for one
that does, or that waits at a higher level. -/
theorem exists_moves {π : Type*} {Active Moves : π → Prop} {level : π → ℕ} {bound : ℕ}
    (hbound : ∀ p, level p ≤ bound)
    (hwaits : ∀ p, Active p → Moves p ∨ ∃ q, Active q ∧ (Moves q ∨ level p < level q)) :
    ∀ (n : ℕ) (p : π), Active p → bound - level p ≤ n → ∃ q, Moves q := by
  intro n
  induction n with
  | zero =>
    intro p hp hn
    obtain hmoves | ⟨q, -, hmoves | hlt⟩ := hwaits p hp
    · exact ⟨p, hmoves⟩
    · exact ⟨q, hmoves⟩
    · have hq := hbound q
      omega
  | succ n ih =>
    intro p hp hn
    obtain hmoves | ⟨q, hq, hmoves | hlt⟩ := hwaits p hp
    · exact ⟨p, hmoves⟩
    · exact ⟨q, hmoves⟩
    · have hle := hbound q
      exact ih q hq (by omega)

/-- What an operation means for the order: `jump` is one that goes on elsewhere, with these locks
held. -/
inductive Kind (κ : Type*)
  | acquire (l : κ)
  | release (l : κ)
  | wait (level : ℕ)
  | free
  | jump (held : List κ)

section

variable {κ : Type*} {rank : κ → ℕ} {held : List κ} {k : Kind κ} {ks ks' : List (Kind κ)} {l : κ}

/-- If the operation waits, it does so at a level above `r`. -/
def Kind.Above (rank : κ → ℕ) (r : ℕ) : Kind κ → Prop
  | .acquire l => r < rank l
  | .wait level => r < level
  | _ => True

/-- From these locks, the last one taken first, the program keeps the order and ends with none. -/
def Disciplined (rank : κ → ℕ) : List κ → List (Kind κ) → Prop
  | held, [] => held = []
  | held, .acquire l :: ks => (∀ h ∈ held, rank h < rank l) ∧ Disciplined rank (l :: held) ks
  | held, .release l :: ks => held.head? = some l ∧ Disciplined rank held.tail ks
  | held, .wait level :: ks => (∀ h ∈ held, rank h < level) ∧ Disciplined rank held ks
  | held, .free :: ks => Disciplined rank held ks
  | held, .jump held' :: ks => held = held' ∧ ks = []

/-- **A program that holds a lock goes on**, and if it has to wait, above that lock. -/
theorem Disciplined.above (h : Disciplined rank held ks) (hl : l ∈ held) :
    ∃ k ks', ks = k :: ks' ∧ k.Above rank (rank l) := by
  cases ks with
  | nil =>
    obtain rfl : held = [] := h
    cases hl
  | cons k ks =>
    refine ⟨k, ks, rfl, ?_⟩
    cases k with
    | acquire l' => exact h.1 l hl
    | wait level => exact h.1 l hl
    | release | free | jump => trivial

/-- A part of a program that ends with the locks it has started with. -/
def Scoped (rank : κ → ℕ) (held : List κ) (ks : List (Kind κ)) : Prop :=
  ∀ rest, Disciplined rank held rest → Disciplined rank held (ks ++ rest)

theorem Scoped.nil : Scoped rank held [] := fun _ h => h

theorem Scoped.append (h : Scoped rank held ks) (h' : Scoped rank held ks') :
    Scoped rank held (ks ++ ks') := by
  intro rest hrest
  rw [List.append_assoc]
  exact h _ (h' _ hrest)

theorem Scoped.free (h : Scoped rank held ks) : Scoped rank held (.free :: ks) :=
  fun rest hrest => h rest hrest

theorem Scoped.wait {level : ℕ} (hlevel : ∀ h ∈ held, rank h < level) (h : Scoped rank held ks) :
    Scoped rank held (.wait level :: ks) := fun rest hrest => ⟨hlevel, h rest hrest⟩

/-- **A lock around a part.** -/
theorem Scoped.lock (hl : ∀ h ∈ held, rank h < rank l) (h : Scoped rank (l :: held) ks)
    (h' : Scoped rank held ks') :
    Scoped rank held (.acquire l :: (ks ++ .release l :: ks')) := by
  intro rest hrest
  refine ⟨hl, ?_⟩
  rw [List.append_eq, List.append_assoc]
  exact h _ ⟨rfl, h' rest hrest⟩

/-- A program of scoped parts. -/
theorem Scoped.disciplined (h : Scoped rank [] ks) : Disciplined rank [] ks := by
  have hks := h [] rfl
  rwa [List.append_nil] at hks

end

end Waiting
