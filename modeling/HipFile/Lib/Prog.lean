import Mathlib.Tactic.Common

/-!
# Programs with state and exceptions

A program takes a state to a result or an exception, and to the state it leaves;
a thrown exception does not undo the state changes made before it.

* `bind_ok`, `bind_error`: a sequence, by how its first part ends; `bind_eq_ok`: its parts, if it
  returns.
* `Within`: what a program may change and throw, and that a sequence stays within it.
* `catching_ok`, `catching_error`: a handler, by how the guarded part ends.
-/

/-- A check that throws has passed if the whole returns. -/
theorem ite_error_eq_ok {ε α : Type*} {c : Prop} [Decidable c] {e : ε} {x : Except ε α} {a : α} :
    (if c then .error e else x) = .ok a ↔ ¬ c ∧ x = .ok a := by
  by_cases hc : c <;> simp [hc]

/-- A check that refuses has passed if the whole accepts. -/
theorem ite_false_eq_true {c : Prop} [Decidable c] {b : Bool} :
    (if c then false else b) = true ↔ ¬ c ∧ b = true := by
  by_cases hc : c <;> simp [hc]

/-- A program on states `σ` that returns `α` or throws `ε`. -/
def Prog (ε σ α : Type*) := σ → Except ε α × σ

namespace Prog

variable {ε σ α β : Type*}

/-- Throw an exception. -/
def throw (e : ε) : Prog ε σ α := fun s => (.error e, s)

/-- A change of the state. -/
def update (f : σ → σ) : Prog ε σ Unit := fun s => (.ok (), f s)

/-- Run `x`; if it throws, run the handler in the state that `x` left. -/
def catching (x : Prog ε σ α) (handler : ε → Prog ε σ α) : Prog ε σ α := fun s =>
  match x s with
  | (.ok a, s') => (.ok a, s')
  | (.error e, s') => handler e s'

/-- A program on a component of the state. -/
def zoom {τ : Type*} (get : σ → τ) (set : τ → σ → σ) (x : Prog ε τ α) : Prog ε σ α := fun s =>
  ((x (get s)).1, set (x (get s)).2 s)

instance {ε σ : Type*} : Monad (Prog ε σ) where
  pure a := fun s => (.ok a, s)
  bind x f := fun s =>
    match x s with
    | (.ok a, s') => f a s'
    | (.error e, s') => (.error e, s')

section

variable {ε σ : Type u} {α β : Type v} {x : Prog ε σ α} {f : α → Prog ε σ β} {s s' : σ}

@[simp] theorem pure_apply (a : α) (s : σ) : (pure a : Prog ε σ α) s = (.ok a, s) := rfl

@[simp] theorem throw_apply (e : ε) (s : σ) : (throw e : Prog ε σ α) s = (.error e, s) := rfl

@[simp] theorem update_apply (g : σ → σ) (s : σ) :
    (update g : Prog ε σ Unit) s = (.ok (), g s) := rfl

theorem bind_apply (x : Prog ε σ α) (f : α → Prog ε σ β) (s : σ) : (x >>= f) s =
    match x s with
    | (.ok a, s') => f a s'
    | (.error e, s') => (.error e, s') := rfl

theorem bind_ok {a : α} (h : x s = (.ok a, s')) : (x >>= f) s = f a s' := by
  rw [bind_apply, h]

theorem bind_error {e : ε} (h : x s = (.error e, s')) : (x >>= f) s = (.error e, s') := by
  rw [bind_apply, h]

/-- A sequence that returns has gone through both of its parts. -/
theorem bind_eq_ok {b : β} (h : (x >>= f) s = (.ok b, s')) :
    ∃ a s₁, x s = (.ok a, s₁) ∧ f a s₁ = (.ok b, s') := by
  rw [bind_apply] at h
  split at h
  · rename_i a s₁ heq
    exact ⟨a, s₁, heq, h⟩
  · cases h

/-- Returning nothing after a program that returns nothing changes nothing. -/
theorem bind_pure_unit (x : Prog ε σ PUnit) : (x >>= fun _ => pure ()) = x := by
  funext s
  rw [bind_apply]
  rcases x s with ⟨_ | _, s'⟩ <;> rfl

theorem catching_ok {handler : ε → Prog ε σ α} {a : α} (h : x s = (.ok a, s')) :
    catching x handler s = (.ok a, s') := by
  unfold catching; rw [h]

theorem catching_error {handler : ε → Prog ε σ α} {e : ε} (h : x s = (.error e, s')) :
    catching x handler s = handler e s' := by
  unfold catching; rw [h]

/-- From any state the program makes a change that `R` allows, and throws what `E` allows. -/
def Within (R : σ → σ → Prop) (E : ε → Prop) (x : Prog ε σ α) : Prop :=
  ∀ s, R s (x s).2 ∧ ∀ e, (x s).1 = .error e → E e

variable {R : σ → σ → Prop} {E : ε → Prop}

theorem within_pure (hrefl : ∀ s, R s s) (a : α) : Within R E (pure a : Prog ε σ α) :=
  fun s => ⟨hrefl s, fun _ => nofun⟩

theorem Within.bind (htrans : ∀ s₁ s₂ s₃, R s₁ s₂ → R s₂ s₃ → R s₁ s₃) (hx : Within R E x)
    (hf : ∀ a, Within R E (f a)) : Within R E (x >>= f) := by
  intro s
  have hs := hx s
  rw [bind_apply]
  split
  · rename_i a s₁ heq
    rw [heq] at hs
    have hs₁ := hf a s₁
    exact ⟨htrans _ _ _ hs.1 hs₁.1, hs₁.2⟩
  · rename_i e s₁ heq
    rw [heq] at hs
    refine ⟨hs.1, ?_⟩
    rintro _ ⟨⟩
    exact hs.2 e rfl

end

end Prog
