import HipFile.Lib.Prog

/-!
# Programs that an exception can terminate

A mortal state is a state, or the exception that has terminated the process. What is
`noexcept` terminates the process instead of throwing. A handler around it does not bring the
process back.

* `noexcept_apply`: what a program does that must not throw.
* `forM_noexcept`: such programs one after the other, as at the end of a scope. The first that
  throws terminates.
* `leaveScope_eq`: the end of a scope with a guard, whether it is left normally or by an
  exception.
-/

/-- The state of a process, or the exception that has terminated it. -/
abbrev Mortal (ε σ : Type*) := Except ε σ

/-- The process lives. -/
def Mortal.Lives {ε σ : Type*} (s : Mortal ε σ) : Prop := ∃ s', s = .ok s'

theorem Mortal.lives_ok {ε σ : Type*} (s : σ) : Mortal.Lives (.ok s : Mortal ε σ) := ⟨s, rfl⟩

theorem Mortal.not_lives_error {ε σ : Type*} (e : ε) : ¬ Mortal.Lives (.error e : Mortal ε σ) :=
  fun ⟨_, h⟩ => nomatch h

/-- The results of a list, of which the first failure counts. -/
theorem Except.forM_eq_ok {ε β : Type*} {f : β → Except ε Unit} {bs : List β} :
    forM bs f = .ok () ↔ ∀ b ∈ bs, f b = .ok () := by
  induction bs with
  | nil => exact iff_of_true rfl nofun
  | cons b bs ih =>
    rw [List.forM_cons, List.forall_mem_cons, ← ih]
    cases f b with
    | error e => exact iff_of_false nofun fun h => nomatch h.1
    | ok _ => exact (and_iff_right rfl).symm

namespace Prog

variable {ε σ α : Type*}

/-- A program that the process survives, whether it throws or not. -/
def living (x : Prog ε σ α) : Prog ε (Mortal ε σ) α := fun s =>
  match s with
  | .ok s => ((x s).1, .ok (x s).2)
  | .error e => (.error e, .error e)

/-- A program that must not throw. -/
def noexcept (x : Prog ε σ α) : Prog ε (Mortal ε σ) α := fun s =>
  match s with
  | .ok s =>
    match x s with
    | (.ok a, s') => (.ok a, .ok s')
    | (.error e, _) => (.error e, .error e)
  | .error e => (.error e, .error e)

/-- The end of a scope that is left with `r`, where `release` must not throw. -/
def leaveScope (release : Prog ε σ Unit) (r : Except ε α × Mortal ε σ) :
    Except ε α × Mortal ε σ :=
  match noexcept release r.2 with
  | (.ok _, s) => (r.1, s)
  | (.error e, s) => (.error e, s)

theorem living_ok (x : Prog ε σ α) (s : σ) : living x (.ok s) = ((x s).1, .ok (x s).2) := rfl

/-- **What must not throw** returns, or terminates. -/
theorem noexcept_apply {x : Prog ε σ α} {s s' : σ} {r : Except ε α} (h : x s = (r, s')) :
    noexcept x (.ok s) = (r, r.map fun _ => s') := by
  have heq : noexcept x (.ok s) = match x s with
      | (.ok a, s') => (.ok a, .ok s')
      | (.error e, _) => (.error e, .error e) := rfl
  rw [heq, h]
  cases r <;> rfl

/-- **The end of a scope**: it is left as it would be without the release, if that lets it. -/
theorem leaveScope_eq {release : Prog ε σ Unit} {s s' : σ} {out : Except ε Unit}
    (h : release s = (out, s')) (r : Except ε α) :
    leaveScope release (r, .ok s) = (out.bind fun _ => r, out.map fun _ => s') := by
  unfold leaveScope
  simp only [noexcept_apply h]
  cases out <;> rfl

/-- **Programs that must not throw, one after the other**, each of which does to the state what
`effect` says, and returns or throws as `outcome` says. -/
theorem forM_noexcept {ε σ β : Type} {f : β → Prog ε σ Unit} {outcome : β → Except ε Unit}
    {effect : σ → β → σ} (hf : ∀ b s, f b s = (outcome b, effect s b)) (bs : List β) (s : σ) :
    (forM bs fun b => noexcept (f b)) (.ok s) =
      (forM bs outcome, (forM bs outcome).map fun _ => bs.foldl effect s) := by
  induction bs generalizing s with
  | nil => rfl
  | cons b bs ih =>
    rw [List.forM_cons, List.forM_cons, bind_apply, noexcept_apply (hf b s)]
    cases outcome b with
    | error e => rfl
    | ok _ => exact ih (effect s b)

end Prog
