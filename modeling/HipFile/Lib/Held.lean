import Mathlib.Data.List.Basic

/-!
# Resources held

A call acquires a resource, releases one, or uses some; where a call that should release a
resource fails, the resource is lost. `held` runs a list of calls on a stack of resources: it
fails at the first call that uses what is not held, or that gives up what was not the last to be
acquired.

* `held_concat`: one more call.
* `apply_acquire`, `apply_release`, `apply_lose`, `apply_use`: a call that may be made.
-/

/-- What a call does to the resources. -/
inductive Effect (ρ : Type*)
  | acquire (r : ρ) (needs : List ρ)
  | release (r : ρ)
  | lose (r : ρ)
  | use (needs : List ρ)

/-- The resources that are held, the last one to be acquired first, and those that are lost. -/
structure Holdings (ρ : Type*) where
  stack : List ρ
  lost : List ρ
  deriving DecidableEq

namespace Effect

variable {ρ : Type*} [DecidableEq ρ] {h h' : Holdings ρ} {st lost : List ρ} {e : Effect ρ}
  {l : List (Effect ρ)} {r : ρ} {needs : List ρ}

/-- The resources after a call, if the call may be made. -/
def apply (h : Holdings ρ) : Effect ρ → Option (Holdings ρ)
  | .acquire r needs => if needs ⊆ h.stack then some ⟨r :: h.stack, h.lost⟩ else none
  | .release r => if h.stack.head? = some r then some ⟨h.stack.tail, h.lost⟩ else none
  | .lose r => if h.stack.head? = some r then some ⟨h.stack.tail, r :: h.lost⟩ else none
  | .use needs => if needs ⊆ h.stack then some h else none

/-- The resources after calls. -/
def held (h : Holdings ρ) (l : List (Effect ρ)) : Option (Holdings ρ) := l.foldlM apply h

theorem held_concat (hl : held h l = some h') : held h (l ++ [e]) = e.apply h' := by
  unfold held at hl ⊢
  rw [List.foldlM_append, hl, Option.bind_eq_bind, Option.bind_some]
  simp only [List.foldlM_cons, List.foldlM_nil, bind_pure]

theorem apply_acquire (hn : needs ⊆ st) :
    (acquire r needs).apply ⟨st, lost⟩ = some ⟨r :: st, lost⟩ := if_pos hn

theorem apply_release : (release r).apply ⟨r :: st, lost⟩ = some ⟨st, lost⟩ := if_pos rfl

theorem apply_lose : (lose r).apply ⟨r :: st, lost⟩ = some ⟨st, r :: lost⟩ := if_pos rfl

theorem apply_use (hn : needs ⊆ st) : (use needs).apply ⟨st, lost⟩ = some ⟨st, lost⟩ := if_pos hn

end Effect
