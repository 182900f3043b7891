import Mathlib.Tactic.Common

/-!
# What is followed by what in a sequence

`Followed p q l`: after each element of `l` that meets `p` there is one that meets `q`.

* `append_of_mem`: an element that meets `q` follows all before it.
* `append_right`: elements that do not meet `p` may come at the end.
* `not_of_forall`: without any `q` nothing is followed.
-/

/-- After each element that meets `p` there is one that meets `q`. -/
def Followed {α : Type*} (p q : α → Prop) (l : List α) : Prop :=
  ∀ pre e post, l = pre ++ e :: post → p e → ∃ e' ∈ post, q e'

namespace Followed

variable {α : Type*} {p p' q : α → Prop} {l l' : List α}

theorem nil (p q : α → Prop) : Followed p q [] := by
  intro pre e post h
  simp at h

theorem mono (h : Followed p q l) (hp : ∀ e, p' e → p e) : Followed p' q l :=
  fun pre e post hl he => h pre e post hl (hp e he)

/-- **An element that meets `q`** follows all that stand before it. -/
theorem append_of_mem {e : α} (l : List α) (he : q e) (hne : ¬ p e) :
    Followed p q (l ++ [e]) := by
  intro pre e' post h he'
  rcases List.eq_nil_or_concat post with rfl | ⟨post', e₁, rfl⟩
  · -- the element itself does not meet `p`
    obtain ⟨-, heq⟩ := List.append_inj' h rfl
    cases heq
    exact absurd he' hne
  · have hlast : l ++ [e] = (pre ++ e' :: post') ++ [e₁] := by simp [h]
    obtain ⟨-, heq⟩ := List.append_inj' hlast rfl
    cases heq
    exact ⟨e, by simp, he⟩

/-- **Elements that do not meet `p`** may come at the end. -/
theorem append_right (h : Followed p q l) (hl' : ∀ e ∈ l', ¬ p e) : Followed p q (l ++ l') := by
  intro pre e post heq he
  rcases List.append_eq_append_iff.1 heq with ⟨rest, rfl, hrest⟩ | ⟨rest, rfl, hrest⟩
  · have hmem : e ∈ l' := by rw [hrest]; simp
    exact absurd he (hl' e hmem)
  · cases rest with
    | nil =>
      have hmem : e ∈ l' := by
        rw [List.nil_append] at hrest
        rw [← hrest]
        exact List.mem_cons_self
      exact absurd he (hl' e hmem)
    | cons e₁ rest =>
      rw [List.cons_append, List.cons.injEq] at hrest
      obtain ⟨rfl, rfl⟩ := hrest
      obtain ⟨e', he', hq⟩ := h pre e rest rfl he
      exact ⟨e', List.mem_append_left _ he', hq⟩

/-- Without any `q`, an element that meets `p` is not followed. -/
theorem not_of_forall {e : α} (he : e ∈ l) (hp : p e) (hq : ∀ e ∈ l, ¬ q e) : ¬ Followed p q l := by
  intro h
  obtain ⟨pre, post, rfl⟩ := List.append_of_mem he
  obtain ⟨e', he', hqe⟩ := h pre e post rfl hp
  exact hq e' (List.mem_append_right _ (List.mem_cons_of_mem _ he')) hqe

end Followed
