import Mathlib.Tactic.Common
import Mathlib.Data.Nat.Notation

/-!
# Fields joined by a separator

A list of fields is kept as one list, with a separator between each two of them. The end of a
field is known only from the separator after it, or from the end of the list.

* `intercalate_append`: the joined list, around one of its fields.
* `drop_before`: the joined list from the start of a field runs on past the field's end.
* `append_after_eq_iff`: it is equal to a list without separators only if the field is the last.
-/

namespace Joined

variable {α : Type*} {sep : α}

/-- The fields before a field, each with the separator that ends it. -/
def before (sep : α) (fields : List (List α)) : List α := fields.flatMap (· ++ [sep])

/-- The fields after a field, each with the separator that starts it. -/
def after (sep : α) (fields : List (List α)) : List α := fields.flatMap (sep :: ·)

@[simp] theorem before_nil : before sep [] = [] := rfl
@[simp] theorem after_nil : after sep [] = [] := rfl

@[simp] theorem before_cons (x : List α) (fields : List (List α)) :
    before sep (x :: fields) = x ++ [sep] ++ before sep fields := rfl

@[simp] theorem after_cons (x : List α) (fields : List (List α)) :
    after sep (x :: fields) = sep :: (x ++ after sep fields) := rfl

theorem intercalate_cons (x : List α) (post : List (List α)) :
    [sep].intercalate (x :: post) = x ++ after sep post := by
  induction post generalizing x with
  | nil => rw [List.intercalate_singleton, after_nil, List.append_nil]
  | cons y post ih =>
    rw [List.intercalate_cons_cons, ih y, after_cons, List.append_assoc]
    rfl

/-- **The joined list around a field.** -/
theorem intercalate_append (pre : List (List α)) (x : List α) (post : List (List α)) :
    [sep].intercalate (pre ++ x :: post) = before sep pre ++ (x ++ after sep post) := by
  induction pre with
  | nil => exact intercalate_cons x post
  | cons y pre ih =>
    have hne : pre ++ x :: post ≠ [] := by simp
    rw [List.cons_append, List.intercalate_cons_of_ne_nil hne, ih, before_cons]
    simp only [List.append_assoc]

/-- **The joined list from a place within a field** runs on to the end of all fields. -/
theorem drop_before (pre : List (List α)) (x y : List α) (post : List (List α)) :
    ([sep].intercalate (pre ++ (x ++ y) :: post)).drop ((before sep pre).length + x.length) =
      y ++ after sep post := by
  rw [intercalate_append, List.append_assoc, ← List.append_assoc (before sep pre),
    ← List.length_append, List.drop_left]

/-- What follows a field is empty, or starts with a separator. -/
theorem append_after_eq_iff {x w : List α} {post : List (List α)} (hw : sep ∉ w) :
    x ++ after sep post = w ↔ post = [] ∧ x = w := by
  cases post with
  | nil => simp
  | cons y post =>
    refine ⟨fun h => absurd ?_ hw, fun h => by cases h.1⟩
    rw [← h, after_cons]
    exact List.mem_append_right _ List.mem_cons_self

end Joined
