import Mathlib.Logic.Function.Basic
import Mathlib.Data.List.Count
import Mathlib.Data.Nat.Notation

/-!
# Reference counts

The counts of shared objects `κ`, changed by one reference at a time, and what a list
of references does to them.

* `retainAll_apply`: the counts after taking a list of references.
* `releaseAll_retainAll`: dropping the references that were taken undoes the taking.
-/

namespace RefCount

variable {κ : Type*} [DecidableEq κ]

/-- Take a reference to `o`. -/
def retain (counts : κ → ℕ) (o : κ) : κ → ℕ := Function.update counts o (counts o + 1)

/-- Drop a reference to `o`. -/
def release (counts : κ → ℕ) (o : κ) : κ → ℕ := Function.update counts o (counts o - 1)

/-- Take the references of a list, in its order. -/
def retainAll (counts : κ → ℕ) (os : List κ) : κ → ℕ := os.foldl retain counts

/-- Drop the references of a list, in its order. -/
def releaseAll (counts : κ → ℕ) (os : List κ) : κ → ℕ := os.foldl release counts

variable {counts : κ → ℕ} {o o' : κ} {os os' : List κ}

theorem retain_apply (counts : κ → ℕ) (o o' : κ) :
    retain counts o o' = counts o' + [o].count o' := by
  unfold retain
  by_cases h : o' = o
  · subst h; simp
  · rw [Function.update_of_ne h, List.count_singleton]; simp [Ne.symm h]

theorem release_apply (counts : κ → ℕ) (o o' : κ) :
    release counts o o' = counts o' - [o].count o' := by
  unfold release
  by_cases h : o' = o
  · subst h; simp
  · rw [Function.update_of_ne h, List.count_singleton]; simp [Ne.symm h]

/-- **Taking a list of references** adds to each count how often the object is listed. -/
theorem retainAll_apply : ∀ (os : List κ) (counts : κ → ℕ) (o : κ),
    retainAll counts os o = counts o + os.count o := by
  intro os
  induction os with
  | nil => intro counts o; rfl
  | cons a os ih =>
    intro counts o
    have hstep := ih (retain counts a) o
    rw [retain_apply] at hstep
    rw [List.count_cons]
    simp only [List.count_singleton] at hstep
    exact hstep.trans (by omega)

theorem releaseAll_apply : ∀ (os : List κ) (counts : κ → ℕ) (o : κ),
    releaseAll counts os o = counts o - os.count o := by
  intro os
  induction os with
  | nil => intro counts o; rfl
  | cons a os ih =>
    intro counts o
    have hstep := ih (release counts a) o
    rw [release_apply] at hstep
    rw [List.count_cons]
    simp only [List.count_singleton] at hstep
    exact hstep.trans (by omega)

/-- **Dropping what was taken**, in any order, undoes the taking. -/
theorem releaseAll_retainAll (counts : κ → ℕ) (h : os.Perm os') :
    releaseAll (retainAll counts os) os' = counts := by
  funext o
  rw [releaseAll_apply, retainAll_apply, h.count_eq]
  exact Nat.add_sub_cancel _ _

theorem retainAll_append (counts : κ → ℕ) (os os' : List κ) :
    retainAll counts (os ++ os') = retainAll (retainAll counts os) os' :=
  List.foldl_append

/-- **Passing on**: of what is taken after a list of references, nothing is lost when
the first references are dropped. -/
theorem releaseAll_passing (counts : κ → ℕ) (os os' : List κ) :
    releaseAll (retainAll (retainAll counts os) os') os = retainAll counts os' := by
  funext o
  rw [releaseAll_apply, retainAll_apply, retainAll_apply, retainAll_apply]
  omega

end RefCount
