import Mathlib.Data.List.Sort

/-!
# Strided loops

The indices that a loop goes through from a start, by a step, up to a bound.

* `mem_strided`: they are those at the step's distance from the start.
* `strided_eq_filter`: from a start below the step, they are those that leave the start as
  their remainder.
* `strided_one`: by steps of one, they are an interval.
-/

namespace Loop

/-- The indices of `for (idx = start; idx < bound; idx += step)`, for a positive step. -/
def strided (step bound start : ℕ) : List ℕ :=
  if start < bound ∧ 0 < step then start :: strided step bound (start + step) else []
  termination_by bound - start

variable {step bound start idx : ℕ}

theorem strided_of_lt (hstep : 0 < step) (h : start < bound) :
    strided step bound start = start :: strided step bound (start + step) := by
  rw [strided, if_pos ⟨h, hstep⟩]

theorem strided_of_le (h : bound ≤ start) : strided step bound start = [] := by
  rw [strided, if_neg (by omega)]

theorem mem_strided (hstep : 0 < step) : idx ∈ strided step bound start ↔
    idx < bound ∧ ∃ k, idx = start + k * step := by
  induction hn : bound - start using Nat.strong_induction_on generalizing start with
  | _ n ih =>
    by_cases hlt : start < bound
    · rw [strided_of_lt hstep hlt, List.mem_cons, ih (bound - (start + step)) (by omega) rfl]
      constructor
      · rintro (rfl | ⟨hidx, k, rfl⟩)
        · exact ⟨hlt, 0, by omega⟩
        · refine ⟨hidx, k + 1, ?_⟩
          rw [Nat.succ_mul, Nat.add_comm (k * step), Nat.add_assoc]
      · rintro ⟨hidx, k, rfl⟩
        cases k with
        | zero => exact Or.inl (by omega)
        | succ k =>
          refine Or.inr ⟨hidx, k, ?_⟩
          rw [Nat.succ_mul, Nat.add_comm (k * step), Nat.add_assoc]
    · rw [strided_of_le (by omega)]
      refine ⟨fun h => absurd h List.not_mem_nil, fun ⟨hidx, k, h⟩ => ?_⟩
      omega

/-- The loop goes up. -/
theorem strided_pairwise (hstep : 0 < step) : (strided step bound start).Pairwise (· < ·) := by
  induction hn : bound - start using Nat.strong_induction_on generalizing start with
  | _ n ih =>
    by_cases hlt : start < bound
    · rw [strided_of_lt hstep hlt, List.pairwise_cons]
      refine ⟨fun idx hidx => ?_, ih (bound - (start + step)) (by omega) rfl⟩
      obtain ⟨-, k, rfl⟩ := (mem_strided hstep).1 hidx
      omega
    · rw [strided_of_le (by omega)]
      exact List.Pairwise.nil

/-- **A stride** takes the indices with one remainder. -/
theorem strided_eq_filter (h : start < step) : strided step bound start =
    (List.range bound).filter fun idx => idx % step = start := by
  refine List.Pairwise.eq_of_mem_iff (strided_pairwise (by omega))
    (List.pairwise_lt_range.filter _) fun idx => ?_
  rw [mem_strided (by omega), List.mem_filter, List.mem_range]
  simp only [decide_eq_true_eq]
  refine and_congr_right fun _ => ⟨?_, fun hmod => ⟨idx / step, ?_⟩⟩
  · rintro ⟨k, rfl⟩
    rw [Nat.add_mul_mod_self_right, Nat.mod_eq_of_lt h]
  · have hdiv := Nat.mod_add_div' idx step
    omega

/-- By steps of one the loop takes all indices. -/
theorem strided_one (start n : ℕ) :
    strided 1 (start + n) start = (List.range n).map (start + ·) := by
  refine List.Pairwise.eq_of_mem_iff (r := (· < ·)) (strided_pairwise Nat.one_pos) ?_ fun idx => ?_
  · rw [List.pairwise_map]
    exact List.pairwise_lt_range.imp fun h => by omega
  · rw [mem_strided Nat.one_pos, List.mem_map]
    simp only [List.mem_range, Nat.mul_one]
    constructor
    · rintro ⟨hlt, k, rfl⟩
      exact ⟨k, by omega, rfl⟩
    · rintro ⟨k, hk, rfl⟩
      exact ⟨by omega, k, rfl⟩

end Loop
