import Mathlib.Tactic.Common
import Mathlib.Data.Nat.Notation

/-!
# Loops with a budget of rounds

A loop body takes a state either to the next state or to the result the loop
leaves with. `iter body n s` runs at most `n` rounds from `s`, so that a loop
that never leaves is a loop that is still running for every `n`.

* `goesOn`, `leaves`: how the two ways a round ends meet a postcondition.
* `iter_inv`: what every round preserves holds after any number of rounds, and
  what the last round gives holds of the result.
* `iter_mono`: a result, once reached, is the result for every larger budget.
* `iter_returns`: a measure that every round lowers bounds the rounds needed.
* `total`: the total-correctness rule, from the last three.
* `iter_inr_iff`: where the number of a round decides whether it leaves, the loop has left
  once there was a round that does.
-/

namespace Loop

variable {σ ρ : Type*} {body : σ → σ ⊕ ρ}

/-- At most `n` rounds of `body` from `s`: the state then, or the result. -/
def iter (body : σ → σ ⊕ ρ) : ℕ → σ → σ ⊕ ρ
  | 0, s => .inl s
  | n + 1, s =>
    match body s with
    | .inl s' => iter body n s'
    | .inr r => .inr r

@[simp] theorem iter_zero (s : σ) : iter body 0 s = .inl s := rfl

theorem iter_succ_inl {n : ℕ} {s s' : σ} (h : body s = .inl s') :
    iter body (n + 1) s = iter body n s' := by simp [iter, h]

theorem iter_succ_inr {n : ℕ} {s : σ} {r : ρ} (h : body s = .inr r) :
    iter body (n + 1) s = .inr r := by simp [iter, h]

/-- What holds after a round that goes on. -/
theorem goesOn {P : σ → Prop} {Q : ρ → Prop} {s : σ} (h : P s) :
    (∀ s', (Sum.inl s : σ ⊕ ρ) = .inl s' → P s') ∧ ∀ r, (Sum.inl s : σ ⊕ ρ) = .inr r → Q r := by
  refine ⟨fun s' hs => ?_, fun r hr => by simp at hr⟩
  obtain rfl := Sum.inl.inj hs
  exact h

/-- What holds after a round that leaves. -/
theorem leaves {P : σ → Prop} {Q : ρ → Prop} {r : ρ} (h : Q r) :
    (∀ s, (Sum.inr r : σ ⊕ ρ) = .inl s → P s) ∧ ∀ r', (Sum.inr r : σ ⊕ ρ) = .inr r' → Q r' := by
  refine ⟨fun s hs => by simp at hs, fun r' hr => ?_⟩
  obtain rfl := Sum.inr.inj hr
  exact h

/-- **The invariant rule.** -/
theorem iter_inv {I : σ → Prop} {Q : ρ → Prop} (hstep : ∀ s s', I s → body s = .inl s' → I s')
    (hexit : ∀ s r, I s → body s = .inr r → Q r) :
    ∀ n s, I s → (∀ s', iter body n s = .inl s' → I s') ∧ ∀ r, iter body n s = .inr r → Q r := by
  intro n
  induction n with
  | zero =>
    intro s hs
    exact goesOn hs
  | succ n ih =>
    intro s hs
    cases hb : body s with
    | inl s₁ => rw [iter_succ_inl hb]; exact ih s₁ (hstep s s₁ hs hb)
    | inr r₁ =>
      rw [iter_succ_inr hb]
      exact leaves (hexit s r₁ hs hb)

/-- The invariant rule, for a round that is described as a whole. -/
theorem iter_elim {I : σ → Prop} {Q : ρ → Prop} (hbody : ∀ s, I s → (body s).elim I Q) (n : ℕ)
    {s : σ} (hs : I s) : (iter body n s).elim I Q := by
  have hgo : ∀ s s', I s → body s = .inl s' → I s' := by
    intro s s' h hb
    have hs := hbody s h
    rwa [hb] at hs
  have hleave : ∀ s r, I s → body s = .inr r → Q r := by
    intro s r h hb
    have hs := hbody s h
    rwa [hb] at hs
  obtain ⟨hgo, hleave⟩ := iter_inv hgo hleave n s hs
  cases hiter : iter body n s with
  | inl s' => exact hgo s' hiter
  | inr r => exact hleave r hiter

/-- **A result does not depend on the budget.** -/
theorem iter_mono {r : ρ} : ∀ {n m : ℕ} {s : σ}, n ≤ m → iter body n s = .inr r →
    iter body m s = .inr r := by
  intro n
  induction n with
  | zero => intro m s _ h; simp at h
  | succ n ih =>
    intro m s hnm h
    obtain ⟨m, rfl⟩ : ∃ m', m = m' + 1 := ⟨m - 1, by omega⟩
    cases hb : body s with
    | inl s₁ =>
      rw [iter_succ_inl hb] at h ⊢
      exact ih (by omega) h
    | inr r₁ =>
      rw [iter_succ_inr hb] at h ⊢
      exact h

/-- **Termination.** A measure lowered by every round that does not leave bounds
the number of rounds. -/
theorem iter_returns {I : σ → Prop} (μ : σ → ℕ) (hstep : ∀ s s', I s → body s = .inl s' → I s')
    (hμ : ∀ s s', I s → body s = .inl s' → μ s' < μ s) :
    ∀ n s, I s → μ s ≤ n → ∃ r, iter body (n + 1) s = .inr r := by
  intro n
  induction n with
  | zero =>
    intro s hs hn
    cases hb : body s with
    | inl s₁ => have := hμ s s₁ hs hb; omega
    | inr r => exact ⟨r, iter_succ_inr hb⟩
  | succ n ih =>
    intro s hs hn
    cases hb : body s with
    | inl s₁ =>
      rw [iter_succ_inl hb]
      exact ih s₁ (hstep s s₁ hs hb) (by have := hμ s s₁ hs hb; omega)
    | inr r => exact ⟨r, iter_succ_inr hb⟩

/-- **Total correctness**: an invariant and a measure give a result that every
large enough budget reaches and that satisfies the exit condition. -/
theorem total {I : σ → Prop} {Q : ρ → Prop} (μ : σ → ℕ)
    (hstep : ∀ s s', I s → body s = .inl s' → I s' ∧ μ s' < μ s)
    (hexit : ∀ s r, I s → body s = .inr r → Q r) {s : σ} (hs : I s) :
    ∃ r, Q r ∧ ∀ n, μ s < n → iter body n s = .inr r := by
  have hI : ∀ s s', I s → body s = .inl s' → I s' := fun s s' h hb => (hstep s s' h hb).1
  have hμ : ∀ s s', I s → body s = .inl s' → μ s' < μ s := fun s s' h hb => (hstep s s' h hb).2
  obtain ⟨r, hr⟩ := iter_returns μ hI hμ (μ s) s hs (Nat.le_refl _)
  exact ⟨r, (iter_inv hI hexit _ s hs).2 r hr, fun n hn => iter_mono hn hr⟩

/-- **A loop with numbered rounds**: it has left after `n` rounds exactly if one of them is
a round that leaves. -/
theorem iter_inr_iff (number : σ → ℕ) (Leaves : ℕ → Prop)
    (hgo : ∀ s, ¬ Leaves (number s) → ∃ s', body s = .inl s' ∧ number s' = number s + 1)
    (hleave : ∀ s, Leaves (number s) → ∃ r, body s = .inr r) :
    ∀ n s, (∃ r, iter body n s = .inr r) ↔ ∃ k < n, Leaves (number s + k) := by
  intro n
  induction n with
  | zero =>
    intro s
    simp
  | succ n ih =>
    intro s
    by_cases hs : Leaves (number s)
    · obtain ⟨r, hr⟩ := hleave s hs
      exact iff_of_true ⟨r, iter_succ_inr hr⟩ ⟨0, Nat.succ_pos n, hs⟩
    · obtain ⟨s', hs', hnumber⟩ := hgo s hs
      rw [iter_succ_inl hs', ih s', hnumber]
      constructor
      · rintro ⟨k, hk, hl⟩
        exact ⟨k + 1, by omega, by rwa [← Nat.add_assoc, Nat.add_right_comm]⟩
      · rintro ⟨k, hk, hl⟩
        cases k with
        | zero => exact absurd hl hs
        | succ k => exact ⟨k, by omega, by rwa [Nat.add_right_comm, Nat.add_assoc]⟩

end Loop
