import HipFile.Lib.Machine
import Mathlib.Algebra.BigOperators.Group.Finset.Basic
import Mathlib.Algebra.Order.BigOperators.Group.Finset
import Mathlib.Logic.Function.Iterate

/-!
# Parties that share a state

Each party has a state of its own, and moves on it and on a shared one; a run is any
interleaving of their moves. What a party may rely on of the others is what they guarantee of
each of their moves.

* `Parties.RelyGuarantee.invariant`: the rule for the states of the parties,
  `Parties.RelyGuarantee.shared`: the rule for the shared state, and
  `Parties.RelyGuarantee.also`: the one for both.
* `Parties.Lowers.run_le`: a budget that every move lowers bounds the length of a run, and
  `Parties.Lowers.exists_end`: a run can then be continued to its end.
* `Parties.run_alone`: the run in which one party moves alone.
-/

/-- Parties `ι` with states `τ` that share a state `σ`. A party without a move has ended. -/
structure Parties (ι σ τ : Type*) where
  init : σ
  start : ι → τ
  step : ι → σ → τ → Option (σ × τ)

namespace Parties

variable {ι σ τ : Type*} [DecidableEq ι] (P : Parties ι σ τ)

/-- The interleavings: a label is the party that moves. -/
def machine : Machine (σ × (ι → τ)) ι where
  init := (P.init, P.start)
  step s i := (P.step i s.1 (s.2 i)).map fun r => (r.1, Function.update s.2 i r.2)

variable {P} {s s' : σ × (ι → τ)} {i : ι}

/-- What a move of the machine is. -/
theorem machine_step_cases (h : P.machine.step s i = some s') : ∃ t',
    P.step i s.1 (s.2 i) = some (s'.1, t') ∧ s'.2 = Function.update s.2 i t' := by
  obtain ⟨⟨shared, t'⟩, hr, rfl⟩ := Option.map_eq_some_iff.1 h
  exact ⟨t', hr, rfl⟩

/-! ## Rely and guarantee -/

/-- **Obligations of the parties.** `I i` holds of the shared state and of the state of the party
`i`; the party keeps it by its own moves, as far as these meet `G`, all of which it guarantees
to be among `R i`; and the moves that the others guarantee keep it as well. -/
structure RelyGuarantee (P : Parties ι σ τ) (G : ι → σ → τ → Prop) (I : ι → σ → τ → Prop)
    (R : ι → σ → σ → Prop) : Prop where
  start : ∀ i, I i P.init (P.start i)
  own : ∀ {i s t s' t'}, I i s t → G i s t → P.step i s t = some (s', t') → I i s' t' ∧ R i s s'
  stable : ∀ {i j s t s'}, j ≠ i → I i s t → R j s s' → I i s' t

variable {G : ι → σ → τ → Prop} {I : ι → σ → τ → Prop} {R : ι → σ → σ → Prop}

/-- One move keeps what holds of all parties, and is one that the party guarantees. -/
theorem RelyGuarantee.step (h : RelyGuarantee P G I R) (hI : ∀ i, I i s.1 (s.2 i))
    (hG : G i s.1 (s.2 i)) (hst : P.machine.step s i = some s') :
    (∀ j, I j s'.1 (s'.2 j)) ∧ R i s.1 s'.1 := by
  obtain ⟨t', hown, hs'⟩ := machine_step_cases hst
  obtain ⟨hnew, hR⟩ := h.own (hI i) hG hown
  refine ⟨?_, hR⟩
  intro j
  rw [hs']
  by_cases hj : j = i
  · subst hj
    rwa [Function.update_self]
  · rw [Function.update_of_ne hj]
    exact h.stable (Ne.symm hj) (hI j) hR

/-- **The rule for the parties.** -/
theorem RelyGuarantee.invariant (h : RelyGuarantee P G I R)
    (hs : P.machine.Reaches (fun s i => G i s.1 (s.2 i)) s) : ∀ i, I i s.1 (s.2 i) :=
  hs.invariant (I := fun s => ∀ i, I i s.1 (s.2 i)) h.start
    fun _ _ _ hI hG hst => (h.step hI hG hst).1

/-- **The rule for the whole state**: what the moves keep as long as all parties are as they
should be. -/
theorem RelyGuarantee.also (h : RelyGuarantee P G I R) {J : σ × (ι → τ) → Prop}
    (h0 : J (P.init, P.start))
    (hJ : ∀ i s s', (∀ j, I j s.1 (s.2 j)) → G i s.1 (s.2 i) → J s → P.machine.step s i = some s' →
      J s')
    (hs : P.machine.Reaches (fun s i => G i s.1 (s.2 i)) s) : J s := by
  have hboth : (∀ i, I i s.1 (s.2 i)) ∧ J s := by
    refine hs.invariant (I := fun s => (∀ i, I i s.1 (s.2 i)) ∧ J s) ⟨h.start, h0⟩ ?_
    rintro s i s' ⟨hI, hj⟩ hG hst
    exact ⟨(h.step hI hG hst).1, hJ i s s' hI hG hj hst⟩
  exact hboth.2

/-- **The rule for the shared state**: what all guaranteed moves keep. -/
theorem RelyGuarantee.shared (h : RelyGuarantee P G I R) {J : σ → Prop} (h0 : J P.init)
    (hJ : ∀ i s s', J s → R i s s' → J s')
    (hs : P.machine.Reaches (fun s i => G i s.1 (s.2 i)) s) : J s.1 :=
  h.also (J := fun s => J s.1) h0
    (fun i s s' hI hG hj hst => hJ i s.1 s'.1 hj (h.step hI hG hst).2) hs

/-! ## Budgets -/

/-- The budget of a state: that of the shared state and those of the parties. -/
def budget [Fintype ι] (μ : σ → ℕ) (ν : ι → τ → ℕ) (s : σ × (ι → τ)) : ℕ :=
  μ s.1 + ∑ i, ν i (s.2 i)

/-- Obligations of moves that lower the budget: `I` holds of every party all along, and each move
of a party of which it holds lowers the budget of the party with the shared one. -/
structure Lowers (P : Parties ι σ τ) (I : ι → σ → τ → Prop) (μ : σ → ℕ) (ν : ι → τ → ℕ) : Prop where
  keeps : ∀ {s i s'}, (∀ j, I j s.1 (s.2 j)) → P.machine.step s i = some s' →
    ∀ j, I j s'.1 (s'.2 j)
  lowers : ∀ {i s t s' t'}, I i s t → P.step i s t = some (s', t') → μ s' + ν i t' < μ s + ν i t

variable {μ : σ → ℕ} {ν : ι → τ → ℕ}

theorem RelyGuarantee.toLowers (h : RelyGuarantee P (fun _ _ _ => True) I R)
    (hlowers : ∀ {i s t s' t'}, I i s t → P.step i s t = some (s', t') →
      μ s' + ν i t' < μ s + ν i t) : Lowers P I μ ν :=
  ⟨fun hI hst => (h.step hI trivial hst).1, hlowers⟩

/-- Moves that lower the budget in any case. -/
theorem Lowers.of_step (hlowers : ∀ {i s t s' t'}, P.step i s t = some (s', t') →
    μ s' + ν i t' < μ s + ν i t) : Lowers P (fun _ _ _ => True) μ ν :=
  ⟨fun _ _ _ => trivial, fun _ hst => hlowers hst⟩

section

variable [Fintype ι]

/-- A move lowers the whole budget. -/
theorem Lowers.step (hμ : Lowers P I μ ν) (hI : ∀ j, I j s.1 (s.2 j))
    (h : P.machine.step s i = some s') : budget μ ν s' < budget μ ν s := by
  obtain ⟨t', hown, hs'⟩ := machine_step_cases h
  have hlt := hμ.lowers (hI i) hown
  have hrest : ∑ j ∈ Finset.univ.erase i, ν j (s'.2 j) =
      ∑ j ∈ Finset.univ.erase i, ν j (s.2 j) := by
    refine Finset.sum_congr rfl fun j hj => ?_
    rw [hs', Function.update_of_ne (Finset.ne_of_mem_erase hj)]
  have hself : s'.2 i = t' := by rw [hs', Function.update_self]
  unfold budget
  rw [← Finset.add_sum_erase _ _ (Finset.mem_univ i), ← Finset.add_sum_erase _ _
    (Finset.mem_univ i), hrest, hself]
  omega

/-- **The length of a run** is at most the budget it starts with. -/
theorem Lowers.run_le (hμ : Lowers P I μ ν) :
    ∀ {ls : List ι} {s s' : σ × (ι → τ)}, (∀ j, I j s.1 (s.2 j)) → P.machine.run s ls = some s' →
      ls.length + budget μ ν s' ≤ budget μ ν s := by
  intro ls
  induction ls with
  | nil =>
    intro s s' _ h
    obtain rfl := Option.some.inj h
    simp
  | cons i ls ih =>
    intro s s' hI h
    obtain ⟨s₁, hst, hrun⟩ := Option.bind_eq_some_iff.1 h
    have hfirst := hμ.step hI hst
    have hrest := ih (hμ.keeps hI hst) hrun
    rw [List.length_cons]
    omega

/-- **A run can be continued to its end**, where no party has a move. -/
theorem Lowers.exists_end (hμ : Lowers P I μ ν) :
    ∀ (n : ℕ) (s : σ × (ι → τ)), (∀ j, I j s.1 (s.2 j)) → budget μ ν s ≤ n →
      ∃ ls s', P.machine.run s ls = some s' ∧ ∀ i, P.machine.step s' i = none := by
  intro n s hI hs
  refine P.machine.exists_end (fun ls s' hrun => ?_) [] (Nat.le_add_left n _) rfl
  have := hμ.run_le hI hrun
  omega

end

/-! ## One party alone -/

/-- A run in which one party moves only makes its moves one after another. -/
theorem run_replicate {f : σ × τ → σ × τ}
    (hf : ∀ x y, P.step i x.1 x.2 = some y → y = f x) : ∀ {n : ℕ} {shared : σ} {ts : ι → τ},
    P.machine.run (shared, ts) (List.replicate n i) = some s' →
      s' = ((f^[n] (shared, ts i)).1, Function.update ts i (f^[n] (shared, ts i)).2) := by
  intro n
  induction n with
  | zero =>
    intro shared ts h
    obtain rfl := Option.some.inj h
    simp
  | succ n ih =>
    intro shared ts h
    rw [List.replicate_succ] at h
    obtain ⟨s₁, hst, hrun⟩ := Option.bind_eq_some_iff.1 h
    obtain ⟨t', hown, hs₁⟩ := machine_step_cases hst
    have hmove : (s₁.1, t') = f (shared, ts i) := hf (shared, ts i) _ hown
    have hs' := @ih s₁.1 s₁.2 hrun
    rw [hs', hs₁, Function.update_self, Function.update_idem, hmove, Function.iterate_succ_apply]

/-- **A party that is scheduled alone**: its moves, one after another, as long as it has one. -/
theorem run_alone {f : σ × τ → σ × τ}
    (hf : ∀ x, P.step i x.1 x.2 = some (f x) ∨ P.step i x.1 x.2 = none ∧ f x = x) :
    ∀ (n : ℕ) (shared : σ) (ts : ι → τ), ∃ k ≤ n,
      P.machine.run (shared, ts) (List.replicate k i) =
        some ((f^[n] (shared, ts i)).1, Function.update ts i (f^[n] (shared, ts i)).2) := by
  intro n
  induction n with
  | zero =>
    intro shared ts
    exact ⟨0, Nat.le_refl 0, by simp [Machine.run]⟩
  | succ n ih =>
    intro shared ts
    rcases hf (shared, ts i) with hst | ⟨-, hstay⟩
    · set x := f (shared, ts i) with hx
      obtain ⟨k, hk, hrun⟩ := ih x.1 (Function.update ts i x.2)
      have hfirst : P.machine.step (shared, ts) i = some (x.1, Function.update ts i x.2) := by
        have hst : P.step i shared (ts i) = some x := hst
        simp only [machine, hst, Option.map_some]
      refine ⟨k + 1, by omega, ?_⟩
      rw [List.replicate_succ, Machine.run, hfirst, Option.bind_some, hrun,
        Function.update_self, Function.update_idem, Function.iterate_succ_apply, ← hx]
    · obtain ⟨k, hk, hrun⟩ := ih shared ts
      refine ⟨k, by omega, ?_⟩
      rw [hrun, Function.iterate_succ_apply, hstay]

end Parties
