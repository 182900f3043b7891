import HipFile.Lib.Parties

/-!
# Parties that do not see each other

`Parties.Separate` is for parties that share a state of which each sees a part: what a party does
depends on its part only, and no move of another changes that part. The order in which such
parties move does not show.

* `Parties.alone`: the moves of one party by itself.
* `Parties.Separate.run_alone`: in a run each party makes the moves that it makes alone.
* `Parties.Separate.run_unique`: runs that have come to an end agree.
* `Parties.Separate.count_le`, `Parties.Separate.length_le`: how long a run can be.
-/

namespace Parties

variable {ι σ τ : Type*}

/-! ## One party by itself -/

/-- `n` moves of the party `i`. -/
def alone (P : Parties ι σ τ) (i : ι) : ℕ → σ × τ → Option (σ × τ)
  | 0, x => some x
  | n + 1, x => (P.step i x.1 x.2).bind (P.alone i n)

variable {P : Parties ι σ τ} {i : ι} {n m : ℕ} {x y z : σ × τ}

/-- Moves, and then more moves. -/
theorem alone_add : ∀ (n : ℕ) (x : σ × τ), P.alone i (n + m) x = (P.alone i n x).bind (P.alone i m)
    := by
  intro n
  induction n with
  | zero =>
    intro x
    rw [Nat.zero_add]
    rfl
  | succ n ih =>
    intro x
    rw [Nat.succ_add, alone, alone, Option.bind_assoc]
    congr 1
    funext y
    exact ih y

theorem alone_trans (h : P.alone i n x = some y) (h' : P.alone i m y = some z) :
    P.alone i (n + m) x = some z := by
  rw [alone_add, h]
  exact h'

theorem alone_one (h : P.step i x.1 x.2 = some y) : P.alone i 1 x = some y := by
  rw [alone, h]
  rfl

/-- A party that has ended has made all of its moves. -/
theorem alone_le (h : P.alone i n x = some y) (hy : P.step i y.1 y.2 = none)
    (h' : P.alone i m x = some z) : m ≤ n := by
  by_contra hlt
  obtain ⟨k, rfl⟩ := Nat.exists_eq_add_of_lt (Nat.lt_of_not_le hlt)
  rw [Nat.add_assoc, alone_add, h, Option.bind_some, alone, hy] at h'
  cases h'

/-- **The end of a party by itself** is the only one. -/
theorem alone_unique (h : P.alone i n x = some y) (hy : P.step i y.1 y.2 = none)
    (h' : P.alone i m x = some z) (hz : P.step i z.1 z.2 = none) : n = m ∧ y = z := by
  have hle := alone_le h hy h'
  have hle' := alone_le h' hz h
  have hnm : n = m := by omega
  subst hnm
  exact ⟨rfl, Option.some.inj (h.symm.trans h')⟩

variable [DecidableEq ι]

/-- A party moves, and the others do not. -/
theorem run_of_alone : ∀ {n : ℕ} {shared : σ} {ts : ι → τ},
    P.alone i n (shared, ts i) = some y →
      P.machine.run (shared, ts) (List.replicate n i) = some (y.1, Function.update ts i y.2) := by
  intro n
  induction n with
  | zero =>
    intro shared ts h
    obtain rfl := Option.some.inj h
    rw [Function.update_eq_self]
    rfl
  | succ n ih =>
    intro shared ts h
    obtain ⟨⟨u, t⟩, hst, hrest⟩ := Option.bind_eq_some_iff.1 h
    have hown : P.machine.step (shared, ts) i = some (u, Function.update ts i t) := by
      simp only [machine, hst, Option.map_some]
    rw [List.replicate_succ, Machine.run, hown, Option.bind_some, ih, Function.update_idem]
    rw [Function.update_self]
    exact hrest

/-! ## Separate parties -/

/-- **Parties that do not see each other.** `I i` is kept by the moves of the party `i`, and where
it holds they depend only on what `V i` compares, which no other party changes. -/
structure Separate (P : Parties ι σ τ) (I : ι → τ → Prop) (V : ι → σ → σ → Prop) : Prop where
  equiv : ∀ i, Equivalence (V i)
  keeps : ∀ {i s t s' t'}, I i t → P.step i s t = some (s', t') → I i t'
  own : ∀ {i s r t s' t'}, I i t → V i s r → P.step i s t = some (s', t') →
    ∃ r', P.step i r t = some (r', t') ∧ V i s' r'
  others : ∀ {i j s t s' t'}, j ≠ i → I j t → P.step j s t = some (s', t') → V i s' s

namespace Separate

variable {I : ι → τ → Prop} {V : ι → σ → σ → Prop} {s s' a b : σ × (ι → τ)} {ls ls' : List ι}

omit [DecidableEq ι] in
/-- A party has a move where it has one with the same view. -/
theorem step_none_iff (h : Separate P I V) {u r : σ} {t : τ} (hI : I i t) (hV : V i u r) :
    P.step i u t = none ↔ P.step i r t = none := by
  constructor
  · -- a move with the one view is a move with the other
    intro hnone
    by_contra hsome
    obtain ⟨⟨r', t'⟩, hst⟩ := Option.ne_none_iff_exists'.1 hsome
    obtain ⟨u', hst', -⟩ := h.own hI ((h.equiv i).symm hV) hst
    rw [hnone] at hst'
    cases hst'
  · intro hnone
    by_contra hsome
    obtain ⟨⟨u', t'⟩, hst⟩ := Option.ne_none_iff_exists'.1 hsome
    obtain ⟨r', hst', -⟩ := h.own hI hV hst
    rw [hnone] at hst'
    cases hst'

/-- One move, as all parties see it. -/
theorem move (h : Separate P I V) (hI : ∀ j, I j (s.2 j)) {r : ι → σ} (hV : ∀ j, V j s.1 (r j))
    (hst : P.machine.step s i = some s') :
    (∀ j, I j (s'.2 j)) ∧ ∃ r' : ι → σ, ∀ j, V j s'.1 (r' j) ∧
      P.alone j ([i].count j) (r j, s.2 j) = some (r' j, s'.2 j) := by
  obtain ⟨t', hown, hs'⟩ := machine_step_cases hst
  obtain ⟨ri, hri, hVi⟩ := h.own (hI i) (hV i) hown
  refine ⟨?_, Function.update r i ri, ?_⟩
  · intro j
    rw [hs']
    by_cases hj : j = i
    · subst hj
      rw [Function.update_self]
      exact h.keeps (hI j) hown
    · rw [Function.update_of_ne hj]
      exact hI j
  · intro j
    rw [hs']
    by_cases hj : j = i
    · subst hj
      rw [Function.update_self, Function.update_self, List.count_singleton_self]
      exact ⟨hVi, alone_one hri⟩
    · rw [Function.update_of_ne hj, Function.update_of_ne hj,
        List.count_eq_zero.2 fun hmem => hj (List.mem_singleton.1 hmem)]
      have hsame := h.others (Ne.symm hj) (hI i) hown
      exact ⟨(h.equiv j).trans hsame (hV j), rfl⟩

/-- **In a run each party makes the moves that it makes alone.** -/
theorem run_alone (h : Separate P I V) : ∀ {ls : List ι} {s s' : σ × (ι → τ)} {r : ι → σ},
    (∀ j, I j (s.2 j)) → (∀ j, V j s.1 (r j)) → P.machine.run s ls = some s' →
      (∀ j, I j (s'.2 j)) ∧ ∃ r' : ι → σ, ∀ j, V j s'.1 (r' j) ∧
        P.alone j (ls.count j) (r j, s.2 j) = some (r' j, s'.2 j) := by
  intro ls
  induction ls with
  | nil =>
    intro s s' r hI hV hrun
    obtain rfl := Option.some.inj hrun
    exact ⟨hI, r, fun j => ⟨hV j, rfl⟩⟩
  | cons i ls ih =>
    intro s s' r hI hV hrun
    obtain ⟨s₁, hst, hrun⟩ := Option.bind_eq_some_iff.1 hrun
    obtain ⟨hI₁, r₁, hfirst⟩ := h.move hI hV hst
    obtain ⟨hI', r', hrest⟩ := ih hI₁ (fun j => (hfirst j).1) hrun
    refine ⟨hI', r', fun j => ⟨(hrest j).1, ?_⟩⟩
    have hcount : (i :: ls).count j = [i].count j + ls.count j := by
      rw [← List.singleton_append, List.count_append]
    rw [hcount]
    exact alone_trans (hfirst j).2 (hrest j).2

/-- What each move keeps of the shared state holds of a run. -/
theorem shared (h : Separate P I V) {E : σ → Prop}
    (hE : ∀ {i u t u' t'}, I i t → E u → P.step i u t = some (u', t') → E u') :
    ∀ {ls : List ι} {s s' : σ × (ι → τ)}, (∀ j, I j (s.2 j)) → E s.1 →
      P.machine.run s ls = some s' → E s'.1 := by
  intro ls s s' hI h0 hrun
  have hstep : ∀ s i s', ((∀ j, I j (s.2 j)) ∧ E s.1) → P.machine.step s i = some s' →
      (∀ j, I j (s'.2 j)) ∧ E s'.1 := by
    rintro s i s' ⟨hI, hs⟩ hst
    obtain ⟨t', hown, -⟩ := machine_step_cases hst
    have hkeeps := (h.move hI (fun j => (h.equiv j).refl s.1) hst).1
    exact ⟨hkeeps, hE (hI i) hs hown⟩
  have hboth := Machine.run_invariant (I := fun s => (∀ j, I j (s.2 j)) ∧ E s.1) hstep ⟨hI, h0⟩ hrun
  exact hboth.2

/-- **Runs that have come to an end agree**: the parties end as they do, and each sees the same of
the shared state. -/
theorem run_unique (h : Separate P I V) (hI : ∀ j, I j (s.2 j))
    (ha : P.machine.run s ls = some a) (hb : P.machine.run s ls' = some b)
    (haend : ∀ j, P.step j a.1 (a.2 j) = none) (hbend : ∀ j, P.step j b.1 (b.2 j) = none) :
    b.2 = a.2 ∧ ∀ j, V j b.1 a.1 := by
  have hrefl : ∀ j, V j s.1 s.1 := fun j => (h.equiv j).refl s.1
  obtain ⟨hIa, r, hr⟩ := h.run_alone hI hrefl ha
  obtain ⟨hIb, r', hr'⟩ := h.run_alone hI hrefl hb
  -- by itself a party comes to one end only
  have hsame : ∀ j, (r j, a.2 j) = (r' j, b.2 j) := by
    intro j
    have hend := (h.step_none_iff (hIa j) (hr j).1).1 (haend j)
    have hend' := (h.step_none_iff (hIb j) (hr' j).1).1 (hbend j)
    exact (alone_unique (hr j).2 hend (hr' j).2 hend').2
  refine ⟨?_, fun j => ?_⟩
  · funext j
    exact (Prod.mk.inj (hsame j)).2.symm
  · have hview := (hr' j).1
    rw [← (Prod.mk.inj (hsame j)).1] at hview
    exact (h.equiv j).trans hview ((h.equiv j).symm (hr j).1)

/-! ## The length of a run -/

/-- A party moves no more often than it does alone. -/
theorem count_le (h : Separate P I V) (hI : ∀ j, I j (s.2 j))
    (halone : P.alone i n (s.1, s.2 i) = some y) (hend : P.step i y.1 y.2 = none)
    (hrun : P.machine.run s ls = some a) : ls.count i ≤ n := by
  obtain ⟨-, r, hr⟩ := h.run_alone hI (fun j => (h.equiv j).refl s.1) hrun
  exact alone_le halone hend (hr i).2

/-- **The length of a run**, where finitely many parties have moves. -/
theorem length_le (h : Separate P I V) (hI : ∀ j, I j (s.2 j)) {parties : Finset ι} {k : ι → ℕ}
    (halone : ∀ j ∈ parties, ∃ y, P.alone j (k j) (s.1, s.2 j) = some y ∧ P.step j y.1 y.2 = none)
    (hnone : ∀ j, j ∉ parties → P.step j s.1 (s.2 j) = none)
    (hrun : P.machine.run s ls = some a) : ls.length ≤ ∑ j ∈ parties, k j := by
  have hcount : ∀ j ∈ parties, ls.count j ≤ k j := by
    intro j hj
    obtain ⟨y, hy, hend⟩ := halone j hj
    exact h.count_le hI hy hend hrun
  -- a party outside has no move to begin with, and gets none
  have hsub : ls.toFinset ⊆ parties := by
    intro j hj
    by_contra hnot
    have hzero := h.count_le (n := 0) hI rfl (hnone j hnot) hrun
    have hpos := List.count_pos_iff.2 (List.mem_toFinset.1 hj)
    omega
  calc ls.length = ∑ j ∈ ls.toFinset, ls.count j := (List.sum_toFinset_count_eq_length ls).symm
    _ ≤ ∑ j ∈ parties, ls.count j := Finset.sum_le_sum_of_subset hsub
    _ ≤ ∑ j ∈ parties, k j := Finset.sum_le_sum hcount

end Separate

end Parties
