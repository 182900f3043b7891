import Mathlib.Tactic.Common
import Mathlib.Data.Nat.Notation

/-!
# Memories and block copies

A memory is a function from addresses to values. `splice m a s f n` is `m` with
the `n` cells from `a` overwritten by those of `s` from `f`.

* `splice_apply`: what a copy leaves at an address.
* `splice_append`, `splice_through`: copies in sequence, and through a third
  memory, are one copy.
* `Agree`: two memories hold the same `n` values; `SameOutside`: a memory is
  changed in a range at most. Both with their rules for a copy.
* `copySpans`: copies of many spans of one source, whose outcome depends on the
  cells covered only (`copySpans_eq_splice`).
-/

namespace Bytes

variable {α : Type*}

/-- `m` with the `n` cells from `a` overwritten by those of `s` from `f`. -/
def splice (m : ℕ → α) (a : ℕ) (s : ℕ → α) (f n : ℕ) : ℕ → α :=
  fun i => if a ≤ i ∧ i < a + n then s (f + (i - a)) else m i

theorem splice_apply (m : ℕ → α) (a : ℕ) (s : ℕ → α) (f n i : ℕ) :
    splice m a s f n i = if a ≤ i ∧ i < a + n then s (f + (i - a)) else m i := rfl

theorem splice_inside (m : ℕ → α) (a : ℕ) (s : ℕ → α) (f : ℕ) {n i : ℕ} (h : i < n) :
    splice m a s f n (a + i) = s (f + i) := by
  rw [splice_apply, if_pos ⟨by omega, by omega⟩, Nat.add_sub_cancel_left]

theorem splice_outside (m : ℕ → α) (s : ℕ → α) (f : ℕ) {a n i : ℕ} (h : i < a ∨ a + n ≤ i) :
    splice m a s f n i = m i := by
  rw [splice_apply, if_neg (by omega)]

@[simp] theorem splice_zero (m : ℕ → α) (a : ℕ) (s : ℕ → α) (f : ℕ) : splice m a s f 0 = m := by
  funext i; exact splice_outside m s f (by omega)

/-- Copying `n` cells and then the next `k` is copying `n + k`. -/
theorem splice_append (m : ℕ → α) (a : ℕ) (s : ℕ → α) (f n k : ℕ) :
    splice (splice m a s f n) (a + n) s (f + n) k = splice m a s f (n + k) := by
  funext i
  simp only [splice_apply]
  by_cases h₁ : a + n ≤ i ∧ i < a + n + k
  · rw [if_pos h₁, if_pos (by omega)]
    congr 1; omega
  · rw [if_neg h₁]
    by_cases h₂ : a ≤ i ∧ i < a + n
    · rw [if_pos h₂, if_pos (by omega)]
    · rw [if_neg h₂, if_neg (by omega)]

/-- Copying through a third memory copies. -/
theorem splice_through (m : ℕ → α) (a : ℕ) (b : ℕ → α) (c : ℕ) (s : ℕ → α) (f : ℕ) {n k : ℕ}
    (h : n ≤ k) : splice m a (splice b c s f k) c n = splice m a s f n := by
  funext i
  simp only [splice_apply]
  by_cases hi : a ≤ i ∧ i < a + n
  · rw [if_pos hi, if_pos hi, if_pos ⟨by omega, by omega⟩]
    congr 1; omega
  · rw [if_neg hi, if_neg hi]

/-- A copy depends on the copied cells of its source only. -/
theorem splice_congr (m : ℕ → α) (a : ℕ) {s s' : ℕ → α} {f n : ℕ}
    (h : ∀ i < n, s (f + i) = s' (f + i)) : splice m a s f n = splice m a s' f n := by
  funext i
  simp only [splice_apply]
  by_cases hi : a ≤ i ∧ i < a + n
  · rw [if_pos hi, if_pos hi, h _ (by omega)]
  · rw [if_neg hi, if_neg hi]

/-! ## Agreement and frames -/

/-- The `n` values of `m` from `a` are those of `s` from `f`. -/
def Agree (n : ℕ) (m : ℕ → α) (a : ℕ) (s : ℕ → α) (f : ℕ) : Prop :=
  ∀ i < n, m (a + i) = s (f + i)

/-- `m'` is `m` outside the `n` cells from `a`. -/
def SameOutside (a n : ℕ) (m m' : ℕ → α) : Prop := ∀ i, i < a ∨ a + n ≤ i → m' i = m i

variable {m m' m'' s s' : ℕ → α} {a f n k : ℕ}

theorem Agree.mono (h : Agree n m a s f) (hk : k ≤ n) : Agree k m a s f :=
  fun i hi => h i (by omega)

theorem agree_zero : Agree 0 m a s f := fun i hi => absurd hi (Nat.not_lt_zero i)

theorem agree_splice : Agree n (splice m a s f n) a s f := fun _ hi => splice_inside m a s f hi

/-- A copy of the `k` cells after the first `n` keeps their agreement and adds its own. -/
theorem Agree.splice_next (h : Agree n m a s f) :
    Agree (n + k) (splice m (a + n) s (f + n) k) a s f := by
  intro i hi
  by_cases hn : i < n
  · rw [splice_outside _ _ _ (by omega), h i hn]
  · obtain ⟨j, rfl⟩ : ∃ j, i = n + j := ⟨i - n, by omega⟩
    rw [← Nat.add_assoc, splice_inside _ _ _ _ (by omega), Nat.add_assoc]

theorem SameOutside.refl (a n : ℕ) (m : ℕ → α) : SameOutside a n m m := fun _ _ => rfl

theorem SameOutside.trans (h : SameOutside a n m m') (h' : SameOutside a n m' m'') :
    SameOutside a n m m'' := fun i hi => (h' i hi).trans (h i hi)

/-- A copy of cells inside a range keeps everything outside the range. -/
theorem sameOutside_splice {b j : ℕ} (hb : a ≤ b) (hj : b + j ≤ a + n) :
    SameOutside a n m (splice m b s f j) := fun _ hi => splice_outside m s f (by omega)

/-! ## Many spans of one source -/

/-- A span of cells, as an offset and a length. -/
structure Span where
  start : ℕ
  len : ℕ
  deriving DecidableEq, Repr

/-- The offset `i` lies in the span. -/
def Span.Covers (sp : Span) (i : ℕ) : Prop := sp.start ≤ i ∧ i < sp.start + sp.len

instance (sp : Span) (i : ℕ) : Decidable (sp.Covers i) := inferInstanceAs (Decidable (_ ∧ _))

/-- The span, moved up. -/
def Span.shift (k : ℕ) (sp : Span) : Span := ⟨k + sp.start, sp.len⟩

theorem Span.covers_shift {k i : ℕ} {sp : Span} :
    (sp.shift k).Covers i ↔ k ≤ i ∧ sp.Covers (i - k) := by
  unfold Span.Covers Span.shift
  simp only
  omega

/-- No offset lies in both spans. -/
def Span.Disjoint (sp sp' : Span) : Prop := ∀ i, ¬ (sp.Covers i ∧ sp'.Covers i)

theorem Span.Disjoint.symm {sp sp' : Span} (h : sp.Disjoint sp') : sp'.Disjoint sp :=
  fun i hi => h i hi.symm

/-- A span that ends before the other starts. -/
theorem Span.disjoint_of_le {sp sp' : Span} (h : sp.start + sp.len ≤ sp'.start) :
    sp.Disjoint sp' := fun i ⟨hi, hi'⟩ => by
  have := hi.2
  have := hi'.1
  omega

/-- Copy each span of `s` (offsets from `f`) to `m` (offsets from `a`), in order. -/
def copySpans (m : ℕ → α) (a : ℕ) (s : ℕ → α) (f : ℕ) (l : List Span) : ℕ → α :=
  l.foldl (fun m sp => splice m (a + sp.start) s (f + sp.start) sp.len) m

/-- A cell below the destination is unchanged. -/
theorem copySpans_below (a : ℕ) (s : ℕ → α) (f : ℕ) {i : ℕ} (hi : i < a) :
    ∀ (l : List Span) (m : ℕ → α), copySpans m a s f l i = m i := by
  intro l
  induction l with
  | nil => intro m; rfl
  | cons sp l ih =>
    intro m
    rw [copySpans, List.foldl_cons]
    exact (ih _).trans (splice_outside m s _ (by omega))

/-- **A cell ends with the source's value if some span covers it, else unchanged.** -/
theorem copySpans_at (a : ℕ) (s : ℕ → α) (f i : ℕ) : ∀ (l : List Span) (m : ℕ → α),
    copySpans m a s f l (a + i) = if ∃ sp ∈ l, sp.Covers i then s (f + i) else m (a + i) := by
  intro l
  induction l with
  | nil => intro m; simp [copySpans]
  | cons sp l ih =>
    intro m
    rw [copySpans, List.foldl_cons]
    refine (ih _).trans ?_
    by_cases hl : ∃ sp' ∈ l, sp'.Covers i
    · have hcons : ∃ sp' ∈ sp :: l, sp'.Covers i := by
        obtain ⟨sp', h₁, h₂⟩ := hl
        exact ⟨sp', List.mem_cons_of_mem _ h₁, h₂⟩
      rw [if_pos hl, if_pos hcons]
    rw [if_neg hl]
    by_cases hsp : sp.Covers i
    · rw [if_pos ⟨sp, List.mem_cons_self, hsp⟩, splice_apply, if_pos ⟨by have := hsp.1; omega, by
        have := hsp.2; omega⟩]
      have := hsp.1
      congr 1; omega
    · rw [if_neg (by rintro ⟨sp', h₁, h₂⟩; rcases List.mem_cons.1 h₁ with h | h
                     · exact hsp (h ▸ h₂)
                     · exact hl ⟨sp', h, h₂⟩)]
      refine splice_outside m s _ ?_
      unfold Span.Covers at hsp
      omega

/-- **Spans that cover exactly `[0, n)` copy a block**, whatever their order and overlaps. -/
theorem copySpans_eq_splice (m : ℕ → α) (a : ℕ) (s : ℕ → α) (f n : ℕ) {l : List Span}
    (hl : ∀ i, (∃ sp ∈ l, sp.Covers i) ↔ i < n) : copySpans m a s f l = splice m a s f n := by
  funext j
  by_cases hj : j < a
  · rw [copySpans_below a s f hj, splice_outside m s f (Or.inl hj)]
  · obtain ⟨i, rfl⟩ : ∃ i, j = a + i := ⟨j - a, by omega⟩
    rw [copySpans_at]
    by_cases hi : i < n
    · rw [if_pos ((hl i).2 hi), splice_inside m a s f hi]
    · rw [if_neg (fun h => hi ((hl i).1 h)), splice_outside m s f (by omega)]

end Bytes
