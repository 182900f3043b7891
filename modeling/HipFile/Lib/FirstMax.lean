import Mathlib.Data.List.MinMax

/-!
# The first maximum of a list

`List.argmax` scans a list and takes over an element that is strictly better than the best
so far.

* `IsFirstMax`: an element stands before every other of its value, and none is above it.
* `mem_argmax_iff_isFirstMax`: the scan finds that element.
* `exists_isFirstMax`: every list but the empty one has one.
* `argmax_eq_of_perm`: of distinct values, the order of the list does not matter.
-/

namespace FirstMax

variable {α β : Type*} [LinearOrder β] {f : α → β} {l l' : List α} {a b : α}

/-- Everything before `a` is below it, and nothing after `a` is above it. -/
def IsFirstMax (f : α → β) (l : List α) (a : α) : Prop :=
  ∃ pre post, l = pre ++ a :: post ∧ (∀ b ∈ pre, f b < f a) ∧ ∀ b ∈ post, f b ≤ f a

theorem IsFirstMax.mem (h : IsFirstMax f l a) : a ∈ l := by
  obtain ⟨pre, post, rfl, -, -⟩ := h
  exact List.mem_append_right _ List.mem_cons_self

theorem IsFirstMax.le (h : IsFirstMax f l a) (hb : b ∈ l) : f b ≤ f a := by
  obtain ⟨pre, post, rfl, hpre, hpost⟩ := h
  rcases List.mem_append.1 hb with hb | hb
  · exact (hpre b hb).le
  · rcases List.mem_cons.1 hb with rfl | hb
    · exact le_rfl
    · exact hpost b hb

/-- An element that is not above the first maximum may be appended. -/
theorem IsFirstMax.concat (h : IsFirstMax f l a) (hb : f b ≤ f a) : IsFirstMax f (l ++ [b]) a := by
  obtain ⟨pre, post, rfl, hpre, hpost⟩ := h
  refine ⟨pre, post ++ [b], by simp, hpre, fun c hc => ?_⟩
  rcases List.mem_append.1 hc with hc | hc
  · exact hpost c hc
  · rw [List.mem_singleton.1 hc]
    exact hb

/-- An element above all of a list is the first maximum once it is appended. -/
theorem isFirstMax_concat (h : ∀ b ∈ l, f b < f a) : IsFirstMax f (l ++ [a]) a :=
  ⟨l, [], rfl, h, nofun⟩

/-- The first maximum is that of any part of the list that it is in. -/
theorem IsFirstMax.filter {p : α → Bool} (h : IsFirstMax f l a) (hp : p a = true) :
    IsFirstMax f (l.filter p) a := by
  obtain ⟨pre, post, rfl, hpre, hpost⟩ := h
  refine ⟨pre.filter p, post.filter p, ?_, fun b hb => hpre b (List.mem_of_mem_filter hb),
    fun b hb => hpost b (List.mem_of_mem_filter hb)⟩
  rw [List.filter_append, List.filter_cons_of_pos hp]

/-- The first maximum of a list of images. -/
theorem IsFirstMax.map {γ : Type*} {g : γ → α} {l : List γ} {c : γ}
    (h : IsFirstMax (fun c => f (g c)) l c) : IsFirstMax f (l.map g) (g c) := by
  obtain ⟨pre, post, rfl, hpre, hpost⟩ := h
  refine ⟨pre.map g, post.map g, by rw [List.map_append, List.map_cons], fun b hb => ?_,
    fun b hb => ?_⟩
  · obtain ⟨d, hd, rfl⟩ := List.mem_map.1 hb
    exact hpre d hd
  · obtain ⟨d, hd, rfl⟩ := List.mem_map.1 hb
    exact hpost d hd

/-- There is one first maximum. -/
theorem IsFirstMax.unique : ∀ {l : List α}, IsFirstMax f l a → IsFirstMax f l b → a = b := by
  intro l
  induction l with
  | nil => exact fun h => absurd h.mem (by simp)
  | cons c l ih =>
    rintro ⟨pre, post, hl, hpre, hpost⟩ ⟨pre', post', hl', hpre', hpost'⟩
    cases pre with
    | nil =>
      obtain ⟨rfl, rfl⟩ := List.cons.inj hl
      cases pre' with
      | nil => exact (List.cons.inj hl').1
      | cons d pre' =>
        -- `b` comes later, so `c` is below it
        obtain ⟨rfl, rfl⟩ := List.cons.inj hl'
        have hle := hpost b (List.mem_append_right _ List.mem_cons_self)
        exact absurd (hpre' _ List.mem_cons_self) hle.not_gt
    | cons d pre =>
      obtain ⟨rfl, rfl⟩ := List.cons.inj hl
      cases pre' with
      | nil =>
        obtain ⟨rfl, rfl⟩ := List.cons.inj hl'
        have hle := hpost' a (List.mem_append_right _ List.mem_cons_self)
        exact absurd (hpre _ List.mem_cons_self) hle.not_gt
      | cons d' pre' =>
        exact ih ⟨pre, post, rfl, fun x hx => hpre x (List.mem_cons_of_mem _ hx), hpost⟩
          ⟨pre', post', (List.cons.inj hl').2, fun x hx => hpre' x (List.mem_cons_of_mem _ hx),
            hpost'⟩

theorem isFirstMax_of_mem_argmax : ∀ {l : List α}, a ∈ l.argmax f → IsFirstMax f l a := by
  intro l
  induction l using List.reverseRecOn generalizing a with
  | nil => intro h; cases h
  | append_singleton l b ih =>
    intro h
    rw [List.argmax_concat] at h
    cases hl : l.argmax f with
    | none =>
      rw [hl] at h
      obtain rfl : b = a := Option.some.inj h
      rw [List.argmax_eq_none.1 hl]
      exact isFirstMax_concat nofun
    | some c =>
      rw [hl] at h
      simp only at h
      split at h
      · rename_i hlt
        obtain rfl : b = a := Option.some.inj h
        exact isFirstMax_concat fun d hd => lt_of_le_of_lt (List.le_of_mem_argmax hd hl) hlt
      · rename_i hlt
        obtain rfl : c = a := Option.some.inj h
        exact (ih hl).concat (not_lt.1 hlt)

/-- **The scan finds the first maximum.** -/
theorem mem_argmax_iff_isFirstMax : a ∈ l.argmax f ↔ IsFirstMax f l a := by
  refine ⟨isFirstMax_of_mem_argmax, fun h => ?_⟩
  cases hl : l.argmax f with
  | none =>
    have hmem := h.mem
    rw [List.argmax_eq_none.1 hl] at hmem
    cases hmem
  | some b => rw [(isFirstMax_of_mem_argmax hl).unique h]; rfl

theorem exists_isFirstMax (f : α → β) (h : l ≠ []) : ∃ a, IsFirstMax f l a := by
  cases hl : l.argmax f with
  | none => exact absurd (List.argmax_eq_none.1 hl) h
  | some a => exact ⟨a, isFirstMax_of_mem_argmax hl⟩

/-- **Of distinct values the order does not matter.** -/
theorem argmax_eq_of_perm (hperm : l.Perm l') (hf : ∀ a ∈ l, ∀ b ∈ l, f a = f b → a = b) :
    l.argmax f = l'.argmax f := by
  cases hl : l.argmax f with
  | none =>
    rw [List.argmax_eq_none] at hl
    subst hl
    rw [List.nil_perm.1 hperm, List.argmax_nil]
  | some a =>
    cases hl' : l'.argmax f with
    | none =>
      rw [List.argmax_eq_none] at hl'
      subst hl'
      rw [List.perm_nil.1 hperm] at hl
      cases hl
    | some b =>
      have ha := List.argmax_mem hl
      have hb := hperm.mem_iff.2 (List.argmax_mem hl')
      have hab : f a ≤ f b := List.le_of_mem_argmax (hperm.mem_iff.1 ha) hl'
      have hba : f b ≤ f a := List.le_of_mem_argmax hb hl
      rw [hf a ha b hb (le_antisymm hab hba)]

end FirstMax
