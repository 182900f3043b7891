import Mathlib.Data.List.Infix
import Mathlib.Data.List.Basic

/-!
# Lists in which the elements of a key are contiguous

`Contiguous key l` holds if the elements of each key stand side by side in `l`. A log
that several writers append to keeps this as long as a writer that has begun goes on
before anyone else does.

* `Contiguous.concat_fresh`: an element of a key that is not in the list may be appended.
* `Contiguous.concat_last`: so may one of the key of the last element.
* `not_contiguous_between`: a key that goes on after another has begun is apart.
* `Contiguous.blocks`: the list is one block after another, one for each key.
-/

variable {α κ : Type*} [DecidableEq κ] {key : α → κ}

/-- **The elements of each key stand side by side.** -/
def Contiguous (key : α → κ) (l : List α) : Prop :=
  ∀ k, l.filter (fun a => key a = k) <:+: l

theorem contiguous_nil : Contiguous key [] := fun _ => List.nil_infix

theorem filter_key_concat_of_ne (key : α → κ) {l : List α} {a : α} {k : κ} (h : key a ≠ k) :
    (l ++ [a]).filter (fun b => key b = k) = l.filter (fun b => key b = k) := by
  simp [List.filter_append, h]

theorem filter_key_concat_self (key : α → κ) (l : List α) (a : α) :
    (l ++ [a]).filter (fun b => key b = key a) =
      l.filter (fun b => key b = key a) ++ [a] := by
  simp [List.filter_append]

theorem filter_key_eq_nil (key : α → κ) {l : List α} {k : κ} (h : ∀ b ∈ l, key b ≠ k) :
    l.filter (fun b => key b = k) = [] := by
  rw [List.filter_eq_nil_iff]
  intro b hb
  simpa using h b hb

/-- The elements of another key than that of an appended element stay side by side. -/
theorem Contiguous.concat_ne {l : List α} (h : Contiguous key l) {a : α} {k : κ}
    (hk : key a ≠ k) : (l ++ [a]).filter (fun b => key b = k) <:+: l ++ [a] := by
  rw [filter_key_concat_of_ne key hk]
  exact (h k).trans (List.prefix_append l [a]).isInfix

/-- **A key that is not in the list may begin.** -/
theorem Contiguous.concat_fresh {l : List α} (h : Contiguous key l) {a : α}
    (ha : ∀ b ∈ l, key b ≠ key a) : Contiguous key (l ++ [a]) := by
  intro k
  by_cases hk : key a = k
  · subst hk
    rw [filter_key_concat_self, filter_key_eq_nil key ha]
    exact (List.suffix_append l [a]).isInfix
  · exact h.concat_ne hk

/-- The elements of the key of the last element are the end of the list. -/
theorem Contiguous.suffix_of_last {l : List α} (h : Contiguous key l) {b : α}
    (hb : b ∈ l.getLast?) : l.filter (fun c => key c = key b) <:+ l := by
  obtain ⟨pre, post, heq⟩ := h (key b)
  have hfilter := congrArg (List.filter fun c => key c = key b) heq
  simp only [List.filter_append, List.filter_filter, Bool.and_self] at hfilter
  have hlen := congrArg List.length hfilter
  simp only [List.length_append] at hlen
  have hpost : post.filter (fun c => key c = key b) = [] :=
    List.eq_nil_of_length_eq_zero (by omega)
  -- the last element has the key, so nothing stands behind the elements of the key
  have hnil : post = [] := by
    by_contra hne
    have hlast : post.getLast? = some b := by
      rw [← heq, List.getLast?_append_of_ne_nil _ hne] at hb
      exact hb
    have hmem : b ∈ post.filter (fun c => key c = key b) :=
      List.mem_filter.2 ⟨List.mem_of_getLast? hlast, by simp⟩
    rw [hpost] at hmem
    cases hmem
  rw [hnil, List.append_nil] at heq
  exact ⟨pre, heq⟩

/-- **The key of the last element may go on.** -/
theorem Contiguous.concat_last {l : List α} (h : Contiguous key l) {a b : α}
    (hb : b ∈ l.getLast?) (hkey : key b = key a) : Contiguous key (l ++ [a]) := by
  intro k
  by_cases hk : key a = k
  · subst hk
    rw [filter_key_concat_self, ← hkey]
    obtain ⟨pre, hpre⟩ := h.suffix_of_last hb
    exact ⟨pre, [], by rw [List.append_nil, ← List.append_assoc, hpre]⟩
  · exact h.concat_ne hk

/-- **A key that goes on behind an element of another** is not side by side. -/
theorem not_contiguous_between {l : List α} {a b c : α} (ha : a ∈ l) (hac : key a = key c)
    (hbc : key b ≠ key c) : ¬ Contiguous key (l ++ [b] ++ [c]) := by
  intro h
  obtain ⟨pre, hpre⟩ := h.suffix_of_last (b := c) (by rw [List.getLast?_concat]; rfl)
  rw [filter_key_concat_self, filter_key_concat_of_ne key hbc, ← List.append_assoc,
    List.append_left_inj] at hpre
  -- the last element of the key before `c` would be `b`
  have hne : l.filter (fun x => key x = key c) ≠ [] :=
    List.ne_nil_of_mem (List.mem_filter.2 ⟨ha, by simpa using hac⟩)
  have hlast : b ∈ (l.filter (fun x => key x = key c)).getLast? := by
    rw [← List.getLast?_append_of_ne_nil pre hne, hpre, List.getLast?_concat]
    rfl
  have hkey := (List.mem_filter.1 (List.mem_of_getLast? hlast)).2
  exact hbc (by simpa using hkey)

/-- What stands side by side and has no element of the first part stands in the second one. -/
theorem infix_of_infix_append {l l' : List α} : ∀ {m : List α}, m <:+: l ++ l' →
    (∀ a ∈ m, a ∉ l) → m <:+: l' := by
  intro m h hm
  induction l with
  | nil => exact h
  | cons a l ih =>
    rcases List.infix_cons_iff.1 h with hprefix | hinfix
    · rcases List.prefix_cons_iff.1 hprefix with rfl | ⟨t, rfl, -⟩
      · exact List.nil_infix
      · exact absurd List.mem_cons_self (hm a List.mem_cons_self)
    · exact ih hinfix fun b hb hmem => hm b hb (List.mem_cons_of_mem a hmem)

/-- **The elements of the key of the first element come first**, and the rest is contiguous. -/
theorem Contiguous.first {l : List α} {a : α} (h : Contiguous key (a :: l)) :
    ∃ rest, a :: l = (a :: l).filter (fun b => key b = key a) ++ rest ∧ Contiguous key rest ∧
      rest.length ≤ l.length ∧ ∀ b ∈ rest, key b ≠ key a := by
  obtain ⟨pre, rest, heq⟩ := h (key a)
  have hfilter := congrArg (List.filter fun c => key c = key a) heq
  simp only [List.filter_append, List.filter_filter, Bool.and_self] at hfilter
  have hlen := congrArg List.length hfilter
  simp only [List.length_append] at hlen
  have hpre : pre.filter (fun c => key c = key a) = [] := List.eq_nil_of_length_eq_zero (by omega)
  have hrest : rest.filter (fun c => key c = key a) = [] := List.eq_nil_of_length_eq_zero (by omega)
  have hother : ∀ b ∈ rest, key b ≠ key a := by
    intro b hb hkey
    have hmem : b ∈ rest.filter (fun c => key c = key a) :=
      List.mem_filter.2 ⟨hb, by simpa using hkey⟩
    rw [hrest] at hmem
    cases hmem
  -- nothing stands before the first element
  have hnil : pre = [] := by
    cases pre with
    | nil => rfl
    | cons b pre =>
      obtain ⟨rfl, -⟩ := List.cons.inj heq
      simp at hpre
  rw [hnil, List.nil_append] at heq
  refine ⟨rest, heq.symm, ?_, ?_, hother⟩
  · intro k
    by_cases hk : k = key a
    · rw [hk, hrest]
      exact List.nil_infix
    · have hk' : (a :: l).filter (fun c => key c = k) <:+: a :: l := h k
      rw [← heq] at hk'
      have hskip : ((a :: l).filter fun c => key c = key a).filter (fun c => key c = k) = [] := by
        refine filter_key_eq_nil key fun b hb hbk => hk ?_
        have hba : key b = key a := by simpa using (List.mem_filter.1 hb).2
        rw [← hbk, hba]
      rw [List.filter_append, hskip, List.nil_append] at hk'
      refine infix_of_infix_append hk' fun b hb hmem => hk ?_
      have hbk : key b = k := by simpa using (List.mem_filter.1 hb).2
      have hba : key b = key a := by simpa using (List.mem_filter.1 hmem).2
      rw [← hbk, hba]
  · have hlen := congrArg List.length heq
    have hself : a ∈ (a :: l).filter (fun c => key c = key a) :=
      List.mem_filter.2 ⟨List.mem_cons_self, by simp⟩
    have hpos := List.length_pos_of_mem hself
    simp only [List.length_append, List.length_cons] at hlen
    omega

/-- **The blocks of a contiguous list**, one for each key. -/
theorem Contiguous.blocks : ∀ {n : ℕ} {l : List α}, l.length ≤ n → Contiguous key l →
    ∃ ks : List κ, ks.Nodup ∧ (∀ k, k ∈ ks ↔ ∃ a ∈ l, key a = k) ∧
      l = ks.flatMap fun k => l.filter fun a => key a = k := by
  intro n
  induction n with
  | zero =>
    intro l hn _
    obtain rfl := List.eq_nil_of_length_eq_zero (Nat.le_zero.1 hn)
    exact ⟨[], List.nodup_nil, by simp, rfl⟩
  | succ n ih =>
    intro l hn h
    cases l with
    | nil => exact ⟨[], List.nodup_nil, by simp, rfl⟩
    | cons a l =>
      obtain ⟨rest, heq, hrest, hle, hother⟩ := h.first
      rw [List.length_cons] at hn
      obtain ⟨ks, hnodup, hmem, hblocks⟩ := ih (by omega) hrest
      have hnot : key a ∉ ks := by
        intro hk
        obtain ⟨b, hb, hkey⟩ := (hmem (key a)).1 hk
        exact hother b hb hkey
      refine ⟨key a :: ks, List.nodup_cons.2 ⟨hnot, hnodup⟩, fun k => ?_, ?_⟩
      · rw [List.mem_cons, hmem k, heq]
        constructor
        · rintro (rfl | ⟨b, hb, hkey⟩)
          · exact ⟨a, List.mem_append_left _ (by simp), rfl⟩
          · exact ⟨b, List.mem_append_right _ hb, hkey⟩
        · rintro ⟨b, hb, rfl⟩
          obtain hb | hb := List.mem_append.1 hb
          · left
            simpa using (List.mem_filter.1 hb).2
          · exact Or.inr ⟨b, hb, rfl⟩
      · have hsame : ∀ k ∈ ks, (a :: l).filter (fun b => key b = k) =
            rest.filter fun b => key b = k := by
          intro k hk
          rw [heq, List.filter_append, filter_key_eq_nil key, List.nil_append]
          intro b hb hkey
          have hba : key b = key a := by simpa using (List.mem_filter.1 hb).2
          rw [← hba, hkey] at hnot
          exact hnot hk
        rw [List.flatMap_cons, List.flatMap_congr hsame, ← hblocks]
        exact heq
