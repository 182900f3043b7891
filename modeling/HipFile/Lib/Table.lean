import Mathlib.Data.List.AList
import Mathlib.Logic.Function.Basic
import Mathlib.Data.Nat.Notation

/-!
# Tables

Finite maps with values of one type, and the list of their values.

* `lookup_insert_eq`, `lookup_erase_eq`: a changed table, at any key.
* `lookup_insert_cases`, `lookup_erase_some`: where what is found in it comes from.
* `view`: a table as a function, and that insertion and erasure are updates of it.
* `count_values_eq_one`, `count_values_eq_zero`: how often a tag comes among the values,
  when no two keys have values with one tag.
-/

/-- A finite map. -/
abbrev Table (κ α : Type) := AList fun _ : κ => α

namespace Table

variable {κ α τ : Type} {t : Table κ α} {k k' : κ} {a a' : α}

/-- The values, one for each key. -/
def values (t : Table κ α) : List α := t.entries.map Sigma.snd

variable [DecidableEq κ]

theorem lookup_empty_ne {k : κ} {a : α} : (∅ : Table κ α).lookup k ≠ some a := by
  rw [AList.lookup_empty]
  exact nofun

theorem lookup_insert_eq (t : Table κ α) (k k' : κ) (a : α) :
    (t.insert k a).lookup k' = if k' = k then some a else t.lookup k' := by
  split
  · rename_i h
    subst h
    exact AList.lookup_insert t
  · rename_i h
    exact AList.lookup_insert_ne h

theorem lookup_erase_eq (t : Table κ α) (k k' : κ) :
    (t.erase k).lookup k' = if k' = k then none else t.lookup k' := by
  split
  · rename_i h
    subst h
    exact AList.lookup_erase k' t
  · rename_i h
    exact AList.lookup_erase_ne h

/-- What is found after an insertion is new, or was there at another key. -/
theorem lookup_insert_cases (h : (t.insert k a).lookup k' = some a') :
    k' = k ∧ a' = a ∨ k' ≠ k ∧ t.lookup k' = some a' := by
  rw [lookup_insert_eq] at h
  by_cases hk : k' = k
  · rw [if_pos hk] at h
    exact Or.inl ⟨hk, (Option.some.inj h).symm⟩
  · rw [if_neg hk] at h
    exact Or.inr ⟨hk, h⟩

/-- What is found after an erasure was there, at another key. -/
theorem lookup_erase_some (h : (t.erase k).lookup k' = some a') :
    k' ≠ k ∧ t.lookup k' = some a' := by
  rw [lookup_erase_eq] at h
  by_cases hk : k' = k
  · rw [if_pos hk] at h
    cases h
  · rw [if_neg hk] at h
    exact ⟨hk, h⟩

/-- The table as a function, with what `g` takes from the values. -/
def view {β : Type} (g : α → β) (t : Table κ α) : κ → Option β := fun k => (t.lookup k).map g

section

variable {β : Type} (g : α → β)

theorem view_insert (t : Table κ α) (k : κ) (a : α) :
    view g (t.insert k a) = Function.update (view g t) k (some (g a)) := by
  funext k'
  rw [Function.update_apply, view, lookup_insert_eq]
  split <;> rfl

theorem view_erase (t : Table κ α) (k : κ) :
    view g (t.erase k) = Function.update (view g t) k none := by
  funext k'
  rw [Function.update_apply, view, lookup_erase_eq]
  split <;> rfl

end

theorem mem_entries_iff : (⟨k, a⟩ : Sigma fun _ : κ => α) ∈ t.entries ↔ t.lookup k = some a :=
  AList.mem_lookup_iff.symm

theorem mem_values : a ∈ values t ↔ ∃ k, t.lookup k = some a := by
  unfold values
  constructor
  · intro h
    obtain ⟨⟨k, a'⟩, hmem, rfl⟩ := List.mem_map.1 h
    exact ⟨k, mem_entries_iff.1 hmem⟩
  · rintro ⟨k, h⟩
    exact List.mem_map.2 ⟨⟨k, a⟩, mem_entries_iff.2 h, rfl⟩

theorem values_insert (t : Table κ α) (k : κ) (a : α) :
    values (t.insert k a) = a :: values (t.erase k) := rfl

/-- The values, with that of one key apart. -/
theorem values_perm (h : t.lookup k = some a) : (values t).Perm (a :: values (t.erase k)) := by
  have hmem : (⟨k, a⟩ : Sigma fun _ : κ => α) ∈ t.entries := mem_entries_iff.2 h
  have hkey : k ∈ t.entries.keys := List.mem_keys_of_mem hmem
  obtain ⟨b, l₁, l₂, -, hentries, herase⟩ := List.exists_of_kerase hkey
  have hb : t.lookup k = some b := by
    rw [← mem_entries_iff, hentries]
    exact List.mem_append_right _ List.mem_cons_self
  obtain rfl : a = b := Option.some.inj (h.symm.trans hb)
  have hperm : t.entries.Perm (⟨k, a⟩ :: (t.erase k).entries) := by
    show t.entries.Perm (⟨k, a⟩ :: t.entries.kerase k)
    rw [herase, hentries]
    exact List.perm_middle
  exact hperm.map Sigma.snd

theorem values_erase_of_none (h : t.lookup k = none) : values (t.erase k) = values t := by
  have hk : k ∉ t.entries.keys := AList.lookup_eq_none.1 h
  show ((t.entries.kerase k).map Sigma.snd) = t.entries.map Sigma.snd
  rw [List.kerase_of_notMem_keys hk]

/-- No two keys have values with one tag. -/
def Distinct (t : Table κ α) (tag : α → τ) : Prop :=
  ∀ k a k' a', t.lookup k = some a → t.lookup k' = some a' → tag a = tag a' → k = k'

variable {tag : α → τ}

theorem Distinct.empty : Distinct (∅ : Table κ α) tag :=
  fun _ _ _ _ h => absurd h lookup_empty_ne

/-- A value with a new tag may be inserted, at a key of its own or for another value. -/
theorem Distinct.insert (h : Distinct t tag) (k : κ)
    (hnew : ∀ k' a', t.lookup k' = some a' → tag a' ≠ tag a) : Distinct (t.insert k a) tag := by
  intro k₁ a₁ k₂ a₂ h₁ h₂ htag
  rcases lookup_insert_cases h₁ with ⟨rfl, rfl⟩ | ⟨-, hold₁⟩
  · rcases lookup_insert_cases h₂ with ⟨rfl, rfl⟩ | ⟨-, hold₂⟩
    · rfl
    · exact absurd htag.symm (hnew k₂ a₂ hold₂)
  · rcases lookup_insert_cases h₂ with ⟨rfl, rfl⟩ | ⟨-, hold₂⟩
    · exact absurd htag (hnew k₁ a₁ hold₁)
    · exact h k₁ a₁ k₂ a₂ hold₁ hold₂ htag

theorem Distinct.erase (h : Distinct t tag) (k : κ) : Distinct (t.erase k) tag :=
  fun k₁ a₁ k₂ a₂ h₁ h₂ htag =>
    h k₁ a₁ k₂ a₂ (lookup_erase_some h₁).2 (lookup_erase_some h₂).2 htag

theorem Distinct.nodup (h : Distinct t tag) : ((values t).map tag).Nodup := by
  unfold values
  rw [List.map_map]
  refine t.nodupKeys.nodup.map_on ?_
  rintro ⟨k, a⟩ hmem ⟨k', a'⟩ hmem' htag
  have hl := mem_entries_iff.1 hmem
  have hl' := mem_entries_iff.1 hmem'
  obtain rfl := h k a k' a' hl hl' htag
  rw [hl] at hl'
  cases hl'
  rfl

variable [DecidableEq τ]

theorem count_values_eq_one (h : Distinct t tag) (hk : t.lookup k = some a) :
    ((values t).map tag).count (tag a) = 1 :=
  List.count_eq_one_of_mem h.nodup (List.mem_map_of_mem (mem_values.2 ⟨k, hk⟩))

theorem count_values_eq_zero {x : τ} (h : ∀ k a, t.lookup k = some a → tag a ≠ x) :
    ((values t).map tag).count x = 0 := by
  refine List.count_eq_zero.2 fun hmem => ?_
  obtain ⟨a, ha, rfl⟩ := List.mem_map.1 hmem
  obtain ⟨k, hk⟩ := mem_values.1 ha
  exact h k a hk rfl

end Table
