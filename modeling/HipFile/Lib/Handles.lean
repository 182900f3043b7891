import Mathlib.Data.List.Nodup
import Mathlib.Data.Nat.Notation
import Mathlib.Logic.Function.Basic

/-!
# Handles of a table that others use too

A table gives handles out under numbers that are used again after a close, such as the
descriptors of a process. Some are ours: each of our opens has a serial number, and our
closes are recorded with what they find under the number that they close.

`Accounted t owners`: the list holds just our open handles, each once, and our closes
have closed handles of ours, each once; what we have opened is owned, or closed.

* `Accounted.openOwn`, `Accounted.closeOwn`, `Accounted.closeAll`: what is opened gets an
  owner, and what is closed loses it.
* `Accounted.openForeign`, `Accounted.closeForeign`: what the others do.
-/

/-- Whose a handle is: others', or from one of our opens. -/
inductive HandleOwner
  | foreign
  | own (serial : ℕ)
  deriving DecidableEq, Repr

/-- An open handle. -/
structure HandleEntry (α : Type) where
  owner : HandleOwner
  data : α
  deriving DecidableEq, Repr

/-- The open handles, the number of our opens, and what our closes have found. -/
structure HandleTable (κ α : Type) where
  entries : κ → Option (HandleEntry α)
  nextSerial : ℕ
  closes : List (Option (HandleEntry α))

namespace HandleTable

variable {κ α : Type}

def empty : HandleTable κ α := ⟨fun _ => none, 0, []⟩

/-- The serial number of what a close has found. -/
def closedSerial : Option (HandleEntry α) → Option ℕ
  | some ⟨.own n, _⟩ => some n
  | _ => none

/-- The serial numbers of what our closes have closed. -/
def closedSerials (t : HandleTable κ α) : List ℕ := t.closes.filterMap closedSerial

/-- **The account of our handles.** -/
structure Accounted (t : HandleTable κ α) (owners : List (κ × ℕ)) : Prop where
  nodup : owners.Nodup
  owned : ∀ k n, (k, n) ∈ owners ↔ ∃ a, t.entries k = some ⟨.own n, a⟩
  serial_inj : ∀ k k' n, (k, n) ∈ owners → (k', n) ∈ owners → k = k'
  serial_lt : ∀ k n, (k, n) ∈ owners → n < t.nextSerial
  closes : ∀ c ∈ t.closes, ∃ n a, c = some ⟨.own n, a⟩
  closed_lt : ∀ n ∈ t.closedSerials, n < t.nextSerial
  closed_nodup : t.closedSerials.Nodup
  disjoint : ∀ k n, (k, n) ∈ owners → n ∉ t.closedSerials
  opened : ∀ n < t.nextSerial, n ∈ t.closedSerials ∨ ∃ k, (k, n) ∈ owners

variable {t : HandleTable κ α} {owners owners' : List (κ × ℕ)} {k : κ} {n : ℕ} {a : α}

theorem Accounted.empty : Accounted (empty : HandleTable κ α) [] where
  nodup := List.nodup_nil
  owned _ _ := ⟨nofun, nofun⟩
  serial_inj := nofun
  serial_lt := nofun
  closes := nofun
  closed_lt := nofun
  closed_nodup := List.nodup_nil
  disjoint := nofun
  opened := nofun

/-- It does not matter in which order the owners are listed. -/
theorem Accounted.perm (h : Accounted t owners) (hp : owners.Perm owners') :
    Accounted t owners' := by
  refine ⟨hp.nodup_iff.1 h.nodup, ?_, ?_, ?_, h.closes, h.closed_lt, h.closed_nodup, ?_, ?_⟩
  · intro k n
    rw [← hp.mem_iff]
    exact h.owned k n
  · intro k k' n hk hk'
    exact h.serial_inj k k' n (hp.mem_iff.2 hk) (hp.mem_iff.2 hk')
  · intro k n hk
    exact h.serial_lt k n (hp.mem_iff.2 hk)
  · intro k n hk
    exact h.disjoint k n (hp.mem_iff.2 hk)
  · intro n hn
    exact (h.opened n hn).imp_right fun ⟨k, hk⟩ => ⟨k, hp.mem_iff.1 hk⟩

/-- Under a number that is not open, or is the others', nothing is ours. -/
theorem Accounted.notMem (h : Accounted t owners)
    (hk : t.entries k = none ∨ ∃ a, t.entries k = some ⟨.foreign, a⟩) : (k, n) ∉ owners := by
  intro hmem
  obtain ⟨a, ha⟩ := (h.owned k n).1 hmem
  rcases hk with hk | ⟨a', hk⟩
  · rw [hk] at ha; cases ha
  · rw [hk] at ha; cases ha

/-- What is owned apart from the closed handles is not among them. -/
theorem Accounted.notMem_closed {closed rest : List (κ × ℕ)} (h : Accounted t (closed ++ rest))
    (hk : (k, n) ∈ rest) : k ∉ closed.map Prod.fst := by
  intro hmem
  obtain ⟨⟨k', n'⟩, hkn, rfl⟩ := List.mem_map.1 hmem
  obtain ⟨a, ha⟩ := (h.owned k' n).1 (List.mem_append_right _ hk)
  obtain ⟨a', ha'⟩ := (h.owned k' n').1 (List.mem_append_left _ hkn)
  rw [ha] at ha'
  cases ha'
  exact (List.nodup_append.1 h.nodup).2.2 _ hkn _ hk rfl

/-- The others' handles are not among those that are closed. -/
theorem Accounted.foreign_notMem {closed rest : List (κ × ℕ)} (h : Accounted t (closed ++ rest))
    (hk : t.entries k = some ⟨.foreign, a⟩) : k ∉ closed.map Prod.fst := by
  intro hmem
  obtain ⟨⟨k', n'⟩, hkn, rfl⟩ := List.mem_map.1 hmem
  exact h.notMem (Or.inr ⟨a, hk⟩) (List.mem_append_left _ hkn)

/-! ## Opens and closes -/

variable [DecidableEq κ]

/-- Our open, which has been given `k`. -/
def openOwn (t : HandleTable κ α) (k : κ) (a : α) : HandleTable κ α :=
  { t with
    entries := Function.update t.entries k (some ⟨.own t.nextSerial, a⟩)
    nextSerial := t.nextSerial + 1 }

/-- Our close. -/
def closeOwn (t : HandleTable κ α) (k : κ) : HandleTable κ α :=
  { t with
    entries := Function.update t.entries k none
    closes := t.closes ++ [t.entries k] }

/-- An open of the others, which has been given `k`. -/
def openForeign (t : HandleTable κ α) (k : κ) (a : α) : HandleTable κ α :=
  { t with entries := Function.update t.entries k (some ⟨.foreign, a⟩) }

/-- A close of the others. -/
def closeForeign (t : HandleTable κ α) (k : κ) : HandleTable κ α :=
  { t with entries := Function.update t.entries k none }

theorem Accounted.openOwn (h : Accounted t owners) (hk : t.entries k = none) (a : α) :
    Accounted (t.openOwn k a) ((k, t.nextSerial) :: owners) := by
  have hnew : ∀ n, (k, n) ∉ owners := fun n => h.notMem (Or.inl hk)
  refine ⟨List.nodup_cons.2 ⟨hnew _, h.nodup⟩, ?_, ?_, ?_, h.closes, ?_, h.closed_nodup, ?_, ?_⟩
  · intro k' n
    by_cases hkk : k' = k
    · subst hkk
      simp only [HandleTable.openOwn, Function.update_self, List.mem_cons, hnew n, or_false]
      constructor
      · intro heq
        cases heq
        exact ⟨a, rfl⟩
      · rintro ⟨a', heq⟩
        cases heq
        rfl
    · have hne : (k', n) ≠ (k, t.nextSerial) := fun heq => hkk (congrArg Prod.fst heq)
      simp only [HandleTable.openOwn, Function.update_of_ne hkk, List.mem_cons, hne, false_or]
      exact h.owned k' n
  · intro k₁ k₂ n h₁ h₂
    rcases List.mem_cons.1 h₁ with h₁ | h₁ <;> rcases List.mem_cons.1 h₂ with h₂ | h₂
    -- the new serial number is above all that were given
    · exact (congrArg Prod.fst h₁).trans (congrArg Prod.fst h₂).symm
    · have := h.serial_lt _ _ h₂
      have := congrArg Prod.snd h₁
      simp only at this
      omega
    · have := h.serial_lt _ _ h₁
      have := congrArg Prod.snd h₂
      simp only at this
      omega
    · exact h.serial_inj _ _ _ h₁ h₂
  · intro k' n hmem
    show n < t.nextSerial + 1
    rcases List.mem_cons.1 hmem with heq | hmem
    · cases heq
      exact Nat.lt_succ_self _
    · exact Nat.lt_succ_of_lt (h.serial_lt k' n hmem)
  · intro n hn
    exact Nat.lt_succ_of_lt (h.closed_lt n hn)
  · intro k' n hmem hcl
    rcases List.mem_cons.1 hmem with heq | hmem
    · cases heq
      exact absurd (h.closed_lt _ hcl) (Nat.lt_irrefl _)
    · exact h.disjoint k' n hmem hcl
  · intro n hn
    rcases Nat.lt_succ_iff_lt_or_eq.1 hn with hn | rfl
    · exact (h.opened n hn).imp_right fun ⟨k', hk'⟩ => ⟨k', List.mem_cons_of_mem _ hk'⟩
    · exact Or.inr ⟨k, List.mem_cons_self⟩

theorem closedSerials_closeOwn (hk : t.entries k = some ⟨.own n, a⟩) :
    (t.closeOwn k).closedSerials = t.closedSerials ++ [n] := by
  simp [closedSerials, closeOwn, hk, closedSerial]

theorem Accounted.closeOwn (h : Accounted t ((k, n) :: owners)) :
    Accounted (t.closeOwn k) owners := by
  obtain ⟨hmem, hnodup⟩ := List.nodup_cons.1 h.nodup
  obtain ⟨a, ha⟩ := (h.owned k n).1 List.mem_cons_self
  have hcons : ∀ k' n', (k', n') ∈ owners → (k', n') ∈ (k, n) :: owners :=
    fun _ _ => List.mem_cons_of_mem _
  have hkey : ∀ n', (k, n') ∉ owners := by
    intro n' hn'
    obtain ⟨a', ha'⟩ := (h.owned k n').1 (hcons _ _ hn')
    rw [ha] at ha'
    cases ha'
    exact hmem hn'
  have hserials := closedSerials_closeOwn ha
  refine ⟨hnodup, ?_, ?_, ?_, ?_, ?_, ?_, ?_, ?_⟩
  · intro k' n'
    by_cases hkk : k' = k
    · subst hkk
      simp [HandleTable.closeOwn, hkey n']
    · have hne : (k', n') ≠ (k, n) := fun heq => hkk (congrArg Prod.fst heq)
      have howned := h.owned k' n'
      simp only [List.mem_cons, hne, false_or] at howned
      simp only [HandleTable.closeOwn, Function.update_of_ne hkk]
      exact howned
  · intro k₁ k₂ n' h₁ h₂
    exact h.serial_inj k₁ k₂ n' (hcons _ _ h₁) (hcons _ _ h₂)
  · intro k' n' h'
    exact h.serial_lt k' n' (hcons _ _ h')
  · intro c hc
    rcases List.mem_append.1 hc with hc | hc
    · exact h.closes c hc
    · exact ⟨n, a, (List.mem_singleton.1 hc).trans ha⟩
  · intro n' hn'
    rw [hserials] at hn'
    rcases List.mem_append.1 hn' with hn' | hn'
    · exact h.closed_lt n' hn'
    · rw [List.mem_singleton.1 hn']
      exact h.serial_lt k n List.mem_cons_self
  · rw [hserials]
    have hfresh := h.disjoint k n List.mem_cons_self
    exact h.closed_nodup.append (List.nodup_singleton n) (by simpa using hfresh)
  · intro k' n' h' hcl
    rw [hserials] at hcl
    rcases List.mem_append.1 hcl with hcl | hcl
    · exact h.disjoint k' n' (hcons _ _ h') hcl
    · -- the serial number just closed has no other owner
      rw [List.mem_singleton.1 hcl] at h'
      have heq := h.serial_inj k' k n (hcons _ _ h') List.mem_cons_self
      rw [heq] at h'
      exact hmem h'
  · intro n' hn'
    rw [hserials, List.mem_append]
    rcases h.opened n' hn' with hcl | ⟨k', hk'⟩
    · exact Or.inl (Or.inl hcl)
    · rcases List.mem_cons.1 hk' with heq | hk'
      · exact Or.inl (Or.inr (List.mem_singleton.2 (congrArg Prod.snd heq)))
      · exact Or.inr ⟨k', hk'⟩

/-- Our closes, one after the other. -/
def closeAll (t : HandleTable κ α) (ks : List κ) : HandleTable κ α :=
  ks.foldl HandleTable.closeOwn t

theorem closeAll_append (t : HandleTable κ α) (ks ks' : List κ) :
    t.closeAll (ks ++ ks') = (t.closeAll ks).closeAll ks' := List.foldl_append

theorem Accounted.closeAll {closed rest : List (κ × ℕ)} (h : Accounted t (closed ++ rest)) :
    Accounted (t.closeAll (closed.map Prod.fst)) rest := by
  induction closed generalizing t with
  | nil => exact h
  | cons kn closed ih => exact ih h.closeOwn

/-- The closes do not touch the other handles. -/
theorem closeAll_entries (t : HandleTable κ α) {ks : List κ} (hk : k ∉ ks) :
    (t.closeAll ks).entries k = t.entries k := by
  induction ks generalizing t with
  | nil => rfl
  | cons k' ks ih =>
    have hne : k ≠ k' := fun heq => hk (heq ▸ List.mem_cons_self)
    have hks : k ∉ ks := fun hmem => hk (List.mem_cons_of_mem _ hmem)
    calc ((t.closeOwn k').closeAll ks).entries k = (t.closeOwn k').entries k := ih _ hks
      _ = t.entries k := Function.update_of_ne hne _ _

/-- The others change only what is not ours. -/
theorem Accounted.foreign (h : Accounted t owners)
    (hk : t.entries k = none ∨ ∃ a, t.entries k = some ⟨.foreign, a⟩)
    {e : Option (HandleEntry α)} (he : ∀ n a, e ≠ some ⟨.own n, a⟩) :
    Accounted { t with entries := Function.update t.entries k e } owners := by
  refine ⟨h.nodup, ?_, h.serial_inj, h.serial_lt, h.closes, h.closed_lt, h.closed_nodup,
    h.disjoint, h.opened⟩
  intro k' n
  by_cases hkk : k' = k
  · subst hkk
    simp only [Function.update_self]
    constructor
    · intro hmem
      exact absurd hmem (h.notMem hk)
    · rintro ⟨a, ha⟩
      exact absurd ha (he n a)
  · simp only [Function.update_of_ne hkk]
    exact h.owned k' n

theorem Accounted.openForeign (h : Accounted t owners) (hk : t.entries k = none) (a : α) :
    Accounted (t.openForeign k a) owners :=
  h.foreign (Or.inl hk) fun _ _ => nofun

theorem Accounted.closeForeign (h : Accounted t owners)
    (hk : t.entries k = some ⟨.foreign, a⟩) : Accounted (t.closeForeign k) owners :=
  h.foreign (Or.inr ⟨a, hk⟩) fun _ _ => nofun

end HandleTable
