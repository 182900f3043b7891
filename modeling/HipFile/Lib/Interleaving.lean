import HipFile.Lib.Table
import Mathlib.Algebra.BigOperators.Group.List.Basic

/-!
# Actions of several parties in any order

Each party has a list of actions that it performs in order; all go into one log.

* `All.put`, `All.perform`: what holds of all actions that are handed out holds of all
  that are performed.
* `weight_put`, `weight_perform`, `weight_done`: a weight of actions, added up, changes
  only when actions are handed out, and is that of the log when all are performed.
-/

/-- The actions performed, and those that the parties still have to perform. -/
structure Interleaving (κ α : Type) where
  log : List α
  pending : Table κ (List α)

namespace Interleaving

variable {κ α : Type} [DecidableEq κ] {s s' : Interleaving κ α} {k : κ} {a : α} {acts : List α}

def init : Interleaving κ α := ⟨[], ∅⟩

/-- The party has nothing to perform. -/
def Idle (s : Interleaving κ α) (k : κ) : Prop := ∀ acts, s.pending.lookup k = some acts → acts = []

/-- Nobody has anything to perform, if no list of actions has. -/
theorem idle_of_values (h : ∀ acts ∈ Table.values s.pending, acts = []) : ∀ k, s.Idle k :=
  fun k acts hk => h acts (Table.mem_values.2 ⟨k, hk⟩)

/-- A party gets actions to perform. -/
def put (s : Interleaving κ α) (k : κ) (acts : List α) : Interleaving κ α :=
  { s with pending := s.pending.insert k acts }

/-- A party performs its next action. -/
def perform (s : Interleaving κ α) (k : κ) : Option (α × Interleaving κ α) :=
  match s.pending.lookup k with
  | some (a :: acts) => some (a, ⟨s.log ++ [a], s.pending.insert k acts⟩)
  | _ => none

theorem perform_cases (h : s.perform k = some (a, s')) : ∃ acts,
    s.pending.lookup k = some (a :: acts) ∧ s' = ⟨s.log ++ [a], s.pending.insert k acts⟩ := by
  unfold perform at h
  split at h
  · rename_i a' acts hk
    cases h
    exact ⟨acts, hk, rfl⟩
  · cases h

/-! ## All actions -/

/-- All actions, performed or not, meet `P`. -/
structure All (P : α → Prop) (s : Interleaving κ α) : Prop where
  log : ∀ a ∈ s.log, P a
  pending : ∀ k acts, s.pending.lookup k = some acts → ∀ a ∈ acts, P a

variable {P : α → Prop}

theorem All.init : All P (init : Interleaving κ α) := ⟨nofun, nofun⟩

theorem All.put (h : All P s) (k : κ) (hacts : ∀ a ∈ acts, P a) : All P (s.put k acts) := by
  refine ⟨h.log, ?_⟩
  intro k' acts' hk'
  rcases Table.lookup_insert_cases hk' with ⟨rfl, rfl⟩ | ⟨-, hk'⟩
  · exact hacts
  · exact h.pending k' acts' hk'

theorem All.perform (h : All P s) (hp : s.perform k = some (a, s')) : All P s' := by
  obtain ⟨acts, hk, rfl⟩ := perform_cases hp
  have hall := h.pending k _ hk
  refine ⟨?_, ?_⟩
  · intro a' ha'
    rcases List.mem_append.1 ha' with ha' | ha'
    · exact h.log a' ha'
    · rw [List.mem_singleton.1 ha']
      exact hall a List.mem_cons_self
  · intro k' acts' hk'
    rcases Table.lookup_insert_cases hk' with ⟨rfl, rfl⟩ | ⟨-, hk'⟩
    · exact fun a' ha' => hall a' (List.mem_cons_of_mem _ ha')
    · exact h.pending k' acts' hk'

/-! ## Weights -/

variable {M : Type} [AddCommMonoid M] (w : α → M)

/-- Actions without weight weigh nothing together. -/
theorem sum_weight_eq_zero {w : α → M} (h : ∀ a ∈ acts, w a = 0) : (acts.map w).sum = 0 := by
  refine List.sum_eq_zero fun x hx => ?_
  obtain ⟨a, ha, rfl⟩ := List.mem_map.1 hx
  exact h a ha

/-- The weight of all actions, performed or not. -/
def weight (s : Interleaving κ α) : M :=
  (s.log.map w).sum + ((Table.values s.pending).map fun acts => (acts.map w).sum).sum

/-- The weight, with that of one party's actions apart. -/
theorem weight_eq (hk : s.pending.lookup k = some acts) : weight w s =
    (s.log.map w).sum + ((acts.map w).sum +
      ((Table.values (s.pending.erase k)).map fun acts => (acts.map w).sum).sum) := by
  have hperm := (Table.values_perm hk).map fun acts => (acts.map w).sum
  rw [weight, hperm.sum_eq, List.map_cons, List.sum_cons]

theorem weight_insert (log : List α) (pending : Table κ (List α)) (k : κ) (acts : List α) :
    weight w ⟨log, pending.insert k acts⟩ = (log.map w).sum + ((acts.map w).sum +
      ((Table.values (pending.erase k)).map fun acts => (acts.map w).sum).sum) := by
  rw [weight, Table.values_insert, List.map_cons, List.sum_cons]

omit [DecidableEq κ] in
@[simp] theorem weight_init : weight w (init : Interleaving κ α) = 0 := add_zero _

theorem weight_put (h : s.Idle k) (acts : List α) :
    weight w (s.put k acts) = weight w s + (acts.map w).sum := by
  have herase : weight w s = (s.log.map w).sum +
      ((Table.values (s.pending.erase k)).map fun acts => (acts.map w).sum).sum := by
    cases hk : s.pending.lookup k with
    | none => rw [weight, Table.values_erase_of_none hk]
    | some acts' =>
      obtain rfl := h acts' hk
      rw [weight_eq w hk, List.map_nil, List.sum_nil, zero_add]
  rw [put, weight_insert, herase, add_assoc, add_comm (acts.map w).sum]

theorem weight_perform (h : s.perform k = some (a, s')) : weight w s' = weight w s := by
  obtain ⟨acts, hk, rfl⟩ := perform_cases h
  rw [weight_insert, weight_eq w hk, List.map_append, List.sum_append, List.map_cons,
    List.map_nil, List.sum_singleton, List.map_cons, List.sum_cons]
  simp only [add_assoc]

theorem weight_done (h : ∀ k, s.Idle k) : weight w s = (s.log.map w).sum := by
  have hzero : ((Table.values s.pending).map fun acts => (acts.map w).sum).sum = 0 := by
    refine sum_weight_eq_zero fun acts hacts => ?_
    obtain ⟨k, hk⟩ := Table.mem_values.1 hacts
    rw [h k acts hk, List.map_nil, List.sum_nil]
  rw [weight, hzero, add_zero]

end Interleaving
