import Mathlib.Logic.Function.Basic
import Mathlib.Logic.Relation
import Mathlib.Tactic.Common

/-!
# Chains of links

Each node has at most one link, to another node or to itself. A chain follows the links
from a node on.

* `Leads next a b`: the chain from `a` comes to `b`.
* `Ends next a`: the chain from `a` ends; `AllEnd`: every chain does.
* `Ends.not_leads`: a chain that ends never comes back.
* `allEnd_update_iff`: a new link keeps all chains finite exactly if the chain from its
  target does not come to its source.
-/

namespace Links

variable {ι : Type*} {next : ι → Option ι} {a b c : ι}

/-- The chain from a node comes to another. -/
def Leads (next : ι → Option ι) : ι → ι → Prop :=
  Relation.ReflTransGen fun a b => next a = some b

/-- The chain from a node ends. -/
def Ends (next : ι → Option ι) : ι → Prop := Acc fun b a => next a = some b

/-- Every chain ends. -/
def AllEnd (next : ι → Option ι) : Prop := ∀ a, Ends next a

theorem Ends.of_none (h : next a = none) : Ends next a := by
  refine Acc.intro a fun b hb => ?_
  rw [h] at hb
  cases hb

theorem Ends.of_some (h : next a = some b) (hb : Ends next b) : Ends next a := by
  refine Acc.intro a fun c hc => ?_
  rw [h] at hc
  obtain rfl := Option.some.inj hc
  exact hb

/-- **A chain that ends never comes back.** -/
theorem Ends.not_leads (ha : Ends next a) : ∀ b, next a = some b → ¬ Leads next b a := by
  induction ha with
  | intro a _ ih =>
    intro b hb hback
    rcases Relation.ReflTransGen.cases_head hback with rfl | ⟨c, hc, hca⟩
    · exact ih b hb b hb .refl
    · -- from the next node on, the chain would come back as well
      exact ih b hb c hc (hca.tail hb)

/-- A chain that does not end has a next node, from which it does not end. -/
theorem exists_next_of_not_ends (h : ¬ Ends next a) : ∃ b, next a = some b ∧ ¬ Ends next b := by
  cases hnext : next a with
  | none => exact absurd (Ends.of_none hnext) h
  | some b => exact ⟨b, rfl, fun hb => h (Ends.of_some hnext hb)⟩

/-! ## A new link -/

variable [DecidableEq ι]

/-- A chain comes to a node by the same links, whatever the link of that node. -/
theorem leads_update (x : Option ι) (h : Leads next b a) :
    Leads (Function.update next a x) b a := by
  induction h using Relation.ReflTransGen.head_induction_on with
  | refl => exact .refl
  | @head c d hlink _ ih =>
    by_cases hca : c = a
    · rw [hca]
      exact .refl
    · have hlink' : Function.update next a x c = some d := by
        rw [Function.update_of_ne hca]
        exact hlink
      exact .head hlink' ih

/-- The chains that do not come to the node are those that there were. -/
theorem Ends.update (x : Option ι) (hb : Ends next b) (h : ¬ Leads next b a) :
    Ends (Function.update next a x) b := by
  induction hb with
  | intro b _ ih =>
    have hba : b ≠ a := by
      rintro rfl
      exact h .refl
    refine Acc.intro b fun c hc => ?_
    rw [Function.update_of_ne hba] at hc
    exact ih c hc fun hca => h (hca.head hc)

/-- **When a new link leaves all chains finite.** -/
theorem allEnd_update_iff (hall : AllEnd next) :
    AllEnd (Function.update next a (some b)) ↔ ¬ Leads next b a := by
  constructor
  · intro hnew hlead
    have hlink : Function.update next a (some b) a = some b := Function.update_self a _ next
    exact (hnew a).not_leads b hlink (leads_update _ hlead)
  · intro hlead c
    have ha : Ends (Function.update next a (some b)) a :=
      Ends.of_some (Function.update_self a _ next) ((hall b).update _ hlead)
    induction hall c with
    | intro c _ ih =>
      by_cases hca : c = a
      · rw [hca]
        exact ha
      · refine Acc.intro c fun d hd => ?_
        rw [Function.update_of_ne hca] at hd
        exact ih d hd

end Links
