import Mathlib.Tactic.Common
import Mathlib.Data.Nat.Notation

/-!
# Machines and their runs

A machine is an initial state and a partial step function on labels; an
interleaving of several parties is a machine whose labels name the party that
moves. `Reaches M G` holds of the states reached by the runs all of whose steps
meet the guard `G`.

* `Reaches.invariant`: what the initial state has and every guarded step keeps; `Reaches.mono`: a
  weaker guard.
* `reaches_run`, `reachable_of_run`: a run given as a list of labels is a run.
* `exists_end`: where the runs are bounded, each can be continued to its end.
* `runMeets_iff`: a run meets the guard exactly if a property still holds at its end
  that only a step beside the guard destroys, and for good.
* `runKeeps_iff`: a run meets the guard exactly if a property holds in all of its states
  that a step beside the guard destroys.
-/

/-- A deterministic machine: a label decides the step, or that there is none. -/
structure Machine (σ ℓ : Type*) where
  init : σ
  step : σ → ℓ → Option σ

namespace Machine

variable {σ ℓ : Type*} (M : Machine σ ℓ)

/-- **The states of the runs whose steps all meet `G`.** -/
inductive Reaches (G : σ → ℓ → Prop) : σ → Prop
  | init : Reaches G M.init
  | step {s s' : σ} (l : ℓ) : Reaches G s → G s l → M.step s l = some s' → Reaches G s'

/-- The states of all runs. -/
abbrev Reachable : σ → Prop := M.Reaches fun _ _ => True

/-- The state after the labels of a list, if each has a step. -/
def run : σ → List ℓ → Option σ
  | s, [] => some s
  | s, l :: ls => (M.step s l).bind fun s' => run s' ls

variable {G : σ → ℓ → Prop}

/-- Every step of the run from `s` along the labels meets `G`. -/
def RunMeets (G : σ → ℓ → Prop) : σ → List ℓ → Prop
  | _, [] => True
  | s, l :: ls => G s l ∧
    match M.step s l with
    | some s' => RunMeets G s' ls
    | none => True

instance RunMeets.decidable [∀ s l, Decidable (G s l)] :
    ∀ (ls : List ℓ) (s : σ), Decidable (M.RunMeets G s ls)
  | [], _ => isTrue trivial
  | l :: ls, s =>
    match h : M.step s l with
    | some s' =>
      have := RunMeets.decidable ls s'
      decidable_of_iff (G s l ∧ M.RunMeets G s' ls) (by rw [RunMeets, h])
    | none => decidable_of_iff (G s l ∧ True) (by rw [RunMeets, h])

/-- `P` holds in every state of the run from `s` along the labels. -/
def RunKeeps (P : σ → Prop) (s : σ) (ls : List ℓ) : Prop :=
  ∀ ls' s', ls' <+: ls → M.run s ls' = some s' → P s'

variable {M}

/-- A run whose steps meet more. -/
theorem Reaches.mono {G' : σ → ℓ → Prop} (hG : ∀ s l, G s l → G' s l) {s : σ}
    (hs : M.Reaches G s) : M.Reaches G' s := by
  induction hs with
  | init => exact .init
  | step l _ hg hst ih => exact .step l ih (hG _ _ hg) hst

/-- **The invariant rule.** -/
theorem Reaches.invariant {I : σ → Prop} (h0 : I M.init)
    (hstep : ∀ s l s', I s → G s l → M.step s l = some s' → I s') {s : σ} (hs : M.Reaches G s) :
    I s := by
  induction hs with
  | init => exact h0
  | step l _ hg hst ih => exact hstep _ l _ ih hg hst

theorem reaches_run : ∀ {ls : List ℓ} {s s' : σ}, M.Reaches G s → M.RunMeets G s ls →
    M.run s ls = some s' → M.Reaches G s' := by
  intro ls
  induction ls with
  | nil => intro s s' hs _ h; simp only [run, Option.some.injEq] at h; exact h ▸ hs
  | cons l ls ih =>
    intro s s' hs hg h
    cases hst : M.step s l with
    | none => simp [run, hst] at h
    | some s₁ =>
      simp only [run, hst, Option.bind_some] at h
      simp only [RunMeets, hst] at hg
      exact ih (.step l hs hg.1 hst) hg.2 h

/-- Labels that every state allows. -/
theorem runMeets_of_forall : ∀ {ls : List ℓ}, (∀ l ∈ ls, ∀ s, G s l) → ∀ s, M.RunMeets G s ls := by
  intro ls
  induction ls with
  | nil => intro _ s; trivial
  | cons l ls ih =>
    intro h s
    refine ⟨h l List.mem_cons_self s, ?_⟩
    cases M.step s l with
    | some s' => exact ih (fun l' hl' => h l' (List.mem_cons_of_mem l hl')) s'
    | none => trivial

/-- A run from the initial state, given by its labels. -/
theorem reachable_of_run {ls : List ℓ} {s : σ} (h : M.run M.init ls = some s) : M.Reachable s :=
  reaches_run .init (runMeets_of_forall (fun _ _ _ => trivial) _) h

theorem run_append : ∀ (ls ls' : List ℓ) (s : σ),
    M.run s (ls ++ ls') = (M.run s ls).bind fun s' => M.run s' ls' := by
  intro ls ls'
  induction ls with
  | nil => intro s; rfl
  | cons l ls ih =>
    intro s
    simp only [List.cons_append, run]
    cases M.step s l with
    | none => rfl
    | some s₁ => exact ih s₁

/-- A run that is continued by one step. -/
theorem run_concat (ls : List ℓ) (l : ℓ) (s : σ) :
    M.run s (ls ++ [l]) = (M.run s ls).bind fun s' => M.step s' l := by
  rw [run_append]
  cases M.run s ls with
  | none => rfl
  | some s' =>
    simp only [Option.bind_some, run]
    cases M.step s' l <;> rfl

/-- **A run can be continued to its end**, where no step is possible, if the runs are bounded. -/
theorem exists_end {s : σ} {N : ℕ} (hN : ∀ ls s', M.run s ls = some s' → ls.length ≤ N) :
    ∀ {n : ℕ} (ls : List ℓ) {s' : σ}, N ≤ ls.length + n → M.run s ls = some s' →
      ∃ ls' e, M.run s' ls' = some e ∧ ∀ l, M.step e l = none := by
  have hlonger : ∀ {ls l s' s₁}, M.run s ls = some s' → M.step s' l = some s₁ →
      M.run s (ls ++ [l]) = some s₁ ∧ ls.length + 1 ≤ N := by
    intro ls l s' s₁ hrun hst
    have hlong : M.run s (ls ++ [l]) = some s₁ := by
      rw [run_concat, hrun]
      exact hst
    have hlen := hN _ _ hlong
    rw [List.length_append, List.length_singleton] at hlen
    exact ⟨hlong, hlen⟩
  intro n
  induction n with
  | zero =>
    intro ls s' hn hrun
    refine ⟨[], s', rfl, fun l => ?_⟩
    cases hst : M.step s' l with
    | none => rfl
    | some s₁ =>
      have := (hlonger hrun hst).2
      omega
  | succ n ih =>
    intro ls s' hn hrun
    by_cases hend : ∀ l, M.step s' l = none
    · exact ⟨[], s', rfl, hend⟩
    · obtain ⟨l, hl⟩ := not_forall.1 hend
      obtain ⟨s₁, hst⟩ := Option.ne_none_iff_exists'.1 hl
      have hlen : N ≤ (ls ++ [l]).length + n := by
        rw [List.length_append, List.length_singleton]
        omega
      obtain ⟨ls', e, hrest, hlast⟩ := ih (ls ++ [l]) hlen (hlonger hrun hst).1
      exact ⟨l :: ls', e, by rw [run, hst, Option.bind_some, hrest], hlast⟩

/-- The invariant rule for a run from any state. -/
theorem run_invariant {I : σ → Prop} (hstep : ∀ s l s', I s → M.step s l = some s' → I s') :
    ∀ {ls : List ℓ} {s s' : σ}, I s → M.run s ls = some s' → I s' := by
  intro ls
  induction ls with
  | nil => intro s s' hi h; simp only [run, Option.some.injEq] at h; exact h ▸ hi
  | cons l ls ih =>
    intro s s' hi h
    obtain ⟨s₁, hst, hrun⟩ := Option.bind_eq_some_iff.1 h
    exact ih (hstep s l s₁ hi hst) hrun

/-- **The rule for an exact guard**, under an invariant `I`: guarded steps keep `P`, a
step beside the guard leads to `Q`, and no step leaves `Q`, which excludes `P`. -/
theorem runMeets_iff {I P Q : σ → Prop}
    (hI : ∀ s l s', I s → M.step s l = some s' → I s')
    (hP : ∀ s l s', I s → P s → G s l → M.step s l = some s' → P s')
    (hPQ : ∀ s l s', I s → P s → ¬ G s l → M.step s l = some s' → Q s')
    (hQ : ∀ s l s', I s → Q s → M.step s l = some s' → Q s')
    (hex : ∀ s, Q s → ¬ P s) : ∀ {ls : List ℓ} {s s' : σ}, I s → P s → M.run s ls = some s' →
      (P s' ↔ M.RunMeets G s ls) := by
  intro ls
  induction ls with
  | nil =>
    intro s s' _ hp h
    simp only [run, Option.some.injEq] at h
    exact ⟨fun _ => trivial, fun _ => h ▸ hp⟩
  | cons l ls ih =>
    intro s s' hi hp h
    obtain ⟨s₁, hst, hrun⟩ := Option.bind_eq_some_iff.1 h
    have hi₁ := hI s l s₁ hi hst
    simp only [RunMeets, hst]
    by_cases hg : G s l
    · rw [ih hi₁ (hP s l s₁ hi hp hg hst) hrun]
      exact ⟨fun hr => ⟨hg, hr⟩, fun hr => hr.2⟩
    · have hlost : ∀ s l s', I s ∧ Q s → M.step s l = some s' → I s' ∧ Q s' :=
        fun s l s' h hst => ⟨hI s l s' h.1 hst, hQ s l s' h.1 h.2 hst⟩
      have hq : I s' ∧ Q s' :=
        run_invariant (I := fun s => I s ∧ Q s) hlost ⟨hi₁, hPQ s l s₁ hi hp hg hst⟩ hrun
      exact ⟨fun hp' => absurd hp' (hex s' hq.2), fun hr => absurd hr.1 hg⟩

theorem runKeeps_nil {P : σ → Prop} {s : σ} : M.RunKeeps P s [] ↔ P s := by
  constructor
  · intro h
    exact h [] s List.nil_prefix rfl
  · intro h ls' s' hls hrun
    obtain rfl := List.prefix_nil.1 hls
    exact Option.some.inj hrun ▸ h

theorem runKeeps_cons {P : σ → Prop} {s s₁ : σ} {l : ℓ} {ls : List ℓ}
    (hst : M.step s l = some s₁) : M.RunKeeps P s (l :: ls) ↔ P s ∧ M.RunKeeps P s₁ ls := by
  constructor
  · intro h
    refine ⟨h [] s List.nil_prefix rfl, fun ls' s' hls hrun => ?_⟩
    have hcons : M.run s (l :: ls') = some s' := by rw [run, hst]; exact hrun
    exact h (l :: ls') s' (List.cons_prefix_cons.2 ⟨rfl, hls⟩) hcons
  · rintro ⟨hp, h⟩ ls' s' hls hrun
    rcases List.prefix_cons_iff.1 hls with rfl | ⟨ls₁, rfl, hls₁⟩
    · exact Option.some.inj hrun ▸ hp
    · rw [run, hst] at hrun
      exact h ls₁ s' hls₁ hrun

/-- **The rule for an exact guard of every state**, under an invariant `I`: from a state
with `P`, a step leads to one with `P` exactly if it is guarded. -/
theorem runKeeps_iff {I P : σ → Prop} (hI : ∀ s l s', I s → M.step s l = some s' → I s')
    (hP : ∀ s l s', I s → P s → M.step s l = some s' → (P s' ↔ G s l)) :
    ∀ {ls : List ℓ} {s s' : σ}, I s → P s → M.run s ls = some s' →
      (M.RunKeeps P s ls ↔ M.RunMeets G s ls) := by
  intro ls
  induction ls with
  | nil =>
    intro s s' _ hp _
    exact iff_of_true (runKeeps_nil.2 hp) trivial
  | cons l ls ih =>
    intro s s' hi hp h
    obtain ⟨s₁, hst, hrun⟩ := Option.bind_eq_some_iff.1 h
    have hstep := hP s l s₁ hi hp hst
    rw [runKeeps_cons hst]
    simp only [RunMeets, hst]
    by_cases hg : G s l
    · have hrest := ih (hI s l s₁ hi hst) (hstep.2 hg) hrun
      exact ⟨fun hk => ⟨hg, hrest.1 hk.2⟩, fun hm => ⟨hp, hrest.2 hm.2⟩⟩
    · have hlost : ¬ P s₁ := fun hp' => hg (hstep.1 hp')
      exact ⟨fun hk => absurd (hk.2 [] s₁ List.nil_prefix rfl) hlost, fun hm => absurd hm.1 hg⟩

end Machine
