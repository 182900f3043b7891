import HipFile.Proof.Locking
import Mathlib.Data.Fintype.BigOperators

/-!
# The library does not deadlock

* `Awaited`: as long as the completion thread sleeps with something to do, somebody is about to
  notify it.
* `exists_move`: as long as a party has anything to do, some party moves.
* `goesOn`: where no caller ends the process, the completion thread does not return.
* `runs_end`: a run has at most so many moves, and at its end all calls have returned and the
  queues are empty; where the process has not ended, no op waits to be freed.
-/

namespace HipFile.Locking

open Waiting

variable {ι τ : Type} {pol : Policy} {calls : ι → List (ApiCall τ)} {p q : Party ι τ}
  {s s' : Shared ι τ} {a a' : Agent τ} {op : Op τ} {ops : List (Op τ)} {held : List Lock}

/-! ## No notification is lost -/

/-- The party is about to notify the completion thread. -/
def Notifies (ops : List (Op τ)) : Prop :=
  ∃ rest, ops = .notifyOne :: rest ∨ ops = .unlock .monitor :: .notifyOne :: rest

/-- The completion thread has something to do. -/
def Shared.Due (s : Shared ι τ) : Prop := s.completedOps ≠ [] ∨ s.isFinished = true

/-- The completion thread sleeps, has something to do and has not been notified. -/
def Shared.Unnoticed (s : Shared ι τ) : Prop := s.asleep = true ∧ s.notified = false ∧ s.Due

section

variable [DecidableEq ι] [DecidableEq τ]

theorem unnoticed_sleep (hdue : ¬ s.Due) : ¬ (s.sleep p).Unnoticed := fun h => hdue h.2.2

theorem check_noticed (hawake : s.asleep = false) (h : s.check pol p = (s', a')) :
    ¬ s'.Unnoticed := by
  rintro ⟨hasleep', hnotified, hdue⟩
  unfold Shared.check at h
  split at h
  · obtain ⟨rfl, -⟩ := Prod.mk.inj h
    exact Bool.false_ne_true (hawake.symm.trans hasleep')
  · rename_i hcompleted
    split at h
    · obtain ⟨rfl, -⟩ := Prod.mk.inj h
      exact Bool.false_ne_true (hawake.symm.trans hasleep')
    · rename_i hfinished
      obtain ⟨rfl, -⟩ := Prod.mk.inj h
      refine unnoticed_sleep ?_ ⟨hasleep', hnotified, hdue⟩
      rintro (hne | hset)
      · exact hne hcompleted
      · exact hfinished hset

theorem recheck_noticed (hawake : s.asleep = false) (h : s.recheck p = (s', a')) :
    ¬ s'.Unnoticed := by
  rintro ⟨hasleep', hnotified, hdue⟩
  unfold Shared.recheck at h
  split at h
  · obtain ⟨rfl, -⟩ := Prod.mk.inj h
    exact Bool.false_ne_true (hawake.symm.trans hasleep')
  · rename_i hnone
    obtain ⟨rfl, -⟩ := Prod.mk.inj h
    exact unnoticed_sleep (fun hdue => hnone hdue.symm) ⟨hasleep', hnotified, hdue⟩

variable [Fintype τ]

/-- An ordinary operation leaves a notification ahead of its party, or what was there before. -/
theorem ordinary_unnoticed (hsignals : Signals (op :: ops)) (hop : op.Ordinary)
    (hstep : op.step pol p s ops held = some (s', a')) (hs' : s'.Unnoticed) :
    Notifies a'.ops ∨ s.Unnoticed ∧ ¬ Notifies (op :: ops) := by
  cases op with
  | lock l m =>
    simp only [Op.step, Option.ite_none_right_eq_some, Option.some.injEq] at hstep
    obtain ⟨-, hstep⟩ := hstep
    obtain ⟨rfl, rfl⟩ := Prod.mk.inj hstep
    exact Or.inr ⟨hs', by simp [Notifies]⟩
  | unlock l =>
    obtain ⟨rfl, rfl⟩ := Prod.mk.inj (Option.some.inj hstep)
    by_cases hnotifies : Notifies (.unlock l :: ops)
    · obtain ⟨rest, hrest | hrest⟩ := hnotifies
      · cases hrest
      · exact Or.inl ⟨rest, Or.inl (List.cons.inj hrest).2⟩
    · exact Or.inr ⟨hs', hnotifies⟩
  | launch t w =>
    simp only [Op.step, Option.ite_none_right_eq_some, Option.some.injEq] at hstep
    obtain ⟨-, hstep⟩ := hstep
    obtain ⟨rfl, rfl⟩ := Prod.mk.inj hstep
    exact Or.inr ⟨hs', by simp [Notifies]⟩
  | synchronize | join =>
    simp only [Op.step, Option.ite_none_right_eq_some, Option.some.injEq] at hstep
    obtain ⟨-, hstep⟩ := hstep
    obtain ⟨rfl, rfl⟩ := Prod.mk.inj hstep
    exact Or.inr ⟨hs', by simp [Notifies]⟩
  | pushCompleted | setFinished =>
    obtain ⟨rfl, rfl⟩ := Prod.mk.inj (Option.some.inj hstep)
    obtain ⟨⟨rest, rfl⟩, -⟩ := hsignals
    exact Or.inl ⟨rest, Or.inr rfl⟩
  | notifyOne =>
    obtain ⟨rfl, rfl⟩ := Prod.mk.inj (Option.some.inj hstep)
    obtain ⟨hasleep, hnotified, -⟩ := hs'
    have hasleep : s.asleep = true := hasleep
    have hnotified : (s.asleep || s.notified) = false := hnotified
    rw [hasleep] at hnotified
    cases hnotified
  | done | check | sleep | recheck | exit => exact absurd hop id

/-- **The completion thread goes to sleep only with nothing to do.** -/
theorem thread_noticed (h : Sound .completionThread s a)
    (hstep : step pol .completionThread s a = some (s', a')) : ¬ s'.Unnoticed := by
  obtain ⟨ops, held⟩ := a
  obtain ⟨howned, hdisciplined, hrole⟩ := h
  obtain ⟨hops, -⟩ | ⟨hops, hasleep⟩ | ⟨⟨body, last, hops, hbody, hlast⟩, hawake⟩ := hrole
  · obtain rfl : ops = [] := hops
    cases hstep
  · obtain rfl : ops = [.sleep] := hops
    simp only [step, Op.step, Option.ite_none_right_eq_some, Option.some.injEq] at hstep
    obtain ⟨rfl, -⟩ := Prod.mk.inj hstep.2
    exact fun hs' => Bool.false_ne_true hs'.1
  · obtain rfl : ops = body ++ [last] := hops
    cases body with
    | nil =>
      rcases hlast with rfl | rfl | rfl
      · exact check_noticed hawake (Option.some.inj hstep)
      · exact recheck_noticed hawake (Option.some.inj hstep)
      · obtain ⟨rfl, -⟩ := Prod.mk.inj (Option.some.inj hstep)
        exact fun hs' => Bool.false_ne_true (hawake.symm.trans hs'.1)
    | cons op body =>
      have hordinary := (hbody op List.mem_cons_self).ordinary
      have hop := ordinarily howned hdisciplined hstep hordinary
      exact fun hs' => Bool.false_ne_true (hawake.symm.trans (hop.asleep.symm.trans hs'.1))

/-- **What the other parties leave behind them**: a notification ahead, or what was there. -/
theorem other_unnoticed (hp : p ≠ .completionThread) (h : Sound p s a)
    (hstep : step pol p s a = some (s', a')) (hs' : s'.Unnoticed) :
    Notifies a'.ops ∨ s.Unnoticed ∧ ¬ Notifies a.ops := by
  obtain ⟨ops, held⟩ := a
  obtain ⟨howned, hdisciplined, hrole⟩ := h
  cases ops with
  | nil =>
    have hnone : ¬ Notifies ([] : List (Op τ)) := by simp [Notifies]
    unfold step at hstep
    simp only at hstep
    split at hstep
    · split at hstep
      · obtain ⟨rfl, -⟩ := Prod.mk.inj (Option.some.inj hstep)
        exact Or.inr ⟨hs', hnone⟩
      · cases hstep
    · cases hstep
  | cons op ops =>
    cases p with
    | caller i =>
      have hordinary := (hrole.called op List.mem_cons_self).ordinary
      exact ordinary_unnoticed hrole.signals hordinary hstep hs'
    | stream t =>
      obtain hnil | ⟨hqueue, body, hbody, hstreamed, hsignals⟩ := hrole
      · cases hnil
      cases body with
      | nil =>
        obtain ⟨rfl, rfl⟩ := List.cons.inj hbody
        obtain ⟨rfl, -⟩ := Prod.mk.inj (Option.some.inj hstep)
        exact Or.inr ⟨hs', by simp [Notifies]⟩
      | cons op' body =>
        obtain ⟨rfl, rfl⟩ := List.cons.inj hbody
        have hdone : Signals [(.done t : Op τ)] := trivial
        exact ordinary_unnoticed (hsignals.append hdone)
          (hstreamed op List.mem_cons_self).ordinary hstep hs'
    | completionThread => exact absurd rfl hp

/-- While the completion thread sleeps with something to do, somebody is about to notify it. -/
def Awaited (s : Shared ι τ × (Party ι τ → Agent τ)) : Prop :=
  s.1.Unnoticed → ∃ p, Notifies (s.2 p).ops

/-- **No notification is lost**, in the order of `completeOp`, `~AsyncMonitor` and
`completion_thread`. -/
theorem awaited (hpol : pol.unlocksFirst = true) {s : Shared ι τ × (Party ι τ → Agent τ)}
    (hs : (parties pol calls).machine.Reachable s) : Awaited s := by
  refine (parties_relyGuarantee hpol).also (fun h => Bool.noConfusion h.1) ?_ hs
  intro p s s' hsound _ hawaited hst hs'
  obtain ⟨a', hown, hagents⟩ := Parties.machine_step_cases hst
  by_cases hp : p = .completionThread
  · subst hp
    exact absurd hs' (thread_noticed (hsound _) hown)
  · obtain hnotifies | ⟨hbefore, hnot⟩ := other_unnoticed hp (hsound p) hown hs'
    · refine ⟨p, ?_⟩
      rwa [hagents, Function.update_self]
    · obtain ⟨q, hq⟩ := hawaited hbefore
      have hqp : q ≠ p := by
        rintro rfl
        exact hnot hq
      refine ⟨q, ?_⟩
      rwa [hagents, Function.update_of_ne hqp]

/-! ## Somebody moves -/

/-- What keeps an operation from being made. -/
theorem step_eq_none (h : op.step pol p s ops held = none) :
    (∃ l m, op = .lock l m ∧ pol.admits m ((s.owners l).map Prod.snd) = false) ∨
    (∃ t w, op = .launch t w ∧ pol.capacity ≤ (s.queues t).length) ∨
    (op = .synchronize ∧ ∃ t, s.queues t ≠ []) ∨
    op = .join ∧ s.exited = false ∨
    op = .sleep ∧ s.notified = false := by
  cases op with
  | lock l m =>
    simp only [Op.step, ite_eq_right_iff, reduceCtorEq, imp_false, Bool.not_eq_true] at h
    exact Or.inl ⟨l, m, rfl, h⟩
  | launch t w =>
    simp only [Op.step, ite_eq_right_iff, reduceCtorEq, imp_false, Nat.not_lt] at h
    exact Or.inr (Or.inl ⟨t, w, rfl, h⟩)
  | synchronize =>
    simp only [Op.step, ite_eq_right_iff, reduceCtorEq, imp_false, not_forall] at h
    exact Or.inr (Or.inr (Or.inl ⟨rfl, h⟩))
  | join =>
    simp only [Op.step, ite_eq_right_iff, reduceCtorEq, imp_false, Bool.not_eq_true] at h
    exact Or.inr (Or.inr (Or.inr (Or.inl ⟨rfl, h⟩)))
  | sleep =>
    simp only [Op.step, ite_eq_right_iff, reduceCtorEq, imp_false, Bool.not_eq_true] at h
    exact Or.inr (Or.inr (Or.inr (Or.inr ⟨rfl, h⟩)))
  | unlock | pushCompleted | setFinished | notifyOne | done | check | recheck | exit => cases h

end

/-- The party has nothing to do: a caller has returned, the queue of a stream is empty, and the
completion thread has ended, or sleeps with no op to free. -/
def Idle (p : Party ι τ) (s : Shared ι τ) (a : Agent τ) : Prop :=
  match p with
  | .caller _ => a.ops = []
  | .stream t => a.ops = [] ∧ s.queues t = []
  | .completionThread => a.ops = [] ∨ a.ops = [.sleep] ∧ ¬ s.Due

/-- The level at which an operation waits: a thread that is joined may sleep. -/
def Op.level : Op τ → ℕ
  | .lock l _ => l.rank
  | .launch .. | .synchronize => streamLevel
  | .sleep => 1
  | _ => 0

/-- The level at which a party waits. -/
def Agent.level (a : Agent τ) : ℕ := (a.ops.head?.map Op.level).getD 0

theorem level_le (a : Agent τ) : a.level ≤ 5 := by
  obtain ⟨ops, held⟩ := a
  cases ops with
  | nil => exact Nat.zero_le 5
  | cons op ops =>
    show op.level ≤ 5
    cases op with
    | lock l => cases l <;> simp [Op.level, Lock.rank]
    | _ => simp [Op.level, streamLevel]

/-- The first operation of a party. -/
def First (p : Party ι τ) (s : Shared ι τ) (op : Op τ) (ops : List (Op τ)) : Prop :=
  match p with
  | .caller _ => op.Called
  | .stream t => op.Streamed ∨ op = .done t
  | .completionThread =>
    op.Completing ∨ (op = .check ∨ op = .recheck ∨ op = .exit) ∨
      op = .sleep ∧ ops = [] ∧ s.asleep = true

theorem Sound.first (h : Sound p s ⟨op :: ops, held⟩) : First p s op ops := by
  obtain ⟨-, -, hrole⟩ := h
  cases p with
  | caller i => exact hrole.called op List.mem_cons_self
  | stream t =>
    obtain hnil | ⟨-, body, hbody, hstreamed, -⟩ := hrole
    · cases hnil
    · cases body with
      | nil => exact Or.inr (List.cons.inj hbody).1
      | cons op body =>
        obtain ⟨rfl, -⟩ := List.cons.inj hbody
        exact Or.inl (hstreamed _ List.mem_cons_self)
  | completionThread =>
    obtain ⟨hnil, -⟩ | ⟨hsleep, hasleep⟩ | ⟨⟨body, last, hops, hbody, hlast⟩, -⟩ := hrole
    · cases hnil
    · obtain ⟨rfl, rfl⟩ := List.cons.inj hsleep
      exact Or.inr (Or.inr ⟨rfl, rfl, hasleep⟩)
    · cases body with
      | nil =>
        obtain ⟨rfl, -⟩ := List.cons.inj hops
        exact Or.inr (Or.inl hlast)
      | cons op body =>
        obtain ⟨rfl, -⟩ := List.cons.inj hops
        exact Or.inl (hbody _ List.mem_cons_self)

/-- Who joins the completion thread has told it to finish. -/
theorem Sound.joins (h : Sound p s ⟨.join :: ops, held⟩) : s.isFinished = true := by
  have hfirst := h.first
  cases p with
  | caller i =>
    have hjoins : Joins s.isFinished (.join :: ops) := h.role.joins
    exact hjoins.1
  | stream | completionThread => simp [First, Op.Streamed, Op.Completing] at hfirst

/-- Only the completion thread sleeps. -/
theorem Sound.sleeps (h : Sound p s ⟨.sleep :: ops, held⟩) :
    p = .completionThread ∧ ops = [] ∧ s.asleep = true := by
  have hfirst := h.first
  cases p with
  | caller | stream => simp [First, Op.Called, Op.Streamed] at hfirst
  | completionThread =>
    refine ⟨rfl, ?_⟩
    simpa [First, Op.Completing] using hfirst

section

variable [DecidableEq ι] [DecidableEq τ] [Fintype τ]

/-- **Who holds a lock** moves, or waits above the lock. -/
theorem Sound.holds {l : Lock} (h : Sound q s a) (hl : l ∈ a.held) :
    ¬ Idle q s a ∧ (step pol q s a ≠ none ∨ l.rank < a.level) := by
  obtain ⟨ops, held⟩ := a
  obtain ⟨k, ks, hks, habove⟩ := h.disciplined.above hl
  cases ops with
  | nil => cases hks
  | cons op ops =>
    obtain ⟨rfl, -⟩ := List.cons.inj hks
    have hsleep : op ≠ .sleep := by
      rintro rfl
      obtain ⟨rfl, -⟩ : held = [] ∧ _ := h.disciplined
      cases hl
    refine ⟨?_, ?_⟩
    · cases q with
      | caller => exact List.cons_ne_nil _ _
      | stream => exact fun hidle => List.cons_ne_nil _ _ hidle.1
      | completionThread =>
        rintro (hops | ⟨hops, -⟩)
        · cases hops
        · exact hsleep (List.cons.inj hops).1
    · by_cases hstep : op.step pol q s ops held = none
      · right
        obtain ⟨l', m, rfl, -⟩ | ⟨t, w, rfl, -⟩ | ⟨rfl, -⟩ | ⟨rfl, -⟩ | ⟨rfl, -⟩ :=
          step_eq_none hstep
        · exact habove
        · exact habove
        · exact habove
        · exact absurd habove (Nat.not_lt_zero _)
        · exact absurd rfl hsleep
      · exact Or.inl hstep

/-- **A stream with work** moves, or waits for the lock of the `AsyncMonitor`. -/
theorem Sound.works {t : τ} (h : Sound (.stream t) s a) (hqueue : s.queues t ≠ []) :
    ¬ Idle (.stream t) s a ∧ (step pol (.stream t) s a ≠ none ∨ streamLevel < a.level) := by
  refine ⟨fun hidle => hqueue hidle.2, ?_⟩
  obtain ⟨ops, held⟩ := a
  cases ops with
  | nil =>
    left
    unfold step
    simp only
    split
    · exact Option.some_ne_none _
    · rename_i hempty
      exact absurd hempty hqueue
  | cons op ops =>
    obtain hop | rfl := h.first
    · cases op with
      | lock l m =>
        cases l with
        | monitor => exact Or.inr (by decide : streamLevel < 5)
        | _ => exact absurd hop id
      | unlock | pushCompleted | notifyOne => exact Or.inl (Option.some_ne_none _)
      | _ => exact absurd hop id
    · exact Or.inl (Option.some_ne_none _)

/-- **Who is about to notify** moves. -/
theorem Sound.notifies (h : Sound q s a) (hnotifies : Notifies a.ops) :
    ¬ Idle q s a ∧ (step pol q s a ≠ none ∨ 1 < a.level) := by
  obtain ⟨ops, held⟩ := a
  obtain ⟨rest, hrest⟩ := hnotifies
  refine ⟨?_, Or.inl ?_⟩
  · cases q with
    | caller =>
      intro hidle
      obtain rfl : ops = [] := hidle
      simp at hrest
    | stream =>
      rintro ⟨hidle, -⟩
      obtain rfl : ops = [] := hidle
      simp at hrest
    | completionThread =>
      rintro (hidle | ⟨hidle, -⟩)
      · obtain rfl : ops = [] := hidle
        simp at hrest
      · obtain rfl : ops = [.sleep] := hidle
        simp at hrest
  · obtain rfl | rfl : ops = _ ∨ ops = _ := hrest
    · exact Option.some_ne_none _
    · exact Option.some_ne_none _

/-- **A completion thread that has been told to finish** ends, or waits above its join. -/
theorem Sound.finishes (h : Sound .completionThread s a) (hfinished : s.isFinished = true)
    (hexited : s.exited = false) :
    ¬ Idle .completionThread s a ∧ (step pol .completionThread s a ≠ none ∨ 0 < a.level) := by
  obtain ⟨ops, held⟩ := a
  cases ops with
  | nil =>
    exfalso
    obtain ⟨-, hexit, -⟩ | ⟨hsleep, -⟩ | ⟨⟨body, last, hops, -⟩, -⟩ := h.role
    · exact absurd (hexit.symm.trans hexited) (by decide)
    · cases hsleep
    · exact List.append_ne_nil_of_right_ne_nil _ (List.cons_ne_nil _ _) hops.symm
  | cons op ops =>
    refine ⟨?_, ?_⟩
    · rintro (hnil | ⟨-, hdue⟩)
      · cases hnil
      · exact hdue (Or.inr hfinished)
    · obtain hop | (rfl | rfl | rfl) | ⟨rfl, -⟩ := h.first
      · cases op with
        | lock l m =>
          cases l with
          | monitor => exact Or.inr (by decide : 0 < 5)
          | _ => exact absurd hop id
        | unlock => exact Or.inl (Option.some_ne_none _)
        | synchronize => exact Or.inr (by decide : 0 < 4)
        | _ => exact absurd hop id
      · exact Or.inl (Option.some_ne_none _)
      · exact Or.inl (Option.some_ne_none _)
      · exact Or.inl (Option.some_ne_none _)
      · exact Or.inr Nat.one_pos

/-- Somebody with something to do moves, or waits at a higher level. -/
def Freed (pol : Policy) (s : Shared ι τ × (Party ι τ → Agent τ)) (n : ℕ) (q : Party ι τ) : Prop :=
  ¬ Idle q s.1 (s.2 q) ∧ (step pol q s.1 (s.2 q) ≠ none ∨ n < (s.2 q).level)

/-- **Whom a party waits for.** -/
theorem waits_for {s : Shared ι τ × (Party ι τ → Agent τ)}
    (hadmits : ∀ m, pol.admits m [] = true) (hcapacity : 0 < pol.capacity)
    (hsound : ∀ p, Sound p s.1 (s.2 p)) (hawaited : Awaited s) (hp : ¬ Idle p s.1 (s.2 p))
    (hstep : step pol p s.1 (s.2 p) = none) : ∃ q, Freed pol s (s.2 p).level q := by
  have hown := hsound p
  obtain ⟨shared, agents⟩ := s
  simp only at hp hstep hown ⊢
  generalize agents p = a at hp hstep hown
  obtain ⟨ops, held⟩ := a
  cases ops with
  | nil =>
    exfalso
    cases p with
    | caller i => exact hp rfl
    | stream t =>
      refine hp ⟨rfl, ?_⟩
      unfold step at hstep
      simp only at hstep
      split at hstep
      · cases hstep
      · assumption
    | completionThread => exact hp (Or.inl rfl)
  | cons op ops =>
    obtain ⟨l, m, rfl, hheld⟩ | ⟨t, w, rfl, hfull⟩ | ⟨rfl, t, hqueue⟩ | ⟨rfl, hexited⟩ |
      ⟨rfl, hnotified⟩ := step_eq_none hstep
    · have hsome : shared.owners l ≠ [] := by
        intro hnone
        rw [hnone, List.map_nil, hadmits m] at hheld
        cases hheld
      obtain ⟨⟨q, m'⟩, hq⟩ := List.exists_mem_of_ne_nil _ hsome
      exact ⟨q, (hsound q).holds ((hsound q).owned l m' hq)⟩
    · have hqueue : shared.queues t ≠ [] := by
        intro hnone
        rw [hnone, List.length_nil] at hfull
        omega
      exact ⟨.stream t, (hsound _).works hqueue⟩
    · exact ⟨.stream t, (hsound _).works hqueue⟩
    · exact ⟨.completionThread, (hsound _).finishes hown.joins hexited⟩
    · obtain ⟨rfl, rfl, hasleep⟩ := hown.sleeps
      have hdue : shared.Due := by
        by_contra hdue
        exact hp (Or.inr ⟨rfl, hdue⟩)
      obtain ⟨q, hq⟩ := hawaited ⟨hasleep, hnotified, hdue⟩
      exact ⟨q, (hsound q).notifies hq⟩

/-- **No deadlock**: in every state of every run, all parties are idle or some party moves. -/
theorem exists_move (hpol : pol.unlocksFirst = true) (hadmits : ∀ m, pol.admits m [] = true)
    (hcapacity : 0 < pol.capacity) {s : Shared ι τ × (Party ι τ → Agent τ)}
    (hs : (parties pol calls).machine.Reachable s) :
    (∀ p, Idle p s.1 (s.2 p)) ∨ ∃ p s', (parties pol calls).machine.step s p = some s' := by
  have hsound := (parties_relyGuarantee hpol).invariant hs
  have hawaited := awaited hpol hs
  by_cases hidle : ∀ p, Idle p s.1 (s.2 p)
  · exact Or.inl hidle
  · obtain ⟨p, hp⟩ := not_forall.1 hidle
    have hlevel : ∀ p, (s.2 p).level ≤ 5 := fun p => level_le (s.2 p)
    have hwaits : ∀ p, ¬ Idle p s.1 (s.2 p) → step pol p s.1 (s.2 p) ≠ none ∨
        ∃ q, Freed pol s (s.2 p).level q := by
      intro p hp
      by_cases hstep : step pol p s.1 (s.2 p) = none
      · exact Or.inr (waits_for hadmits hcapacity hsound hawaited hp hstep)
      · exact Or.inl hstep
    obtain ⟨q, hq⟩ := exists_moves hlevel hwaits 5 p hp (Nat.sub_le 5 _)
    obtain ⟨r, hr⟩ := Option.ne_none_iff_exists'.1 hq
    refine Or.inr ⟨q, (r.1, Function.update s.2 q r.2), ?_⟩
    have hown : (parties pol calls).step q s.1 (s.2 q) = some r := hr
    simp only [Parties.machine, hown, Option.map_some]

end

/-! ## Without the end of the process -/

/-- The operations that end the completion thread. -/
def Op.Ending : Op τ → Prop
  | .setFinished | .exit => True
  | _ => False

/-- **The process goes on**: nobody has anything to do that ends the completion thread. -/
structure GoesOn (s : Shared ι τ × (Party ι τ → Agent τ)) : Prop where
  isFinished : s.1.isFinished = false
  exited : s.1.exited = false
  ops : ∀ p, ∀ op ∈ (s.2 p).ops, ¬ op.Ending

theorem Op.Plain.not_ending {op : Op τ} (h : op.Plain) : ¬ op.Ending := by
  cases op with
  | setFinished | exit => exact absurd h id
  | _ => exact id

theorem Op.Streamed.not_ending {op : Op τ} (h : op.Streamed) : ¬ op.Ending := by
  cases op with
  | setFinished | exit => exact absurd h id
  | _ => exact id

theorem completionThread_not_ending :
    ∀ op ∈ (AsyncMonitor.completionThread : List (Op τ)), ¬ op.Ending := by
  intro op hop
  simp only [AsyncMonitor.completionThread, List.mem_cons, List.not_mem_nil, or_false] at hop
  rcases hop with rfl | rfl <;> exact id

theorem dropOp_not_ending (last : Bool) : ∀ op ∈ (dropOp last : List (Op τ)), ¬ op.Ending := by
  intro op hop
  cases last with
  | false => exact absurd hop List.not_mem_nil
  | true =>
    obtain rfl := List.mem_singleton.1 hop
    exact id

theorem start_not_ending (hno : ∀ i, .endOfProcess ∉ calls i) (p : Party ι τ) :
    ∀ op ∈ (start calls p).ops, ¬ op.Ending := by
  cases p with
  | caller i =>
    intro op hop
    obtain ⟨c, hc, hop⟩ := List.mem_flatMap.1 hop
    have hother : c ≠ .endOfProcess := fun h => hno i (h ▸ hc)
    exact (ApiCall.plain hother op hop).not_ending
  | stream t => exact fun op hop => absurd hop List.not_mem_nil
  | completionThread => exact completionThread_not_ending

section

variable [DecidableEq ι] [DecidableEq τ]

theorem check_goesOn (hfinished : s.isFinished = false)
    (h : s.check pol p = (s', a')) :
    s'.isFinished = false ∧ s'.exited = s.exited ∧ ∀ op ∈ a'.ops, ¬ op.Ending := by
  unfold Shared.check at h
  split at h
  · rename_i last rest _
    obtain ⟨rfl, rfl⟩ := Prod.mk.inj h
    refine ⟨hfinished, rfl, fun op hop => ?_⟩
    obtain hop | hop := List.mem_append.1 hop
    · have hpart : op ∈ [.unlock .monitor] ∨ op ∈ (dropOp last : List (Op τ)) := by
        split at hop
        · exact List.mem_append.1 hop
        · exact (List.mem_append.1 hop).symm
      obtain hunlock | hfree := hpart
      · obtain rfl := List.mem_singleton.1 hunlock
        exact id
      · exact dropOp_not_ending last op hfree
    · exact completionThread_not_ending op hop
  · simp only [hfinished, Bool.false_eq_true, if_false] at h
    obtain ⟨rfl, rfl⟩ := Prod.mk.inj h
    refine ⟨hfinished, rfl, fun op hop => ?_⟩
    obtain rfl := List.mem_singleton.1 hop
    exact id

theorem recheck_goesOn (hfinished : s.isFinished = false)
    (h : s.recheck p = (s', a')) :
    s'.isFinished = false ∧ s'.exited = s.exited ∧ ∀ op ∈ a'.ops, ¬ op.Ending := by
  unfold Shared.recheck at h
  split at h
  · obtain ⟨rfl, rfl⟩ := Prod.mk.inj h
    refine ⟨hfinished, rfl, fun op hop => ?_⟩
    obtain rfl | hop := List.mem_cons.1 hop
    · exact id
    · exact completionThread_not_ending op hop
  · obtain ⟨rfl, rfl⟩ := Prod.mk.inj h
    refine ⟨hfinished, rfl, fun op hop => ?_⟩
    obtain rfl := List.mem_singleton.1 hop
    exact id

variable [Fintype τ]

/-- A move of a party that has nothing of that kind to do. -/
theorem step_goesOn (hfinished : s.isFinished = false)
    (hops : ∀ op ∈ a.ops, ¬ op.Ending) (hstep : step pol p s a = some (s', a')) :
    s'.isFinished = false ∧ s'.exited = s.exited ∧ ∀ op ∈ a'.ops, ¬ op.Ending := by
  obtain ⟨ops, held⟩ := a
  cases ops with
  | nil =>
    cases p with
    | caller i => cases hstep
    | completionThread => cases hstep
    | stream t =>
      unfold step at hstep
      simp only at hstep
      split at hstep
      · rename_i w _ _
        obtain ⟨rfl, rfl⟩ := Prod.mk.inj (Option.some.inj hstep)
        refine ⟨hfinished, rfl, fun op hop => ?_⟩
        obtain hop | hop := List.mem_append.1 hop
        · exact ((work_keeps w).2.1 op hop).not_ending
        · obtain rfl := List.mem_singleton.1 hop
          exact id
      · cases hstep
  | cons op ops =>
    have hrest : ∀ op ∈ ops, ¬ op.Ending := fun op hop => hops op (List.mem_cons_of_mem _ hop)
    cases op with
    | setFinished => exact absurd trivial (hops _ List.mem_cons_self)
    | exit => exact absurd trivial (hops _ List.mem_cons_self)
    | check => exact check_goesOn hfinished (Option.some.inj hstep)
    | recheck => exact recheck_goesOn hfinished (Option.some.inj hstep)
    | sleep =>
      simp only [step, Op.step, Option.ite_none_right_eq_some, Option.some.injEq] at hstep
      obtain ⟨-, hstep⟩ := hstep
      obtain ⟨rfl, rfl⟩ := Prod.mk.inj hstep
      refine ⟨hfinished, rfl, fun op hop => ?_⟩
      simp only [List.mem_cons, List.not_mem_nil, or_false] at hop
      rcases hop with rfl | rfl <;> exact id
    | lock | launch | synchronize | join =>
      simp only [step, Op.step, Option.ite_none_right_eq_some, Option.some.injEq] at hstep
      obtain ⟨-, hstep⟩ := hstep
      obtain ⟨rfl, rfl⟩ := Prod.mk.inj hstep
      exact ⟨hfinished, rfl, hrest⟩
    | unlock | pushCompleted | notifyOne | done =>
      obtain ⟨rfl, rfl⟩ := Prod.mk.inj (Option.some.inj hstep)
      exact ⟨hfinished, rfl, hrest⟩

/-- Where no caller ends the process, it goes on. -/
theorem goesOn (hpol : pol.unlocksFirst = true) (hno : ∀ i, .endOfProcess ∉ calls i)
    {s : Shared ι τ × (Party ι τ → Agent τ)} (hs : (parties pol calls).machine.Reachable s) :
    GoesOn s := by
  refine (parties_relyGuarantee hpol).also (J := GoesOn) ⟨rfl, rfl, start_not_ending hno⟩ ?_ hs
  intro p s s' _ _ hbefore hst
  obtain ⟨a', hown, hagents⟩ := Parties.machine_step_cases hst
  obtain ⟨hfinished, hexited, hops⟩ := step_goesOn hbefore.isFinished (hbefore.ops p) hown
  refine ⟨hfinished, hexited.trans hbefore.exited, fun q => ?_⟩
  rw [hagents]
  by_cases hq : q = p
  · subst hq
    rwa [Function.update_self]
  · rw [Function.update_of_ne hq]
    exact hbefore.ops q

end

/-! ## Runs end -/

/-- How many moves an operation is good for at most: its own, and those that it lets others
make. -/
def Op.cost : Op τ → ℕ
  | .sleep => 0
  | .lock .. | .unlock _ | .synchronize | .setFinished | .join | .done _ | .exit => 1
  | .check => 3
  | .pushCompleted _ => 5
  | .recheck => 6
  | .notifyOne => 9
  | .launch .. => 19

/-- The moves that a list of operations is good for. -/
def cost : List (Op τ) → ℕ
  | [] => 0
  | op :: ops => op.cost + cost ops

@[simp] theorem cost_nil : cost ([] : List (Op τ)) = 0 := rfl

@[simp] theorem cost_cons (op : Op τ) (ops : List (Op τ)) :
    cost (op :: ops) = op.cost + cost ops := rfl

theorem cost_append (ops ops' : List (Op τ)) : cost (ops ++ ops') = cost ops + cost ops' := by
  induction ops with
  | nil => simp
  | cons op ops ih =>
    rw [List.cons_append, cost_cons, cost_cons, ih]
    omega

theorem work_cost (w : Work) (t : τ) : cost (w.ops ++ [.done t] : List (Op τ)) < 18 := by
  cases w with
  | compute => exact (by decide : 1 < 18)
  | cleanup last => exact (by decide : 17 < 18)
  | cleanupUnknown => exact (by decide : 3 < 18)

/-- The moves of a party. A stream that has nothing to do may start with a work. -/
def Agent.cost (p : Party ι τ) (a : Agent τ) : ℕ :=
  match p, a.ops with
  | .stream _, [] => 18
  | _, ops => Locking.cost ops

theorem cost_stream {t : τ} (hne : ops ≠ []) :
    Agent.cost (.stream t : Party ι τ) ⟨ops, held⟩ = cost ops := by
  cases ops with
  | nil => exact absurd rfl hne
  | cons op ops => rfl

section

variable [Fintype τ]

/-- How many works are queued. -/
def queued (queues : τ → List Work) : ℕ := ∑ t, (queues t).length

theorem queued_update [DecidableEq τ] (queues : τ → List Work) (t : τ) (works : List Work) :
    queued (Function.update queues t works) + (queues t).length = queued queues + works.length := by
  have hrest : ∑ t' ∈ Finset.univ.erase t, (Function.update queues t works t').length =
      ∑ t' ∈ Finset.univ.erase t, (queues t').length := by
    refine Finset.sum_congr rfl fun t' ht' => ?_
    rw [Function.update_of_ne (Finset.ne_of_mem_erase ht')]
  unfold queued
  rw [← Finset.add_sum_erase _ _ (Finset.mem_univ t), hrest, Function.update_self,
    ← Finset.add_sum_erase _ (fun t' => (queues t').length) (Finset.mem_univ t)]
  omega

/-- The moves that the works of the queues, the completed ops and a notification are good for. -/
def Shared.cost (s : Shared ι τ) : ℕ :=
  18 * queued s.queues + 4 * s.completedOps.length + if s.notified then 8 else 0

/-- The move lowers what the party and the shared state are good for. -/
def Lowered (p : Party ι τ) (s s' : Shared ι τ) (a a' : Agent τ) : Prop :=
  s'.cost + a'.cost p < s.cost + a.cost p

variable [DecidableEq ι] [DecidableEq τ]

theorem ordinary_lowers (hop : op.Ordinary) (hstep : op.step pol p s ops held = some (s', a')) :
    s'.cost + cost a'.ops < s.cost + cost (op :: ops) := by
  rw [cost_cons]
  cases op with
  | lock l m =>
    simp only [Op.step, Option.ite_none_right_eq_some, Option.some.injEq] at hstep
    obtain ⟨-, hstep⟩ := hstep
    obtain ⟨rfl, rfl⟩ := Prod.mk.inj hstep
    simp only [Shared.cost, Op.cost]
    omega
  | unlock l =>
    obtain ⟨rfl, rfl⟩ := Prod.mk.inj (Option.some.inj hstep)
    have hsame : (s.release p l).cost = s.cost := rfl
    simp only [hsame, Op.cost]
    omega
  | launch t w =>
    simp only [Op.step, Option.ite_none_right_eq_some, Option.some.injEq] at hstep
    obtain ⟨-, hstep⟩ := hstep
    obtain ⟨rfl, rfl⟩ := Prod.mk.inj hstep
    have hqueued := queued_update s.queues t (s.queues t ++ [w])
    simp only [List.length_append, List.length_singleton] at hqueued
    simp only [Shared.cost, Op.cost]
    omega
  | synchronize | join =>
    simp only [Op.step, Option.ite_none_right_eq_some, Option.some.injEq] at hstep
    obtain ⟨-, hstep⟩ := hstep
    obtain ⟨rfl, rfl⟩ := Prod.mk.inj hstep
    simp only [Op.cost]
    omega
  | pushCompleted | setFinished =>
    obtain ⟨rfl, rfl⟩ := Prod.mk.inj (Option.some.inj hstep)
    simp only [Shared.cost, Op.cost, List.length_cons]
    omega
  | notifyOne =>
    obtain ⟨rfl, rfl⟩ := Prod.mk.inj (Option.some.inj hstep)
    simp only [Shared.cost, Op.cost]
    split <;> split <;> omega
  | done | check | sleep | recheck | exit => exact absurd hop id

theorem caller_lowers {i : ι} (h : Sound (.caller i) s a)
    (hstep : step pol (.caller i) s a = some (s', a')) : Lowered (.caller i) s s' a a' := by
  obtain ⟨ops, held⟩ := a
  cases ops with
  | nil => cases hstep
  | cons op ops => exact ordinary_lowers (Op.Called.ordinary h.first) hstep

theorem stream_lowers {t : τ} (h : Sound (.stream t) s a)
    (hstep : step pol (.stream t) s a = some (s', a')) : Lowered (.stream t) s s' a a' := by
  obtain ⟨ops, held⟩ := a
  cases ops with
  | nil =>
    unfold step at hstep
    simp only at hstep
    split at hstep
    · rename_i w rest hqueue
      obtain ⟨rfl, rfl⟩ := Prod.mk.inj (Option.some.inj hstep)
      have hne : w.ops ++ [.done t] ≠ [] := by simp
      have hcost : Agent.cost (.stream t : Party ι τ) ⟨w.ops ++ [.done t], held⟩ = _ :=
        cost_stream hne
      have hwork := work_cost w t
      show s.cost + Agent.cost (.stream t : Party ι τ) ⟨w.ops ++ [.done t], held⟩ < s.cost + 18
      omega
    · cases hstep
  | cons op ops =>
    obtain hnil | ⟨hqueue, body, hbody, hstreamed, hsignals⟩ := h.role
    · cases hnil
    cases body with
    | nil =>
      obtain ⟨rfl, rfl⟩ := List.cons.inj hbody
      obtain ⟨rfl, rfl⟩ := Prod.mk.inj (Option.some.inj hstep)
      have hqueued := queued_update s.queues t (s.queues t).tail
      have hpos := List.length_pos_of_ne_nil hqueue
      rw [List.length_tail] at hqueued
      simp only [Lowered, Shared.cost, Agent.cost, cost_cons, Op.cost]
      omega
    | cons op' body =>
      obtain ⟨rfl, rfl⟩ := List.cons.inj hbody
      have hordinary := (hstreamed op List.mem_cons_self).ordinary
      have hlowers := ordinary_lowers hordinary hstep
      have hnext := (ordinarily h.owned h.disciplined hstep hordinary).next
      obtain ⟨ops', held'⟩ := a'
      obtain rfl : ops' = body ++ [.done t] := hnext
      unfold Lowered
      rw [cost_stream (by simp)]
      exact hlowers

/-- The completion thread goes to sleep. -/
theorem sleep_lowers {n : ℕ} (hn : 0 < n) :
    (s.sleep p).cost + cost [(.sleep : Op τ)] < s.cost + n := by
  have hsame : (s.sleep p).cost + (if s.notified then 8 else 0) = s.cost := rfl
  have hnone : cost [(.sleep : Op τ)] = 0 := rfl
  omega

theorem check_lowers (h : s.check pol p = (s', a')) : s'.cost + cost a'.ops < s.cost + 3 := by
  unfold Shared.check at h
  split at h
  · rename_i last rest hcompleted
    obtain ⟨rfl, rfl⟩ := Prod.mk.inj h
    have hfree : cost (dropOp last : List (Op τ)) ≤ 1 := by
      cases last with
      | true => exact Nat.le_refl 1
      | false => exact Nat.zero_le 1
    have hagain : cost (AsyncMonitor.completionThread : List (Op τ)) = 4 := rfl
    have hunlock : cost [(.unlock .monitor : Op τ)] = 1 := rfl
    have hparts : cost (if pol.unlocksFirst then [.unlock .monitor] ++ dropOp last
        else dropOp last ++ [(.unlock .monitor : Op τ)]) =
          1 + cost (dropOp last : List (Op τ)) := by
      split
      · rw [cost_append, hunlock]
      · rw [cost_append, hunlock, Nat.add_comm]
    simp only [Shared.cost, hcompleted, List.length_cons, cost_append, hagain, hparts]
    omega
  · split at h
    · obtain ⟨rfl, rfl⟩ := Prod.mk.inj h
      exact Nat.add_lt_add_left (by decide : 2 < 3) _
    · obtain ⟨rfl, rfl⟩ := Prod.mk.inj h
      exact sleep_lowers (by decide : 0 < 3)

theorem recheck_lowers (h : s.recheck p = (s', a')) : s'.cost + cost a'.ops < s.cost + 6 := by
  unfold Shared.recheck at h
  split at h
  · obtain ⟨rfl, rfl⟩ := Prod.mk.inj h
    exact Nat.add_lt_add_left (by decide : 5 < 6) _
  · obtain ⟨rfl, rfl⟩ := Prod.mk.inj h
    exact sleep_lowers (by decide : 0 < 6)

theorem thread_lowers (h : Sound .completionThread s a)
    (hstep : step pol .completionThread s a = some (s', a')) :
    Lowered .completionThread s s' a a' := by
  obtain ⟨ops, held⟩ := a
  cases ops with
  | nil => cases hstep
  | cons op ops =>
    show _ < s.cost + cost (op :: ops)
    rw [cost_cons]
    obtain hop | (rfl | rfl | rfl) | ⟨rfl, rfl, -⟩ := h.first
    · have hlowers := ordinary_lowers hop.ordinary hstep
      rwa [cost_cons] at hlowers
    · have hlowers := check_lowers (Option.some.inj hstep)
      exact Nat.lt_of_lt_of_le hlowers (by simp only [Op.cost]; omega)
    · have hlowers := recheck_lowers (Option.some.inj hstep)
      exact Nat.lt_of_lt_of_le hlowers (by simp only [Op.cost]; omega)
    · obtain ⟨rfl, rfl⟩ := Prod.mk.inj (Option.some.inj hstep)
      have hsame : Shared.cost { s with exited := true } = s.cost := rfl
      show _ + cost ops < _
      rw [hsame]
      simp only [Op.cost]
      omega
    · simp only [step, Op.step, Option.ite_none_right_eq_some, Option.some.injEq] at hstep
      obtain ⟨hnotified, hstep⟩ := hstep
      obtain ⟨rfl, rfl⟩ := Prod.mk.inj hstep
      have hnext : cost [(.lock .monitor .exclusive : Op τ), .recheck] = 7 := rfl
      simp only [Shared.cost, Agent.cost, hnotified, hnext, Op.cost, cost_nil, if_true,
        Bool.false_eq_true, if_false]
      omega

end

def Party.equivOption : Party ι τ ≃ Option (ι ⊕ τ) where
  toFun
    | .caller i => some (.inl i)
    | .stream t => some (.inr t)
    | .completionThread => none
  invFun
    | some (.inl i) => .caller i
    | some (.inr t) => .stream t
    | none => .completionThread
  left_inv p := by cases p <;> rfl
  right_inv p := by rcases p with _ | _ | _ <;> rfl

section

variable [Fintype ι] [Fintype τ]

instance : Fintype (Party ι τ) := Fintype.ofEquiv _ Party.equivOption.symm

theorem sum_party (f : Party ι τ → ℕ) :
    ∑ p, f p = f .completionThread + (∑ i, f (.caller i) + ∑ t, f (.stream t)) := by
  rw [← Equiv.sum_comp Party.equivOption.symm f, Fintype.sum_option, Fintype.sum_sum_type]
  rfl

end

section

variable [Fintype τ] [DecidableEq ι] [DecidableEq τ]

theorem parties_lowers (hpol : pol.unlocksFirst = true) :
    (parties pol calls).Lowers Sound Shared.cost Agent.cost := by
  refine (parties_relyGuarantee hpol).toLowers fun {p s a s' a'} h hstep => ?_
  cases p with
  | caller i => exact caller_lowers h hstep
  | stream t => exact stream_lowers h hstep
  | completionThread => exact thread_lowers h hstep

theorem caller_finishes {i : ι} (h : Sound (.caller i) s a)
    (hstep : step pol (.caller i) s a = some (s', a')) (hset : .setFinished ∈ a.ops) :
    .setFinished ∈ a'.ops ∨ s'.isFinished = true := by
  obtain ⟨ops, held⟩ := a
  cases ops with
  | nil => cases hstep
  | cons op ops =>
    have hop := ordinarily h.owned h.disciplined hstep (Op.Called.ordinary h.first)
    obtain hset | hset := List.mem_cons.1 hset
    · exact Or.inr (hop.setFinished hset.symm)
    · rw [hop.next]
      exact Or.inl hset

/-- A caller of the end of the process tells the completion thread to finish, or has done so. -/
theorem will_finish {i : ι} (hpol : pol.unlocksFirst = true)
    {s : Shared ι τ × (Party ι τ → Agent τ)} (hs : (parties pol calls).machine.Reachable s)
    (hi : .endOfProcess ∈ calls i) :
    .setFinished ∈ (s.2 (.caller i)).ops ∨ s.1.isFinished = true := by
  refine (parties_relyGuarantee hpol).also
    (J := fun s => .setFinished ∈ (s.2 (.caller i)).ops ∨ s.1.isFinished = true) ?_ ?_ hs
  · refine Or.inl (List.mem_flatMap.2 ⟨.endOfProcess, hi, ?_⟩)
    simp [ApiCall.ops, AsyncMonitor.destructor, withLock]
  · intro p s s' hsound _ hbefore hst
    have hmoved := ((parties_relyGuarantee hpol).step hsound trivial hst).2
    obtain hset | hfinished := hbefore
    · obtain ⟨a', hown, hagents⟩ := Parties.machine_step_cases hst
      by_cases hp : p = .caller i
      · subst hp
        rw [hagents, Function.update_self]
        exact caller_finishes (hsound _) hown hset
      · left
        rwa [hagents, Function.update_of_ne (Ne.symm hp)]
    · exact Or.inr (hmoved.isFinished hfinished)

/-- **All calls have returned** and the queues are empty. The completion thread has returned where
the process has ended, and nothing is said of the ops that are completed after that; otherwise it
is still there, and every op that was completed is freed. -/
structure Returned (calls : ι → List (ApiCall τ)) (s : Shared ι τ × (Party ι τ → Agent τ)) :
    Prop where
  idle : ∀ p, Idle p s.1 (s.2 p)
  exited : ∀ i, .endOfProcess ∈ calls i → s.1.exited = true
  running : (∀ i, .endOfProcess ∉ calls i) → s.1.exited = false ∧ s.1.completedOps = []

/-- Where no party moves. -/
theorem returned (hpol : pol.unlocksFirst = true) (hadmits : ∀ m, pol.admits m [] = true)
    (hcapacity : 0 < pol.capacity) {s : Shared ι τ × (Party ι τ → Agent τ)}
    (hs : (parties pol calls).machine.Reachable s)
    (hnone : ∀ p, (parties pol calls).machine.step s p = none) : Returned calls s := by
  have hidle : ∀ p, Idle p s.1 (s.2 p) := by
    obtain hidle | ⟨p, s', hst⟩ := exists_move hpol hadmits hcapacity hs
    · exact hidle
    · rw [hnone p] at hst
      cases hst
  have hsound := (parties_relyGuarantee hpol).invariant hs .completionThread
  -- the completion thread has returned, or sleeps with nothing to do
  have hthread : s.1.exited = true ∨ ¬ s.1.Due := by
    obtain hops | ⟨-, hdue⟩ := hidle .completionThread
    · obtain ⟨-, hexited, -⟩ | ⟨hsleep, -⟩ | ⟨⟨body, last, hbody, -⟩, -⟩ := hsound.role
      · exact Or.inl hexited
      · rw [hops] at hsleep
        cases hsleep
      · rw [hops] at hbody
        simp at hbody
    · exact Or.inr hdue
  refine ⟨hidle, fun i hi => ?_, fun hno => ?_⟩
  · have hfinished : s.1.isFinished = true := by
      have hset := will_finish hpol hs hi
      have hops : (s.2 (.caller i)).ops = [] := hidle (.caller i)
      rw [hops] at hset
      simpa using hset
    exact hthread.resolve_right fun hdue => hdue (Or.inr hfinished)
  · have hrunning : s.1.exited = false := (goesOn hpol hno hs).exited
    refine ⟨hrunning, ?_⟩
    by_contra hcompleted
    obtain hexited | hdue := hthread
    · rw [hrunning] at hexited
      cases hexited
    · exact hdue (Or.inl hcompleted)

variable [Fintype ι]

/-- What the parties are good for at first. -/
theorem start_budget (pol : Policy) (calls : ι → List (ApiCall τ)) :
    Parties.budget Shared.cost Agent.cost (parties pol calls).machine.init =
      ∑ i, cost ((calls i).flatMap ApiCall.ops) + 18 * Fintype.card τ + 4 := by
  have hshared : (parties pol calls).init.cost = 0 := by
    simp [parties, Shared.cost, queued]
  have hstreams : ∑ t : τ, Agent.cost (.stream t : Party ι τ) (start calls (.stream t)) =
      18 * Fintype.card τ := by
    simp [start, Agent.cost, Nat.mul_comm]
  have hparties : ∑ p, Agent.cost p ((parties pol calls).start p) = _ := sum_party _
  unfold Parties.budget
  show (parties pol calls).init.cost + ∑ p, Agent.cost p ((parties pol calls).start p) = _
  rw [hparties, hshared]
  have hthread : Agent.cost (.completionThread : Party ι τ) (start calls .completionThread) = 4 :=
    rfl
  have hcallers : ∀ i, Agent.cost (.caller i : Party ι τ) (start calls (.caller i)) =
      cost ((calls i).flatMap ApiCall.ops) := fun _ => rfl
  simp only [parties, hstreams, hthread, hcallers]
  omega

/-- **Every call returns.** Whatever the order in which the parties move, a run has at most so many
moves; where no party has one, all calls have returned; and every run can be continued up to
there. -/
theorem runs_end (hpol : pol.unlocksFirst = true) (hadmits : ∀ m, pol.admits m [] = true)
    (hcapacity : 0 < pol.capacity) {ps : List (Party ι τ)}
    {s : Shared ι τ × (Party ι τ → Agent τ)}
    (hrun : (parties pol calls).machine.run (parties pol calls).machine.init ps = some s) :
    ps.length ≤ ∑ i, cost ((calls i).flatMap ApiCall.ops) + 18 * Fintype.card τ + 4 ∧
    ((∀ p, (parties pol calls).machine.step s p = none) → Returned calls s) ∧
    ∃ ps' s', (parties pol calls).machine.run s ps' = some s' ∧ Returned calls s' := by
  have hlowers : (parties pol calls).Lowers Sound Shared.cost Agent.cost := parties_lowers hpol
  have hstart : ∀ p, Sound p (parties pol calls).init ((parties pol calls).start p) :=
    (parties_relyGuarantee hpol).start
  have hreach := Machine.reachable_of_run hrun
  refine ⟨?_, returned hpol hadmits hcapacity hreach, ?_⟩
  · have hlen := hlowers.run_le hstart hrun
    rw [start_budget] at hlen
    omega
  · have hsound := (parties_relyGuarantee hpol).invariant hreach
    obtain ⟨ps', s', hrun', hlast⟩ := hlowers.exists_end _ s hsound (Nat.le_refl _)
    have hreach' : (parties pol calls).machine.Reachable s' :=
      Machine.reaches_run hreach (Machine.runMeets_of_forall (fun _ _ _ => trivial) s) hrun'
    exact ⟨ps', s', hrun', returned hpol hadmits hcapacity hreach' hlast⟩

end

/-! ## An example -/

/-- Queues of 16 works, and locks of which only shared holds go together. -/
def sixteenWorks (unlocksFirst : Bool) : Policy :=
  ⟨16, fun m held => held.isEmpty || m == .shared && held.all (· == .shared), unlocksFirst⟩

/-- A caller makes two requests on one stream, whose cleanups leave both ops to the completion
thread, and another one ends the process. -/
def twoRequestsAndEnd : Bool → List (ApiCall Unit)
  | false => List.replicate 2 (.async (.launched 0 () [.cleanup true] [] false))
  | true => [.endOfProcess]

/-- Both requests are launched, the first cleanup is done, and the second one waits for the lock,
with which the completion thread has taken the first op. -/
def firstOpTaken : List (Party Bool Unit) :=
  List.replicate 18 (.caller false) ++ List.replicate 6 (.stream ()) ++
    List.replicate 2 .completionThread ++ [.stream ()]

theorem runs_end_sample : ∃ s,
    (parties (sixteenWorks true) twoRequestsAndEnd).machine.run
      (parties (sixteenWorks true) twoRequestsAndEnd).machine.init firstOpTaken = some s ∧
    firstOpTaken.length ≤ ∑ i, cost ((twoRequestsAndEnd i).flatMap ApiCall.ops) +
      18 * Fintype.card Unit + 4 ∧
    ((∀ p, (parties (sixteenWorks true) twoRequestsAndEnd).machine.step s p = none) →
      Returned twoRequestsAndEnd s) ∧
    ∃ ps' s', (parties (sixteenWorks true) twoRequestsAndEnd).machine.run s ps' = some s' ∧
      Returned twoRequestsAndEnd s' :=
  ⟨_, rfl, runs_end (by rfl) (fun _ => rfl) (by decide) (by rfl)⟩

/-- **The order matters.** If the completion thread freed the op before it gives its lock back, no
party would move here: it waits for the stream, and the stream for its lock. -/
theorem keepsLock_deadlocks : ∃ s,
    (parties (sixteenWorks false) twoRequestsAndEnd).machine.run
      (parties (sixteenWorks false) twoRequestsAndEnd).machine.init firstOpTaken = some s ∧
    ¬ Returned twoRequestsAndEnd s ∧
    ∀ p, (parties (sixteenWorks false) twoRequestsAndEnd).machine.step s p = none := by
  refine ⟨_, rfl, fun hreturned => ?_, fun p => ?_⟩
  · exact absurd (hreturned.idle (.stream ())).1 (List.cons_ne_nil _ _)
  · cases p with
    | caller i => cases i <;> rfl
    | stream t => rfl
    | completionThread => rfl

end HipFile.Locking
