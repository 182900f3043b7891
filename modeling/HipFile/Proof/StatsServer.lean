import HipFile.Model.StatsServer

/-!
# The stats server's thread and its shutdown

* `Leaves`: the rounds in which the loop leaves.
* `threadFn_iff`: the thread has ended after `n` rounds exactly if one of them leaves.
* `StopsOnShutdown`: the thread has ended with the first round whose `poll` reports the
  shutdown.
* `stopsOnShutdown_iff`: it does so exactly if that round does not have a connection that
  cannot be accepted, or the loop has left before.
-/

namespace HipFile

variable {calls : ServerCalls}

/-- The `poll` succeeds, and reports the eventfd readable. -/
def PollOutcome.Reports (p : PollOutcome) : Prop := 0 < p.ret ∧ p.eventRevents &&& POLLIN ≠ 0

/-- The round has a connection pending, and cannot accept it. -/
def ServerRound.AcceptFails (r : ServerRound) : Prop :=
  r.poll.socketRevents &&& POLLIN ≠ 0 ∧ ∃ e, r.accept = .error e

/-- **The rounds that leave**: `poll` fails otherwise than by an interrupt, or something is
reported of the eventfd and no `accept` fails. -/
def ServerRound.Leaves (r : ServerRound) : Prop :=
  (r.poll.ret < 0 ∧ r.poll.errno ≠ EINTR) ∨
    (0 < r.poll.ret ∧ r.poll.eventRevents &&& (POLLIN ||| POLLERR ||| POLLNVAL) ≠ 0 ∧
      ¬ r.AcceptFails)

/-- The first round whose `poll` reports the eventfd readable. -/
def FirstReport (rounds : ℕ → ServerRound) (k : ℕ) : Prop :=
  (rounds k).poll.Reports ∧ ∀ j < k, ¬ (rounds j).poll.Reports

/-- From some round on every successful `poll` reports the eventfd readable. -/
def StaysReadable (rounds : ℕ → ServerRound) : Prop :=
  ∃ N, ∀ k, N ≤ k → 0 < (rounds k).poll.ret → (rounds k).poll.Reports

/-- The loop is reached. -/
def ServerCalls.Listens (calls : ServerCalls) : Prop :=
  calls.socket.toBool = true ∧ calls.bind.toBool = true ∧ calls.listen.toBool = true

/-- **The thread stops once shutdown is signalled.** -/
def StopsOnShutdown (calls : ServerCalls) : Prop :=
  ∀ k, FirstReport calls.rounds k → ∃ s, threadFn calls (k + 1) = .inr s

/-! ## Rounds -/

/-- The bits that are tested for include the one that reports the event. -/
theorem tested_of_pollin {revents : ℕ} (h : revents &&& POLLIN ≠ 0) :
    revents &&& (POLLIN ||| POLLERR ||| POLLNVAL) ≠ 0 := by
  intro hzero
  apply h
  have hmask : (POLLIN ||| POLLERR ||| POLLNVAL) &&& POLLIN = POLLIN := by decide
  rw [← hmask, ← Nat.and_assoc, hzero, Nat.zero_and]

/-- A round that reports the shutdown leaves, unless its `accept` fails. -/
theorem leaves_of_reports {r : ServerRound} (hreports : r.poll.Reports) :
    r.Leaves ↔ ¬ r.AcceptFails := by
  constructor
  · rintro (⟨hneg, -⟩ | ⟨-, -, haccept⟩)
    · have hpos := hreports.1
      omega
    · exact haccept
  · intro haccept
    exact Or.inr ⟨hreports.1, tested_of_pollin hreports.2, haccept⟩

/-- **What a round does.** -/
theorem threadRound_cases (rounds : ℕ → ServerRound) (s : ServerLoop) :
    (¬ (rounds s.rounds).Leaves → ∃ s', threadRound rounds s = .inl s' ∧
      s'.rounds = s.rounds + 1) ∧
    ((rounds s.rounds).Leaves → ∃ s', threadRound rounds s = .inr s') := by
  unfold threadRound
  generalize rounds s.rounds = r
  simp only [PollOutcome.polled]
  by_cases hzero : r.poll.ret = 0
  · -- nothing is ready
    have hgo : ¬ r.Leaves := by
      rintro (⟨hneg, -⟩ | ⟨hpos, -⟩) <;> omega
    simp only [if_pos hzero]
    exact ⟨fun _ => ⟨_, rfl, rfl⟩, fun h => absurd h hgo⟩
  by_cases hneg : r.poll.ret < 0
  · by_cases hintr : r.poll.errno = EINTR
    · have hgo : ¬ r.Leaves := by
        rintro (⟨-, hne⟩ | ⟨hpos, -⟩)
        · exact hne hintr
        · omega
      simp only [if_neg hzero, if_pos hneg, if_pos hintr]
      exact ⟨fun _ => ⟨_, rfl, rfl⟩, fun h => absurd h hgo⟩
    · simp only [if_neg hzero, if_pos hneg, if_neg hintr]
      exact ⟨fun h => absurd (Or.inl ⟨hneg, hintr⟩) h, fun _ => ⟨_, rfl⟩⟩
  · have hpos : 0 < r.poll.ret := by omega
    have hleaves : r.Leaves ↔
        r.poll.eventRevents &&& (POLLIN ||| POLLERR ||| POLLNVAL) ≠ 0 ∧ ¬ r.AcceptFails := by
      constructor
      · rintro (⟨hneg', -⟩ | ⟨-, h⟩)
        · exact absurd hneg' hneg
        · exact h
      · intro h
        exact Or.inr ⟨hpos, h⟩
    simp only [if_neg hzero, if_neg hneg, decide_eq_true_eq, ServerLoop.testShutdown]
    rw [hleaves]
    by_cases hsocket : r.poll.socketRevents &&& POLLIN ≠ 0
    · rw [if_pos hsocket]
      cases haccept : r.accept with
      | error e =>
        have hfails : r.AcceptFails := ⟨hsocket, e, haccept⟩
        exact ⟨fun _ => ⟨_, rfl, rfl⟩, fun h => absurd hfails h.2⟩
      | ok conn =>
        have haccepts : ¬ r.AcceptFails := by
          rintro ⟨-, e, he⟩
          cases haccept.symm.trans he
        by_cases hevent : r.poll.eventRevents &&& (POLLIN ||| POLLERR ||| POLLNVAL) ≠ 0
        · simp only [if_pos hevent]
          exact ⟨fun h => absurd ⟨hevent, haccepts⟩ h, fun _ => ⟨_, rfl⟩⟩
        · simp only [if_neg hevent]
          exact ⟨fun _ => ⟨_, rfl, rfl⟩, fun h => absurd h.1 hevent⟩
    · have haccepts : ¬ r.AcceptFails := fun h => hsocket h.1
      rw [if_neg hsocket]
      by_cases hevent : r.poll.eventRevents &&& (POLLIN ||| POLLERR ||| POLLNVAL) ≠ 0
      · rw [if_pos hevent]
        exact ⟨fun h => absurd ⟨hevent, haccepts⟩ h, fun _ => ⟨_, rfl⟩⟩
      · rw [if_neg hevent]
        exact ⟨fun _ => ⟨_, rfl, rfl⟩, fun h => absurd h.1 hevent⟩

/-- **The thread has ended** after `n` rounds exactly if one of them leaves. -/
theorem threadFn_iff (calls : ServerCalls) (n : ℕ) :
    (∃ s, threadFn calls n = .inr s) ↔ (calls.Listens → ∃ k < n, (calls.rounds k).Leaves) := by
  have hloop := Loop.iter_inr_iff ServerLoop.rounds (fun k => (calls.rounds k).Leaves)
    (fun s => (threadRound_cases calls.rounds s).1)
    (fun s => (threadRound_cases calls.rounds s).2) n ⟨0, []⟩
  simp only [Nat.zero_add] at hloop
  unfold threadFn ServerCalls.Listens
  cases calls.socket with
  | error e => exact iff_of_true ⟨_, rfl⟩ fun h => absurd h.1 Bool.false_ne_true
  | ok socket =>
  cases calls.bind with
  | error e => exact iff_of_true ⟨_, rfl⟩ fun h => absurd h.2.1 Bool.false_ne_true
  | ok bind =>
  cases calls.listen with
  | error e => exact iff_of_true ⟨_, rfl⟩ fun h => absurd h.2.2 Bool.false_ne_true
  | ok listen =>
    simp only [hloop]
    exact ⟨fun h _ => h, fun h => h ⟨rfl, rfl, rfl⟩⟩

/-- **When the thread stops**: with the first round whose `poll` reports the shutdown, exactly
if that round has no connection that it fails to accept, or the loop has left before; and the
`join` returns exactly if there is a round that leaves. -/
theorem stopsOnShutdown_iff (calls : ServerCalls) :
    (StopsOnShutdown calls ↔ (calls.Listens → ∀ k, FirstReport calls.rounds k →
      (calls.rounds k).AcceptFails → ∃ j < k, (calls.rounds j).Leaves)) ∧
    (JoinReturns calls ↔ (calls.Listens → ∃ k, (calls.rounds k).Leaves)) := by
  refine ⟨⟨?_, ?_⟩, ?_, ?_⟩
  · intro hstops hlistens k hfirst hfails
    obtain ⟨j, hj, hleaves⟩ := (threadFn_iff calls (k + 1)).1 (hstops k hfirst) hlistens
    rcases Nat.lt_succ_iff_lt_or_eq.1 hj with hj | rfl
    · exact ⟨j, hj, hleaves⟩
    · exact absurd hfails ((leaves_of_reports hfirst.1).1 hleaves)
  · intro h k hfirst
    refine (threadFn_iff calls (k + 1)).2 fun hlistens => ?_
    by_cases hfails : (calls.rounds k).AcceptFails
    · obtain ⟨j, hj, hleaves⟩ := h hlistens k hfirst hfails
      exact ⟨j, Nat.lt_succ_of_lt hj, hleaves⟩
    · exact ⟨k, Nat.lt_succ_self k, (leaves_of_reports hfirst.1).2 hfails⟩
  · rintro ⟨n, hn⟩ hlistens
    obtain ⟨k, -, hleaves⟩ := (threadFn_iff calls n).1 hn hlistens
    exact ⟨k, hleaves⟩
  · intro h
    by_cases hlistens : calls.Listens
    · obtain ⟨k, hleaves⟩ := h hlistens
      exact ⟨k + 1, (threadFn_iff calls (k + 1)).2 fun _ => ⟨k, Nat.lt_succ_self k, hleaves⟩⟩
    · exact ⟨0, (threadFn_iff calls 0).2 fun hl => absurd hl hlistens⟩

def EMFILE : Errno := 24

/-- A connection is pending, the shutdown is signalled, and no descriptor is free. -/
def exhaustedRound : ServerRound := ⟨⟨2, 0, POLLIN, POLLIN⟩, .error EMFILE, .ok ()⟩

/-- The calls of a thread whose every round is without free descriptors. -/
def exhaustedCalls : ServerCalls := ⟨.ok 5, .ok (), .ok (), fun _ => exhaustedRound⟩

/-- Without free descriptors the thread goes on for ever, though every `poll` reports the
shutdown. -/
theorem not_stopsOnShutdown_exhausted : StaysReadable exhaustedCalls.rounds ∧
    FirstReport exhaustedCalls.rounds 0 ∧ ¬ StopsOnShutdown exhaustedCalls ∧
      ¬ JoinReturns exhaustedCalls := by
  have hreports : ∀ k, (exhaustedCalls.rounds k).poll.Reports := fun _ =>
    show exhaustedRound.poll.Reports from ⟨by decide, by decide⟩
  have hfails : ∀ k, (exhaustedCalls.rounds k).AcceptFails := fun _ =>
    show exhaustedRound.AcceptFails from ⟨by decide, EMFILE, rfl⟩
  have hfirst : FirstReport exhaustedCalls.rounds 0 := ⟨hreports 0, nofun⟩
  have hgoes : ∀ k, ¬ (exhaustedCalls.rounds k).Leaves := by
    intro k hleaves
    exact (leaves_of_reports (hreports k)).1 hleaves (hfails k)
  have hnever : ∀ n s, threadFn exhaustedCalls n ≠ .inr s := by
    intro n s hs
    obtain ⟨k, -, hleaves⟩ := (threadFn_iff exhaustedCalls n).1 ⟨s, hs⟩ ⟨rfl, rfl, rfl⟩
    exact hgoes k hleaves
  refine ⟨⟨0, fun k _ _ => hreports k⟩, hfirst, ?_, ?_⟩
  · intro hstops
    obtain ⟨s, hs⟩ := hstops 0 hfirst
    exact hnever 1 s hs
  · rintro ⟨n, s, hs⟩
    exact hnever n s hs

end HipFile
