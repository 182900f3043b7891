import Mathlib.Algebra.Order.BigOperators.Group.Finset
import HipFile.Model.StatsReport

/-!
# Report delivery

* `writeRound_accepts`, `writeRound_zero`, `writeRound_fails`: a round, by the outcome of its
  `write`.
* `Delivers`: the loop ends, with what has been written in order, and at the first write
  that takes nothing or fails otherwise than by an interrupt.
* `Along`: what holds as long as no such write has been made.
* `generateReport_delivers_iff`: the report is delivered so exactly if no write that takes
  nothing comes after an interrupt, or with `EINTR` in `errno` from the start.
-/

namespace HipFile

variable {outcomes : ℕ → WriteOutcome} {report : List UInt8} {errno : Errno} {s : WriteState}

/-- The write takes nothing, or fails otherwise than by an interrupt. -/
def WriteOutcome.Refuses : WriteOutcome → Prop
  | .accepts n => n = 0
  | .fails e => e ≠ EINTR

/-- The bytes that a write takes if it is given enough. -/
def WriteOutcome.size : WriteOutcome → ℕ
  | .accepts n => n
  | .fails _ => 0

/-- The bytes that the first `k` writes take. -/
def taken (outcomes : ℕ → WriteOutcome) (k : ℕ) : ℕ :=
  ∑ j ∈ Finset.range k, (outcomes j).size

theorem taken_succ (outcomes : ℕ → WriteOutcome) (k : ℕ) :
    taken outcomes (k + 1) = taken outcomes k + (outcomes k).size := Finset.sum_range_succ _ k

/-! ## Rounds -/

/-- With nothing left to write, the function returns. -/
theorem writeRound_done (h : report.length ≤ s.written) :
    writeRound outcomes report s = .inr (.success, s) := if_neg (not_lt.2 h)

/-- A write that takes bytes. -/
theorem writeRound_accepts {n : ℕ} (h : s.written < report.length)
    (hout : outcomes s.writes = .accepts n) (hn : n ≠ 0) :
    writeRound outcomes report s = .inl ⟨min (s.written + n) report.length, s.errno,
      s.writes + 1, s.accepted ++ (report.drop s.written).take n⟩ := by
  have hlength : (report.drop s.written).length = report.length - s.written :=
    List.length_drop
  have hpos : ¬ ((min n (report.drop s.written).length : ℕ) : ℤ) ≤ 0 := by omega
  have hsum : s.written + min n (report.drop s.written).length =
      min (s.written + n) report.length := by omega
  unfold writeRound
  rw [if_pos h]
  simp only [WriteState.write, hout]
  rw [if_neg hpos, Int.toNat_natCast, hsum]

/-- A write that takes nothing is retried if `errno` happens to be `EINTR`. -/
theorem writeRound_zero (h : s.written < report.length)
    (hout : outcomes s.writes = .accepts 0) :
    writeRound outcomes report s =
      if s.errno = EINTR then .inl { s with writes := s.writes + 1 }
      else .inr (.reportGenerationFailed, { s with writes := s.writes + 1 }) := by
  unfold writeRound
  rw [if_pos h]
  simp only [WriteState.write, hout, Nat.zero_min, List.take_zero, List.append_nil]
  rw [if_pos (by decide)]

/-- A write that fails. -/
theorem writeRound_fails {e : Errno} (h : s.written < report.length)
    (hout : outcomes s.writes = .fails e) :
    writeRound outcomes report s =
      if e = EINTR then .inl { s with writes := s.writes + 1, errno := e }
      else .inr (.reportGenerationFailed, { s with writes := s.writes + 1, errno := e }) := by
  unfold writeRound
  rw [if_pos h]
  simp only [WriteState.write, hout]
  rw [if_pos (by decide)]

/-- A round that goes on has made a write. One that ends has made at most one, and has made it
if bytes are left. -/
theorem writeRound_writes (outcomes : ℕ → WriteOutcome) (report : List UInt8) (s : WriteState) :
    (∀ s', writeRound outcomes report s = .inl s' → s'.writes = s.writes + 1) ∧
      ∀ r, writeRound outcomes report s = .inr r →
        s.writes ≤ r.2.writes ∧ (s.written < report.length → r.2.writes = s.writes + 1) := by
  by_cases hlt : s.written < report.length
  · cases ho : outcomes s.writes with
    | accepts n =>
      by_cases hn : n = 0
      · subst hn
        rw [writeRound_zero hlt ho]
        split
        · exact Loop.goesOn rfl
        · exact Loop.leaves ⟨Nat.le_succ _, fun _ => rfl⟩
      · rw [writeRound_accepts hlt ho hn]
        exact Loop.goesOn rfl
    | fails e =>
      rw [writeRound_fails hlt ho]
      split
      · exact Loop.goesOn rfl
      · exact Loop.leaves ⟨Nat.le_succ _, fun _ => rfl⟩
  · rw [writeRound_done (not_lt.1 hlt)]
    exact Loop.leaves ⟨le_rfl, fun h => absurd h hlt⟩

/-! ## Delivery -/

/-- How the function has ended: what was written is the start of the report, all of it exactly
if it returns success, and no write but the last was refused. -/
structure Delivered (outcomes : ℕ → WriteOutcome) (report : List UInt8) (r : ReportOutcome) :
    Prop where
  inOrder : r.2.accepted <+: report
  success_iff : r.1 = .success ↔ r.2.accepted = report
  failed_iff : r.1 = .reportGenerationFailed ↔
    ∃ k, r.2.writes = k + 1 ∧ (outcomes k).Refuses
  first : ∀ k, k + 1 < r.2.writes → ¬ (outcomes k).Refuses

/-- **Exact delivery**: with rounds enough the function ends, and has delivered. -/
def Delivers (outcomes : ℕ → WriteOutcome) (report : List UInt8)
    (run : ℕ → WriteState ⊕ ReportOutcome) : Prop :=
  ∃ r, Delivered outcomes report r ∧ ∃ rounds, ∀ n, rounds < n → run n = .inr r

/-- **A write that takes nothing where `errno` is a stale `EINTR`**: no write before it was
refused, the report is not complete, and `errno` was `EINTR` at the start, or a write before it
was interrupted. -/
structure StaleZero (outcomes : ℕ → WriteOutcome) (report : List UInt8) (errno : Errno) (k : ℕ) :
    Prop where
  zero : outcomes k = .accepts 0
  retried : ∀ j < k, ¬ (outcomes j).Refuses
  incomplete : taken outcomes k < report.length
  stale : errno = EINTR ∨ ∃ j < k, outcomes j = .fails EINTR

/-- What holds as long as no write was refused. -/
structure Along (outcomes : ℕ → WriteOutcome) (report : List UInt8) (errno : Errno)
    (s : WriteState) : Prop where
  written : s.written = min (taken outcomes s.writes) report.length
  accepted : s.accepted = report.take s.written
  errno : s.errno = EINTR ↔ errno = EINTR ∨ ∃ j < s.writes, outcomes j = .fails EINTR
  retried : ∀ j < s.writes, ¬ (outcomes j).Refuses

theorem Along.start (outcomes : ℕ → WriteOutcome) (report : List UInt8) (errno : Errno) :
    Along outcomes report errno ⟨0, errno, 0, []⟩ where
  written := (Nat.zero_min _).symm
  accepted := rfl
  errno := by simp
  retried := nofun

/-- The writes before the next one. -/
theorem forall_lt_succ {P : ℕ → Prop} {k : ℕ} (h : ∀ j < k, P j) (hk : P k) :
    ∀ j < k + 1, P j := by
  intro j hj
  rcases Nat.lt_succ_iff_lt_or_eq.1 hj with hj | rfl
  · exact h j hj
  · exact hk

/-- **A round that is not refused** keeps to the report. -/
theorem Along.round (h : Along outcomes report errno s) (hlt : s.written < report.length)
    (hout : ¬ (outcomes s.writes).Refuses) : ∃ s', writeRound outcomes report s = .inl s' ∧
      s'.writes = s.writes + 1 ∧ s.written ≤ s'.written ∧
      (outcomes s.writes ≠ .fails EINTR → s.written < s'.written) ∧
      Along outcomes report errno s' := by
  have hwritten : s.written = taken outcomes s.writes := by
    have := h.written
    omega
  cases ho : outcomes s.writes with
  | accepts n =>
    have hn : n ≠ 0 := by
      rintro rfl
      exact hout (by rw [ho]; rfl)
    have htaken : taken outcomes (s.writes + 1) = s.written + n := by
      rw [taken_succ, ho, ← hwritten]
      rfl
    refine ⟨_, writeRound_accepts hlt ho hn, rfl, by simp only; omega,
      fun _ => by simp only; omega, ?_, ?_, ?_, ?_⟩
    · rw [htaken]
    · have hmin : report.take (min (s.written + n) report.length) =
          report.take (s.written + n) := by
        rw [List.take_eq_take_iff]
        omega
      simp only
      rw [hmin, h.accepted, List.take_add]
    · simp only
      rw [h.errno]
      refine or_congr_right ⟨?_, ?_⟩
      · rintro ⟨j, hj, hfail⟩
        exact ⟨j, by omega, hfail⟩
      · rintro ⟨j, hj, hfail⟩
        rcases Nat.lt_succ_iff_lt_or_eq.1 hj with hj | rfl
        · exact ⟨j, hj, hfail⟩
        · rw [ho] at hfail
          cases hfail
    · exact forall_lt_succ h.retried hout
  | fails e =>
    have he : e = EINTR := by
      by_contra hne
      exact hout (by rw [ho]; exact hne)
    subst he
    have htaken : taken outcomes (s.writes + 1) = taken outcomes s.writes := by
      rw [taken_succ, ho]
      rfl
    refine ⟨_, (writeRound_fails hlt ho).trans (if_pos rfl), rfl, le_rfl,
      fun hne => absurd rfl hne, ?_, h.accepted, ?_, ?_⟩
    · simp only
      rw [htaken]
      exact h.written
    · exact iff_of_true rfl (Or.inr ⟨s.writes, Nat.lt_succ_self _, ho⟩)
    · exact forall_lt_succ h.retried hout

/-- At the write that meets a stale `errno`, and before it, bytes are left. -/
theorem Along.incomplete (h : Along outcomes report errno s) {k : ℕ}
    (hstale : StaleZero outcomes report errno k) (hle : s.writes ≤ k) :
    s.written < report.length := by
  have hmono : taken outcomes s.writes ≤ taken outcomes k :=
    Finset.sum_le_sum_of_subset (Finset.range_mono hle)
  have hwritten := h.written
  have hincomplete := hstale.incomplete
  omega

theorem Along.accepted_isPrefix (h : Along outcomes report errno s) : s.accepted <+: report := by
  rw [h.accepted]
  exact List.take_prefix _ _

/-- A prefix that is not all. -/
theorem Along.accepted_ne (h : Along outcomes report errno s)
    (hlt : s.written < report.length) : s.accepted ≠ report := by
  intro heq
  have hlength := congrArg List.length heq
  rw [h.accepted, List.length_take] at hlength
  omega

/-- **A refused round** ends the function, unless `errno` is stale. -/
theorem Along.refused (h : Along outcomes report errno s) (hlt : s.written < report.length)
    (hout : (outcomes s.writes).Refuses) (hstale : ¬ StaleZero outcomes report errno s.writes) :
    ∃ r, writeRound outcomes report s = .inr r ∧ Delivered outcomes report r := by
  have hends : ∀ e, Delivered outcomes report (.reportGenerationFailed,
      { s with writes := s.writes + 1, errno := e }) := by
    intro e
    refine ⟨h.accepted_isPrefix, ?_, ?_, ?_⟩
    · exact iff_of_false nofun (h.accepted_ne hlt)
    · exact iff_of_true rfl ⟨s.writes, rfl, hout⟩
    · intro k hk
      exact h.retried k (Nat.lt_of_succ_lt_succ hk)
  cases ho : outcomes s.writes with
  | accepts n =>
    rw [ho] at hout
    obtain rfl : n = 0 := hout
    have herrno : s.errno ≠ EINTR := by
      intro heintr
      have hwritten := h.written
      exact hstale ⟨ho, h.retried, by omega, h.errno.1 heintr⟩
    exact ⟨_, (writeRound_zero hlt ho).trans (if_neg herrno), hends s.errno⟩
  | fails e =>
    rw [ho] at hout
    exact ⟨_, (writeRound_fails hlt ho).trans (if_neg hout), hends e⟩

/-- The function returns success with the report complete. -/
theorem Along.done (h : Along outcomes report errno s) (hle : report.length ≤ s.written) :
    Delivered outcomes report (.success, s) := by
  have hall : s.accepted = report := by
    rw [h.accepted]
    exact List.take_of_length_le hle
  refine ⟨h.accepted_isPrefix, iff_of_true rfl hall, iff_of_false nofun ?_, ?_⟩
  · rintro ⟨k, hk, hout⟩
    exact h.retried k (by rw [hk]; exact Nat.lt_succ_self k) hout
  · intro k hk
    exact h.retried k (Nat.lt_of_succ_lt hk)

/-! ## Both directions -/

/-- Without a stale zero the report is delivered. -/
theorem delivers_of_not_stale (hstale : ∀ k, ¬ StaleZero outcomes report errno k) {N : ℕ}
    (hintr : ∀ k, N ≤ k → outcomes k ≠ .fails EINTR) :
    ∃ r, Delivered outcomes report r ∧ ∃ rounds, ∀ n, rounds < n →
      Loop.iter (writeRound outcomes report) n ⟨0, errno, 0, []⟩ = .inr r := by
  -- a round writes something, or is one of the interrupts, of which there are at most `N`
  have hround : ∀ s s', Along outcomes report errno s → writeRound outcomes report s = .inl s' →
      Along outcomes report errno s' ∧
        (report.length - s'.written) + (N - s'.writes) <
          (report.length - s.written) + (N - s.writes) := by
    intro s s' h hs
    by_cases hlt : s.written < report.length
    · by_cases hout : (outcomes s.writes).Refuses
      · obtain ⟨r, hr, -⟩ := h.refused hlt hout (hstale _)
        cases hr.symm.trans hs
      · obtain ⟨s₁, hs₁, hwrites, hle, hgrows, h₁⟩ := h.round hlt hout
        obtain rfl := Sum.inl.inj (hs₁.symm.trans hs)
        refine ⟨h₁, ?_⟩
        by_cases hN : N ≤ s.writes
        · have := hgrows (hintr _ hN)
          omega
        · omega
    · rw [writeRound_done (not_lt.1 hlt)] at hs
      cases hs
  have hexit : ∀ s r, Along outcomes report errno s → writeRound outcomes report s = .inr r →
      Delivered outcomes report r := by
    intro s r h hs
    by_cases hlt : s.written < report.length
    · by_cases hout : (outcomes s.writes).Refuses
      · obtain ⟨r', hr', hdel⟩ := h.refused hlt hout (hstale _)
        obtain rfl := Sum.inr.inj (hr'.symm.trans hs)
        exact hdel
      · obtain ⟨s₁, hs₁, -⟩ := h.round hlt hout
        cases hs₁.symm.trans hs
    · rw [writeRound_done (not_lt.1 hlt)] at hs
      obtain rfl := Sum.inr.inj hs
      exact h.done (not_lt.1 hlt)
  obtain ⟨r, hr, hrounds⟩ := Loop.total (fun s : WriteState =>
    (report.length - s.written) + (N - s.writes)) hround hexit
    (Along.start outcomes report errno)
  exact ⟨r, hr, _, hrounds⟩

/-- Once a write that takes nothing is retried, the function does not end before the next. -/
theorem writes_of_stale {k : ℕ} (hstale : StaleZero outcomes report errno k) (n : ℕ)
    (r : ReportOutcome)
    (hr : Loop.iter (writeRound outcomes report) n ⟨0, errno, 0, []⟩ = .inr r) :
    k + 1 < r.2.writes := by
  -- up to the write that is retried, and after it
  let I : WriteState → Prop := fun s =>
    (s.writes ≤ k ∧ Along outcomes report errno s) ∨
      (k + 1 = s.writes ∧ s.written < report.length) ∨ k + 1 < s.writes
  have hstep : ∀ s s', I s → writeRound outcomes report s = .inl s' → I s' := by
    intro s s' hI hs
    have hcount := (writeRound_writes outcomes report s).1 s' hs
    rcases hI with ⟨hle, h⟩ | ⟨heq, hinc⟩ | hgt
    · rcases Nat.lt_or_eq_of_le hle with hlt' | heq
      · have hout := hstale.retried s.writes hlt'
        obtain ⟨s₁, hs₁, -, -, -, h₁⟩ := h.round (h.incomplete hstale hle) hout
        obtain rfl := Sum.inl.inj (hs₁.symm.trans hs)
        exact Or.inl ⟨by omega, h₁⟩
      · have hzero : outcomes s.writes = .accepts 0 := heq ▸ hstale.zero
        have hlt := h.incomplete hstale hle
        rw [writeRound_zero hlt hzero] at hs
        split at hs
        · obtain rfl := Sum.inl.inj hs
          exact Or.inr (Or.inl ⟨by simp only; omega, hlt⟩)
        · cases hs
    · exact Or.inr (Or.inr (by omega))
    · exact Or.inr (Or.inr (by omega))
  have hexit : ∀ s r, I s → writeRound outcomes report s = .inr r → k + 1 < r.2.writes := by
    intro s r hI hs
    obtain ⟨hmono, hnext⟩ := (writeRound_writes outcomes report s).2 r hs
    rcases hI with ⟨hle, h⟩ | ⟨heq, hinc⟩ | hgt
    · rcases Nat.lt_or_eq_of_le hle with hlt' | heq
      · obtain ⟨s₁, hs₁, -⟩ := h.round (h.incomplete hstale hle) (hstale.retried s.writes hlt')
        cases hs₁.symm.trans hs
      · -- `errno` is `EINTR` at the zero, so that it is retried
        have hzero : outcomes s.writes = .accepts 0 := heq ▸ hstale.zero
        have herrno : s.errno = EINTR := h.errno.2 (heq ▸ hstale.stale)
        rw [writeRound_zero (h.incomplete hstale hle) hzero, if_pos herrno] at hs
        cases hs
    · have := hnext hinc
      omega
    · omega
  have hstart : I ⟨0, errno, 0, []⟩ := Or.inl ⟨Nat.zero_le k, .start outcomes report errno⟩
  exact (Loop.iter_inv hstep hexit n _ hstart).2 r hr

/-- **When a report is delivered exactly**: no write that takes nothing meets a stale
`EINTR`. -/
theorem generateReport_delivers_iff (report : List UInt8) (fd : ℤ) (hfd : 0 ≤ fd)
    (outcomes : ℕ → WriteOutcome) (hintr : ∃ N, ∀ k, N ≤ k → outcomes k ≠ .fails EINTR)
    (errno : Errno) :
    Delivers outcomes report
        (hipFileStatsGenerateReport (some ⟨some report⟩) fd outcomes errno) ↔
      ∀ k, ¬ StaleZero outcomes report errno k := by
  have hrun : hipFileStatsGenerateReport (some ⟨some report⟩) fd outcomes errno =
      fun n => Loop.iter (writeRound outcomes report) n ⟨0, errno, 0, []⟩ := by
    funext n
    exact if_neg (not_lt.2 hfd)
  rw [hrun]
  constructor
  · rintro ⟨r, hr, rounds, hends⟩ k hstale
    have hwrites := writes_of_stale hstale (rounds + 1) r (hends _ (Nat.lt_succ_self _))
    refine hr.first k hwrites ?_
    rw [hstale.zero]
    rfl
  · intro hstale
    obtain ⟨N, hN⟩ := hintr
    exact delivers_of_not_stale hstale hN

/-- The first write is interrupted, and no later one refused. -/
def interruptedWrites (k : ℕ) : WriteOutcome := if k = 0 then .fails EINTR else .accepts 2

/-- The first write is interrupted, and every later one takes nothing. -/
def staleWrites (k : ℕ) : WriteOutcome := if k = 0 then .fails EINTR else .accepts 0

theorem generateReport_delivers_interrupted : Delivers interruptedWrites [65, 66, 67]
    (hipFileStatsGenerateReport (some ⟨some [65, 66, 67]⟩) 1 interruptedWrites 0) := by
  have hintr : ∀ k, 1 ≤ k → interruptedWrites k ≠ .fails EINTR := by
    intro k hk
    rw [interruptedWrites, if_neg (by omega)]
    exact nofun
  refine (generateReport_delivers_iff [65, 66, 67] 1 (by decide) interruptedWrites ⟨1, hintr⟩
    0).2 fun k hk => ?_
  have hzero := hk.zero
  unfold interruptedWrites at hzero
  split at hzero <;> cases hzero

/-- After an interrupt, a descriptor that takes nothing is written to for ever. -/
theorem not_delivers_stale :
    (∀ n, ∃ s, hipFileStatsGenerateReport (some ⟨some [65]⟩) 1 staleWrites 0 n = .inl s) ∧
      ¬ Delivers staleWrites [65]
        (hipFileStatsGenerateReport (some ⟨some [65]⟩) 1 staleWrites 0) := by
  let I : WriteState → Prop := fun s => s.written = 0 ∧ (s.writes = 0 ∨ s.errno = EINTR)
  have hround : ∀ s, I s → ∃ s', writeRound staleWrites [65] s = .inl s' ∧ I s' := by
    rintro s ⟨hwritten, hs⟩
    have hlt : s.written < [(65 : UInt8)].length := by
      rw [hwritten]
      exact Nat.zero_lt_one
    by_cases h0 : s.writes = 0
    · have hout : staleWrites s.writes = .fails EINTR := if_pos h0
      exact ⟨_, (writeRound_fails hlt hout).trans (if_pos rfl), hwritten, Or.inr rfl⟩
    · have hout : staleWrites s.writes = .accepts 0 := if_neg h0
      have herrno : s.errno = EINTR := hs.resolve_left h0
      exact ⟨_, (writeRound_zero hlt hout).trans (if_pos herrno), hwritten, Or.inr herrno⟩
  have hruns : ∀ n s, I s → ∃ s', Loop.iter (writeRound staleWrites [65]) n s = .inl s' := by
    intro n
    induction n with
    | zero =>
      intro s _
      exact ⟨s, rfl⟩
    | succ n ih =>
      intro s hs
      obtain ⟨s', hs', hI⟩ := hround s hs
      rw [Loop.iter_succ_inl hs']
      exact ih s' hI
  have hnever : ∀ n, ∃ s,
      hipFileStatsGenerateReport (some ⟨some [65]⟩) 1 staleWrites 0 n = .inl s :=
    fun n => hruns n _ ⟨rfl, Or.inl rfl⟩
  refine ⟨hnever, ?_⟩
  rintro ⟨r, -, rounds, hends⟩
  obtain ⟨s, hs⟩ := hnever (rounds + 1)
  cases hs.symm.trans (hends _ (Nat.lt_succ_self _))

end HipFile
