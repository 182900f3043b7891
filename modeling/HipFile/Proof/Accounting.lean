import HipFile.Proof.Region
import HipFile.Proof.Settings

/-!
# The byte counters and the bytes reported

* `AccountInv`: all actions, performed or not, report what they count, and a counter holds
  what has been counted.
* `accountInv_step`: a step keeps it, unless it publishes the bytes of an asynchronous op.
* `bytes_accounted`: then the counters are the bytes reported.
-/

namespace HipFile.Requests

variable {p : Process} {s s' : Requests} {l : Step}

/-- A step that counts what it reports: the runtime's functions report fewer than `2^63`
bytes for each call that is made, and no `async_io_cleanup` runs on an op that has transferred
bytes. -/
def Accounted (p : Process) (s : Requests) : Step → Prop
  | .sync _ req rounds => req.hip.Bounded (req.actions p rounds)
  | .stage o _ => ∀ stream stage stages, s.streams.lookup o = some stream →
      stream.stages = stage :: stages → ¬ stage.Uncounted stream.state
  | _ => True

/-- **The accounts.** -/
structure AccountInv (s : Requests) : Prop where
  balanced : ∀ path type, s.actions.weight (reported path type) ≡
    s.actions.weight (counted path type) [MOD wordModulus]
  stats : ∀ path type, s.stats.getCounter path type =
    (s.actions.log.map (counted path type)).sum % wordModulus

theorem accountInv_init : AccountInv init := by
  refine ⟨fun path type => ?_, fun path type => ?_⟩
  · show Interleaving.weight (reported path type) .init ≡
      Interleaving.weight (counted path type) .init [MOD wordModulus]
    rw [Interleaving.weight_init, Interleaving.weight_init]
  · cases path <;> cases type <;> rfl

/-- Actions that report what they count keep the balance. -/
theorem AccountInv.put {party : Party} {acts : List Action} (hi : AccountInv s)
    (hidle : s.actions.Idle party) (hacts : Balanced acts) (path : Path) (type : IoType) :
    (s.actions.put party acts).weight (reported path type) ≡
      (s.actions.put party acts).weight (counted path type) [MOD wordModulus] := by
  rw [Interleaving.weight_put _ hidle, Interleaving.weight_put _ hidle]
  exact (hi.balanced path type).add (hacts path type)

/-- What an action does to a counter is what it counts. -/
theorem getCounter_apply (st : Stats) (a : Action) (path : Path) (type : IoType)
    (h : st.getCounter path type < wordModulus) :
    (a.apply st).getCounter path type = (st.getCounter path type + counted path type a) %
      wordModulus := by
  have hsame : (st.getCounter path type + 0) % wordModulus = st.getCounter path type := by
    rw [Nat.add_zero, Nat.mod_eq_of_lt h]
  cases a with
  | count path' type' bytes =>
    rw [Action.apply, Stats.getCounter_add, counted]
    by_cases heq : path' = path ∧ type' = type
    · rw [if_pos heq, if_pos heq]
    · rw [if_neg heq, if_neg heq, hsame]
  | _ => exact hsame.symm

/-- **A step keeps the accounts.** -/
theorem accountInv_step (hlevel : 1 ≤ p.config.statsLevel) (hi : AccountInv s)
    (hg : Accounted p s l) (hstep : step p s l = some s') : AccountInv s' := by
  cases step_stepped hstep with
  | @sync t req rounds hidle =>
    exact ⟨hi.put hidle (req.actions_balanced p rounds ⟨hlevel, hg⟩), hi.stats⟩
  | async hidle =>
    -- the result of the submission is no count
    exact ⟨hi.put hidle fun _ _ => rfl, hi.stats⟩
  | @stage o rounds stream stage stages hstream hstages hidle =>
    have hcounted := hg stream stage stages hstream hstages
    exact ⟨hi.put hidle (Stage.actions_balanced stream.env rounds
      { stream.state with monitor := s.monitor } stage hcounted), hi.stats⟩
  | @act party a actions hperform =>
    refine ⟨fun path type => ?_, fun path type => ?_⟩
    -- an action that is performed moves to the log, and the counters follow
    · simp only [Interleaving.weight_perform _ hperform]
      exact hi.balanced path type
    · obtain ⟨acts, -, rfl⟩ := Interleaving.perform_cases hperform
      have hstats := hi.stats path type
      have hlt : s.stats.getCounter path type < wordModulus := by
        rw [hstats]
        exact Nat.mod_lt _ (by decide)
      simp only [getCounter_apply _ _ _ _ hlt, hstats, List.map_append, List.sum_append,
        List.map_cons, List.map_nil, List.sum_singleton, Nat.mod_add_mod]
  | release => exact ⟨hi.balanced, hi.stats⟩

/-- **Byte accounting**: in every run whose steps count what they report, whenever no party
has anything left to perform, each counter is the sum of the bytes that have been reported
as transferred by its backend in its direction. -/
theorem bytes_accounted (p : Process) (hlevel : 1 ≤ p.config.statsLevel) (s : Requests)
    (hs : (machine p).Reaches (Accounted p) s) (hidle : ∀ party, s.actions.Idle party) (path : Path)
    (type : IoType) : s.stats.getCounter path type =
      (s.actions.log.map (reported path type)).sum % wordModulus := by
  have hi : AccountInv s := hs.invariant accountInv_init fun _ _ _ => accountInv_step hlevel
  have hbalanced := hi.balanced path type
  rw [Interleaving.weight_done _ hidle, Interleaving.weight_done _ hidle] at hbalanced
  rw [hi.stats path type]
  exact hbalanced.symm

/-! ## Two runs -/

/-- A process with 4 KiB pages, both backends, and the counters on. -/
def onProcess : Process := ⟨4096, ⟨true, true, 1, false⟩⟩

/-- A read of sixteen bytes into the start of the allocation, through the fallback. -/
def sampleSync : SyncRequest where
  type := .read
  fh := 8
  bufferBase := 0x10000
  size := 16
  fileOffset := 0
  bufferOffset := 0
  driver := oneFile
  queries := oneAllocation
  sys := Fallback.wholeSys
  hip := ⟨fun _ => .ok (), fun _ => .ok (), fun _ => .ok (), fun _ => none⟩
  file := Fallback.markedFile 0
  dev := fun _ => 0
  hipInited := false

/-- A synchronous read, with its `mmap`, `pread`, `hipMemcpy` and its addition to the counter,
up to its return. -/
def syncRun : List Step :=
  [.sync 0 sampleSync 2, .act (.caller 0), .act (.caller 0), .act (.caller 0), .act (.caller 0),
    .act (.caller 0)]

/-- The sixteen bytes are counted and reported. -/
theorem bytes_accounted_sync : ∃ s, (machine onProcess).Reachable s ∧
    s.stats.getCounter .fallbackPath .read = 16 ∧
      (s.actions.log.map (reported .fallbackPath .read)).sum = 16 ∧
        s.stats.getCounter .fallbackPath .read =
          (s.actions.log.map (reported .fallbackPath .read)).sum % wordModulus := by
  have hrun : (machine onProcess).run init syncRun =
      some (((machine onProcess).run init syncRun).getD init) := by rfl
  have hbounded : sampleSync.hip.Bounded (sampleSync.actions onProcess 2) := fun _ _ => nofun
  have hguard : (machine onProcess).RunMeets (Accounted onProcess) init syncRun :=
    ⟨hbounded, trivial, trivial, trivial, trivial, trivial, trivial⟩
  refine ⟨_, Machine.reachable_of_run hrun, rfl, rfl, ?_⟩
  refine bytes_accounted onProcess (by decide) _ (Machine.reaches_run .init hguard hrun) ?_ _ _
  exact Interleaving.idle_of_values fun acts hacts => List.mem_singleton.1 hacts

/-- An asynchronous read of sixteen bytes, with its `pread` and its kernel, up to what it
publishes. -/
def asyncRun : List Step :=
  [sampleAsync 1, .act (.caller 0), .stage 0 0, .stage 0 2, .act (.stream 0), .stage 0 0,
    .act (.stream 0), .stage 0 0, .act (.stream 0)]

/-- The sixteen bytes that it publishes are in no counter. -/
theorem not_accounted_async : ∃ s, (machine onProcess).Reachable s ∧
    (∀ party, s.actions.Idle party) ∧
      (∀ stream ∈ Table.values s.streams, stream.stages = []) ∧
        s.stats.getCounter .fallbackPath .read = 0 ∧
          (s.actions.log.map (reported .fallbackPath .read)).sum % wordModulus = 16 ∧
            s.stats.getCounter .fallbackPath .read ≠
              (s.actions.log.map (reported .fallbackPath .read)).sum % wordModulus := by
  have hrun : (machine onProcess).run init asyncRun =
      some (((machine onProcess).run init asyncRun).getD init) := by rfl
  refine ⟨_, Machine.reachable_of_run hrun, ?_, ?_, rfl, rfl, by decide⟩
  · refine Interleaving.idle_of_values fun acts hacts => ?_
    rcases List.mem_cons.1 hacts with rfl | hacts
    · rfl
    · exact List.mem_singleton.1 hacts
  · intro stream hstream
    rw [List.mem_singleton.1 hstream]
    rfl

end HipFile.Requests
