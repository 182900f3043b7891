import HipFile.Proof.AsyncActions
import HipFile.Proof.AsyncTransfer

/-!
# The settings and the calls made

* `Gated`: what the settings promise of all actions of a process.
* `sync_gated`, `permitted_of_does`: the actions of a synchronous request, and of a stage.
* `fastpath_gate`: without the fast path its functions are never called.
* `settings_gate`: the other promises hold as long as no asynchronous call gets past the
  checks while the fallback is off.
-/

namespace HipFile.Requests

/-- A call of `hipAmdFileRead` or `hipAmdFileWrite`. -/
def IsAmdIo : Action → Prop
  | .call (.hipAmdFile ..) => True
  | _ => False

/-- A `pread` or `pwrite`. -/
def IsPosixIo : Action → Prop
  | .call (.pread ..) => True
  | .call (.pwrite ..) => True
  | _ => False

/-- The report of a request that has failed. -/
def IsFailure : Action → Prop
  | .returned _ _ ret => ret < 0
  | .submitted err => err.err ≠ .success
  | _ => False

/-- An action that the settings permit. -/
structure Permitted (config : Configuration) (a : Action) : Prop where
  fastpath : config.fastpath = false → ¬ IsAmdIo a
  fallback : config.fallback = false → ¬ IsPosixIo a
  off : config.fallback = false → config.fastpath = false → IsFailure a

/-- **What the settings promise**: without the fast path no call of its functions, without
the fallback no `pread` and no `pwrite`, and without both only reports of failures. -/
def Gated (config : Configuration) (log : List Action) : Prop := ∀ a ∈ log, Permitted config a

variable {p : Process} {config : Configuration} {a : Action} {s s' : Requests}

/-! ## The actions of a request -/

/-- What a backend does that is enabled. -/
theorem permitted_of_allowed (h : Allowed config a) : Permitted config a := by
  cases a with
  | call e =>
    refine ⟨?_, ?_, ?_⟩
    · intro hoff hio
      rcases h with ⟨-, he⟩ | ⟨hon, -⟩
      · cases e <;> first | exact hio | exact he
      · cases hoff.symm.trans hon
    · intro hoff hio
      rcases h with ⟨hon, -⟩ | ⟨-, he⟩
      · cases hoff.symm.trans hon
      · cases e <;> first | exact hio | exact he
    · intro hoff hoff'
      rcases h with ⟨hon, -⟩ | ⟨hon, -⟩
      · cases hoff.symm.trans hon
      · cases hoff'.symm.trans hon
  | count path type bytes =>
    refine ⟨fun _ => id, fun _ => id, ?_⟩
    intro hoff hoff'
    cases path with
    | fastPath => cases hoff'.symm.trans h
    | fallbackPath => cases hoff.symm.trans h
  | kernel => cases h
  | returned => cases h
  | submitted => cases h
  | published => cases h

/-- **A synchronous request** does what the settings permit. -/
theorem sync_gated (req : SyncRequest) (p : Process) (rounds : ℕ) :
    Gated p.config (req.actions p rounds) := by
  obtain ⟨acts, hall, ⟨path, ret, heq, hret⟩ | ⟨heq, hon⟩⟩ := req.actions_allowed p rounds
  · rw [heq]
    intro a ha
    rcases List.mem_append.1 ha with ha | ha
    · exact permitted_of_allowed (hall a ha)
    · rw [List.mem_singleton.1 ha]
      refine ⟨fun _ => id, fun _ => id, ?_⟩
      intro hoff hoff'
      rcases hret with hon | hon | hneg
      · cases hoff.symm.trans hon
      · cases hoff'.symm.trans hon
      · exact hneg
  · rw [heq]
    exact fun a ha => permitted_of_allowed (hall a ha)

/-- With both backends off it returns an error, and does nothing else. -/
theorem sync_fails (req : SyncRequest) (rounds : ℕ) (hfallback : p.config.fallback = false)
    (hfastpath : p.config.fastpath = false) :
    ∃ path ret, req.actions p rounds = [.returned path req.type ret] ∧ ret < 0 := by
  obtain ⟨acts, hall, hends⟩ := req.actions_allowed p rounds
  have hnil : acts = [] := by
    refine List.eq_nil_iff_forall_not_mem.2 fun a ha => ?_
    have hoff := (permitted_of_allowed (hall a ha)).off hfallback hfastpath
    have hallowed := hall a ha
    cases a with
    | returned => cases hallowed
    | submitted => cases hallowed
    | _ => exact hoff
  rw [hnil] at hends
  rcases hends with ⟨path, ret, heq, hret⟩ | ⟨-, hon⟩
  · refine ⟨path, ret, heq, ?_⟩
    rcases hret with hon | hon | hneg
    · cases hfallback.symm.trans hon
    · cases hfastpath.symm.trans hon
    · exact hneg
  · cases hfallback.symm.trans hon

/-- No stage calls the fast path. -/
theorem not_isAmdIo_of_does {stage : Stage} {env : StreamEnv} {state : StreamState}
    (h : stage.Does env state a) : ¬ IsAmdIo a := by
  intro hio
  cases h with
  | @call _ e he => cases e <;> first | exact hio | exact he
  | kernel => exact hio
  | published => exact hio

/-- **A stage** does what the settings permit, if the fallback is on. -/
theorem permitted_of_does {stage : Stage} {env : StreamEnv} {state : StreamState}
    (h : stage.Does env state a) (hon : config.fallback = true) : Permitted config a := by
  refine ⟨fun _ => not_isAmdIo_of_does h, ?_, ?_⟩
  · intro hoff
    cases hoff.symm.trans hon
  · intro hoff
    cases hoff.symm.trans hon

/-! ## The gate of the fast path -/

/-- **Without the fast path its functions are never called**, in any run. -/
theorem fastpath_gate (hs : (machine p).Reachable s) (hoff : p.config.fastpath = false) :
    ∀ a ∈ s.actions.log, ¬ IsAmdIo a := by
  have hall : s.actions.All fun a => ¬ IsAmdIo a := by
    refine hs.invariant (I := fun s => s.actions.All fun a => ¬ IsAmdIo a) .init ?_
    intro s l s' hi _ hstep
    cases step_stepped hstep with
    | sync hidle => exact hi.put _ fun a ha => (sync_gated _ p _ a ha).fastpath hoff
    | async hidle =>
      refine hi.put _ fun a ha => ?_
      rw [List.mem_singleton.1 ha]
      exact id
    | stage hstream hstages hidle =>
      exact hi.put _ fun a ha => not_isAmdIo_of_does (Stage.does_of_mem _ _ _ _ ha)
    | act hperform => exact hi.perform hperform
    | release => exact hi
  exact hall.log

/-! ## The gate of the fallback -/

/-- An asynchronous call that does not escape the settings: the fallback is on, or the call
is refused by the checks before the op, or the op cannot be allocated. With the fast path
on it may also ask for no bytes. -/
def AsyncGated (p : Process) (_ : Requests) : Step → Prop
  | .async _ _ c _ _ _ _ => p.config.fallback = true ∨
      ∀ req, c.Passes (getMaxRwCount p.pageSize) req →
        req.params.size = 0 ∧ p.config.fastpath = true ∨
          req.params.size ≠ 0 ∧ ∀ devPtr, ¬ Fallback.Allocated c.hip devPtr
  | _ => True

/-- While the fallback is off there are no ops. -/
structure GateInv (p : Process) (s : Requests) : Prop where
  gated : s.actions.All (Permitted p.config)
  streams : p.config.fallback = false → ∀ o, s.streams.lookup o = none

theorem gateInv_init : GateInv p init := ⟨.init, fun _ _ => rfl⟩

/-- Such a call makes no op, and fails if both backends are off. -/
theorem async_gated {t o : ℕ} {c : AsyncCall} {env : StreamEnv} {world : World} {bounce : Mem}
    {bytesTransferred : ℤ} (h : AsyncGated p s (.async t o c env world bounce bytesTransferred))
    (hoff : p.config.fallback = false) (sub : Submission) :
    (p.config.fastpath = false →
        (hipFileIOAsync (getMaxRwCount p.pageSize) c sub).1.err ≠ .success) ∧
      (hipFileIOAsync (getMaxRwCount p.pageSize) c sub).2.op = sub.op := by
  rcases h with hon | h
  · cases hoff.symm.trans hon
  by_cases hpass : ∃ req, c.Passes (getMaxRwCount p.pageSize) req
  · obtain ⟨req, hpass⟩ := hpass
    rcases h req hpass with ⟨hsize, hon⟩ | ⟨hsize, halloc⟩
    · refine ⟨fun hoff' => ?_, hipFileIOAsync_empty hpass hsize sub⟩
      cases hoff'.symm.trans hon
    · have hfails := hipFileIOAsync_notAllocated hpass hsize halloc sub
      exact ⟨fun _ => hfails.1, hfails.2⟩
  · have hfails := hipFileIOAsync_refused (fun req h => hpass ⟨req, h⟩) sub
    exact ⟨fun _ => hfails.1, hfails.2⟩

theorem gateInv_step {l : Step} (hi : GateInv p s) (hg : AsyncGated p s l)
    (hstep : step p s l = some s') : GateInv p s' := by
  cases step_stepped hstep with
  | sync hidle => exact ⟨hi.gated.put _ (sync_gated _ p _), hi.streams⟩
  | @async t o c env world bounce bytesTransferred hidle =>
    have hcall := fun hoff => async_gated hg hoff (.start s.monitor bytesTransferred)
    refine ⟨hi.gated.put _ fun a ha => ?_, fun hoff o' => ?_⟩
    · rw [List.mem_singleton.1 ha]
      exact ⟨fun _ => id, fun _ => id, fun hoff => (hcall hoff).1⟩
    · have hop := (hcall hoff).2
      have hstream (env : StreamEnv) : (hipFileIOAsync (getMaxRwCount p.pageSize) c
          (.start s.monitor bytesTransferred)).2.opStream env world bounce = none := by
        rw [Submission.opStream, hop]
        rfl
      simp only [submit, hstream]
      exact hi.streams hoff o'
  | stage hstream hstages hidle =>
    -- a stage belongs to an op, and there are none while the fallback is off
    have hon : p.config.fallback = true := by
      cases hc : p.config.fallback with
      | true => rfl
      | false => cases (hi.streams hc _).symm.trans hstream
    refine ⟨hi.gated.put _ fun a ha => ?_, fun hoff => ?_⟩
    · exact permitted_of_does (Stage.does_of_mem _ _ _ _ ha) hon
    · cases hoff.symm.trans hon
  | act hperform => exact ⟨hi.gated.perform hperform, hi.streams⟩
  | release => exact ⟨hi.gated, hi.streams⟩

/-- **The settings gate every request**, in every run whose asynchronous calls do not escape
them: of the actions performed each is permitted, and with both backends off a synchronous
request does nothing but fail. -/
theorem settings_gate (p : Process) (s : Requests) (hs : (machine p).Reaches (AsyncGated p) s) :
    Gated p.config s.actions.log ∧
      (p.config.fallback = false → p.config.fastpath = false → ∀ req rounds, ∃ path ret,
        SyncRequest.actions req p rounds = [.returned path req.type ret] ∧ ret < 0) :=
  ⟨(hs.invariant gateInv_init fun _ _ _ => gateInv_step).gated.log,
    fun hfallback hfastpath req rounds => sync_fails req rounds hfallback hfastpath⟩

/-! ## Two runs with both backends off -/

/-- A process with 4 KiB pages and both backends off. -/
def offProcess : Process := ⟨4096, ⟨false, false, 1, false⟩⟩

/-- The sample read, of an op at address 64, where every HIP call succeeds. -/
def sampleCall (refCount : ℤ) : AsyncCall :=
  ⟨refCount, false, .ok Fallback.sampleRequest, Fallback.workingHip, 64⟩

/-- What its stages find: the whole size is read in one call. -/
def sampleStream : StreamEnv :=
  Fallback.streamEnv (getMaxRwCount 4096) Fallback.wholeSys Fallback.sampleRequest.params fun _ => 0

def sampleAsync (refCount : ℤ) : Step :=
  .async 0 0 (sampleCall refCount) sampleStream (Fallback.markedWorld 0) (fun _ => 0) 0

/-- The driver has not been initialised: the read is refused, and so is the next. -/
theorem settings_gate_refused :
    let s := ((machine offProcess).run init
      [sampleAsync 0, .act (.caller 0), sampleAsync 0, .act (.caller 0)]).getD init
    s.actions.log = [.submitted ⟨.invalidValue, none⟩, .submitted ⟨.invalidValue, none⟩] ∧
      Gated offProcess.config s.actions.log := by
  have hrun : (machine offProcess).run init
      [sampleAsync 0, .act (.caller 0), sampleAsync 0, .act (.caller 0)] =
        some (((machine offProcess).run init
          [sampleAsync 0, .act (.caller 0), sampleAsync 0, .act (.caller 0)]).getD init) := by rfl
  have hrefused : ∀ s, AsyncGated offProcess s (sampleAsync 0) :=
    fun s => Or.inr fun req h => absurd rfl h.refCount
  have hguard : (machine offProcess).RunMeets (AsyncGated offProcess) init
      [sampleAsync 0, .act (.caller 0), sampleAsync 0, .act (.caller 0)] :=
    ⟨hrefused _, trivial, hrefused _, trivial, trivial⟩
  exact ⟨rfl, (settings_gate offProcess _ (Machine.reaches_run .init hguard hrun)).1⟩

/-- The read is accepted, and the copy of its op reads the file. -/
theorem not_gated_async : ∃ s, (machine offProcess).Reachable s ∧
    s.actions.log = [.submitted hipFileSuccess, .call (.pread 3 16 0 (.ok 16))] ∧
      ¬ Gated offProcess.config s.actions.log := by
  have hrun : (machine offProcess).run init
      [sampleAsync 1, .act (.caller 0), .stage 0 0, .stage 0 2, .act (.stream 0)] =
        some (((machine offProcess).run init
          [sampleAsync 1, .act (.caller 0), .stage 0 0, .stage 0 2, .act (.stream 0)]).getD init) :=
    by rfl
  refine ⟨_, Machine.reachable_of_run hrun, rfl, fun h => ?_⟩
  have hread := h (.call (.pread 3 16 0 (.ok 16))) (List.mem_cons_of_mem _ List.mem_cons_self)
  exact hread.fallback rfl trivial

end HipFile.Requests
