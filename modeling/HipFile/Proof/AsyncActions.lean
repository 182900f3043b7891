import HipFile.Proof.AsyncStages
import HipFile.Proof.AsyncSubmit
import HipFile.Proof.BackendActions

/-!
# What an asynchronous request does

* `hipFileIOAsync_refused`, `hipFileIOAsync_ok`, `hipFileIOAsync_error`: the checks before the
  op, which no setting is among, and what is returned.
* `Stage.run_grows`: the stages make calls that move bytes, and leave the counters.
* `Stage.does_of_mem`, `Stage.actions_balanced`: what others see of a stage.
-/

namespace HipFile

/-! ## Calls -/

variable {maxRwCount : ℕ} {c : AsyncCall} {req : AsyncRequest}

/-- An exception is never reported as success. -/
theorem ioAsyncCatch_ne_success (e : Exn) : (ioAsyncCatch e).err ≠ .success := by
  unfold ioAsyncCatch
  split
  · rename_i e
    exact e.isError
  · decide
  · decide
  · decide
  · exact handleException_ne_success e

/-- The call passes the checks that are made before an op is allocated, with the objects of
`req`. -/
structure AsyncCall.Passes (maxRwCount : ℕ) (c : AsyncCall) (req : AsyncRequest) : Prop where
  refCount : c.refCount ≠ 0
  nullPointer : c.nullPointer = false
  lookup : c.lookup = .ok req
  accept : Fallback.asyncAccept maxRwCount req = .ok ()

/-- **A call that is refused** fails, and makes no op. -/
theorem hipFileIOAsync_refused (h : ∀ req, ¬ c.Passes maxRwCount req) (s : Submission) :
    (hipFileIOAsync maxRwCount c s).1.err ≠ .success ∧
      (hipFileIOAsync maxRwCount c s).2.op = s.op := by
  unfold hipFileIOAsync
  by_cases hcount : c.refCount = 0
  · rw [if_pos hcount]
    exact ⟨nofun, rfl⟩
  rw [if_neg hcount]
  -- the first check that throws
  have hthrows : ∃ e, hipFileIOAsyncTry maxRwCount c s = (.error e, s) := by
    unfold hipFileIOAsyncTry checkNull
    cases hnull : c.nullPointer with
    | true => exact ⟨_, rfl⟩
    | false =>
      cases hlookup : c.lookup with
      | error e => exact ⟨e, rfl⟩
      | ok req =>
        cases haccept : Fallback.asyncAccept maxRwCount req with
        | ok u => exact absurd ⟨hcount, hnull, hlookup, haccept⟩ (h req)
        | error e =>
          refine ⟨e, ?_⟩
          show Fallback.asyncIo maxRwCount c.hip c.addr req s = (.error e, s)
          simp only [Fallback.asyncIo, haccept]
  obtain ⟨e, he⟩ := hthrows
  rw [he]
  exact ⟨ioAsyncCatch_ne_success e, rfl⟩

variable {sub sub' : Submission}

/-- A call that passes runs `async_io`. -/
theorem hipFileIOAsyncTry_eq (h : c.Passes maxRwCount req) (sub : Submission) :
    hipFileIOAsyncTry maxRwCount c sub = Fallback.asyncIo maxRwCount c.hip c.addr req sub := by
  unfold hipFileIOAsyncTry checkNull
  rw [h.nullPointer, h.lookup]
  rfl

theorem hipFileIOAsync_ok (h : c.Passes maxRwCount req)
    (hrun : Fallback.asyncIo maxRwCount c.hip c.addr req sub = (.ok (), sub')) :
    hipFileIOAsync maxRwCount c sub = (hipFileSuccess, sub') := by
  rw [hipFileIOAsync, if_neg h.refCount, hipFileIOAsyncTry_eq h, hrun]

theorem hipFileIOAsync_error {e : Exn} (h : c.Passes maxRwCount req)
    (hrun : Fallback.asyncIo maxRwCount c.hip c.addr req sub = (.error e, sub')) :
    hipFileIOAsync maxRwCount c sub = (ioAsyncCatch e, sub') := by
  rw [hipFileIOAsync, if_neg h.refCount, hipFileIOAsyncTry_eq h, hrun]

/-- An op of no bytes is not made. -/
theorem hipFileIOAsync_empty (h : c.Passes maxRwCount req) (hsize : req.params.size = 0)
    (sub : Submission) : (hipFileIOAsync maxRwCount c sub).2.op = sub.op := by
  have hrun : Fallback.asyncIo maxRwCount c.hip c.addr req sub =
      (.ok (), { sub with bytesTransferred := 0 }) := by
    simp only [Fallback.asyncIo, h.accept, if_pos hsize]
  rw [hipFileIOAsync_ok h hrun]

/-- An op that cannot be allocated is not made, and the call fails. -/
theorem hipFileIOAsync_notAllocated (h : c.Passes maxRwCount req) (hsize : req.params.size ≠ 0)
    (halloc : ∀ devPtr, ¬ Fallback.Allocated c.hip devPtr) (sub : Submission) :
    (hipFileIOAsync maxRwCount c sub).1.err ≠ .success ∧
      (hipFileIOAsync maxRwCount c sub).2.op = sub.op := by
  have hends := Fallback.asyncIo_submitted h.accept hsize c.hip c.addr sub
  have hrun : ∃ e, Fallback.asyncIo maxRwCount c.hip c.addr req sub =
      (.error e, { sub with bytesTransferred := 0 }) := by
    generalize Fallback.asyncIo maxRwCount c.hip c.addr req sub = r at hends ⊢
    cases hends with
    | notAllocated e _ => exact ⟨e, rfl⟩
    | devPtrFailed devPtr _ hdev _ => exact absurd hdev (halloc devPtr)
    | launched devPtr _ _ hdev _ _ _ => exact absurd hdev (halloc devPtr)
    | cleanedUp devPtr _ _ _ hdev _ _ _ => exact absurd hdev (halloc devPtr)
    | leaked devPtr _ _ _ _ hdev _ _ _ => exact absurd hdev (halloc devPtr)
  obtain ⟨e, hrun⟩ := hrun
  rw [hipFileIOAsync_error h hrun]
  exact ⟨ioAsyncCatch_ne_success e, rfl⟩

/-! ## Stages -/

variable {env : StreamEnv} {s s' : StreamState}

/-- A call that moves bytes between the file and the bounce buffer. -/
def Event.Copies : Event → Prop
  | .pread .. => True
  | .pwrite .. => True
  | _ => False

theorem Event.Copies.posix {e : Event} (h : e.Copies) : e.Posix := by
  cases e with
  | hipInit ret => exact h
  | hipAmdFile type fd devicePtr size offset => exact h
  | _ => trivial

theorem copyCall_grows (env : StreamEnv) (s : StreamState) (pos count : ℕ) (offset : ℤ) :
    World.Grows Event.Copies s.world (copyCall env s pos count offset).2.world := by
  unfold copyCall
  cases s.op.ioType with
  | read =>
    simp only [World.pread]
    cases env.sys.pread s.world.calls count offset with
    | ok n => exact .call rfl rfl trivial
    | error e => exact .call rfl rfl trivial
  | write =>
    simp only [World.pwrite]
    cases env.sys.pwrite s.world.calls count offset with
    | ok n => exact .call rfl rfl trivial
    | error e => exact .call rfl rfl trivial

theorem copyRound_grows (env : StreamEnv) (size : ℕ) (fileOffset : ℤ) (c : CopyState) :
    (∀ c', copyRound env size fileOffset c = .inl c' →
      World.Grows Event.Copies c.state.world c'.state.world) ∧
    ∀ s', copyRound env size fileOffset c = .inr s' →
      World.Grows Event.Copies c.state.world s'.world := by
  have hcall := copyCall_grows env c.state c.bytesTransferred (size - c.bytesTransferred)
    (fileOffset + c.bytesTransferred)
  unfold copyRound
  split
  · split
    · rename_i e s' heq
      rw [heq] at hcall
      split
      · exact Loop.goesOn (P := fun c' : CopyState => World.Grows Event.Copies _ c'.state.world)
          hcall
      · exact Loop.leaves (Q := fun s' : StreamState => World.Grows Event.Copies _ s'.world) hcall
    · rename_i ret s' heq
      rw [heq] at hcall
      split
      · exact Loop.leaves (Q := fun s' : StreamState => World.Grows Event.Copies _ s'.world) hcall
      · exact Loop.goesOn (P := fun c' : CopyState => World.Grows Event.Copies _ c'.state.world)
          hcall
  · exact Loop.leaves (Q := fun s' : StreamState => World.Grows Event.Copies _ s'.world)
      (World.Grows.refl _ _)

theorem cpuCopy_grows (env : StreamEnv) (rounds : ℕ) (s : StreamState) :
    World.Grows Event.Copies s.world (asyncIoCpuCopy env rounds s).2.world := by
  unfold asyncIoCpuCopy
  split
  · rename_i size fileOffset _ _
    split
    · exact World.Grows.refl _ _
    · have hloop := @Loop.iter_inv _ _ (copyRound env size fileOffset)
        (fun c => World.Grows Event.Copies s.world c.state.world)
        (fun s' => World.Grows Event.Copies s.world s'.world)
        (fun c c' hc hb => hc.trans ((copyRound_grows env size fileOffset c).1 c' hb))
        (fun c s' hc hb => hc.trans ((copyRound_grows env size fileOffset c).2 s' hb))
        rounds ⟨s, 0⟩ (World.Grows.refl _ _)
      cases hiter : Loop.iter (copyRound env size fileOffset) rounds ⟨s, 0⟩ with
      | inl c => exact hloop.1 c hiter
      | inr s' => exact hloop.2 s' hiter
  · exact World.Grows.refl _ _

/-- The kernel makes no call. -/
theorem memcpyKernel_grows (env : StreamEnv) (blockDim : ℕ) (s : StreamState) :
    World.Grows Event.Copies s.world (hipFileMemcpyKernel env blockDim s).world := by
  have hsame : (hipFileMemcpyKernel env blockDim s).world.stats = s.world.stats ∧
      (hipFileMemcpyKernel env blockDim s).world.trace = s.world.trace := by
    unfold hipFileMemcpyKernel
    split
    · exact ⟨rfl, rfl⟩
    · split
      · split
        · exact ⟨rfl, rfl⟩
        · simp only
          cases s.op.ioType with
          | read => exact ⟨rfl, rfl⟩
          | write => exact ⟨rfl, rfl⟩
      · exact ⟨rfl, rfl⟩
  exact ⟨hsame.1, [], by rw [hsame.2, List.append_nil], nofun⟩

/-- **A stage** makes calls that move bytes, and leaves the counters. -/
theorem Stage.run_grows (env : StreamEnv) (rounds : ℕ) (s : StreamState) (stage : Stage) :
    World.Grows Event.Copies s.world (stage.run env rounds s).2.world := by
  cases stage with
  | bindParams =>
    have hworld : (asyncIoBindParams env s).world = s.world := by
      unfold asyncIoBindParams
      simp only
      split
      · rfl
      · split <;> rfl
    simp only [Stage.run, hworld]
    exact World.Grows.refl _ _
  | cpuCopy => exact cpuCopy_grows env rounds s
  | memcpyKernel blockDim => exact memcpyKernel_grows env blockDim s
  | cleanup =>
    have hworld : (asyncIoCleanup env s).world = s.world := by
      unfold asyncIoCleanup
      split <;> rfl
    simp only [Stage.run, hworld]
    exact World.Grows.refl _ _

/-- What the cleanup publishes: the op's bytes, or an error. -/
theorem cleanup_published (env : StreamEnv) (s : StreamState) :
    (asyncIoCleanup env s).bytesTransferred = s.op.bytesTransferredInternal ∨
      (asyncIoCleanup env s).bytesTransferred < 0 := by
  unfold asyncIoCleanup
  split
  · right
    show -HipFileOpError.internalError.code < 0
    decide
  · exact Or.inl rfl

/-- **What others see of a stage**: calls of the fallback, the kernel, and what the cleanup
publishes. -/
inductive Stage.Does (env : StreamEnv) (s : StreamState) : Stage → Action → Prop
  | call {stage : Stage} {e : Event} (he : e.Posix) : Does env s stage (.call e)
  | kernel {blockDim : ℕ} : Does env s (.memcpyKernel blockDim) .kernel
  | published : Does env s .cleanup
      (.published s.op.ioType (asyncIoCleanup env s).bytesTransferred)

theorem Stage.does_of_mem (env : StreamEnv) (rounds : ℕ) (s : StreamState) (stage : Stage)
    {a : Action} (ha : a ∈ stage.actions s (stage.run env rounds s).2) : stage.Does env s a := by
  have hgrows := Stage.run_grows env rounds s stage
  unfold Stage.actions at ha
  rw [newCounts_of_stats hgrows.stats, List.append_nil] at ha
  rcases List.mem_append.1 ha with ha | ha
  · obtain ⟨e, rfl, he⟩ := mem_newCalls hgrows rfl ha
    exact .call he.posix
  · cases stage with
    | bindParams => cases ha
    | cpuCopy => cases ha
    | memcpyKernel => rw [List.mem_singleton.1 ha]; exact .kernel
    | cleanup => rw [List.mem_singleton.1 ha]; exact .published

/-- The cleanup of an op that has transferred bytes publishes a number that no counter has. -/
def Stage.Uncounted (s : StreamState) : Stage → Prop
  | .cleanup => 0 < s.op.bytesTransferredInternal
  | _ => False

/-- **What a stage reports it has counted**, unless it publishes bytes: it counts nothing. -/
theorem Stage.actions_balanced (env : StreamEnv) (rounds : ℕ) (s : StreamState) (stage : Stage)
    (h : ¬ stage.Uncounted s) : Balanced (stage.actions s (stage.run env rounds s).2) := by
  intro path type
  have hcounted : ∀ a, stage.Does env s a → counted path type a = 0 := by
    intro a ha
    cases ha <;> rfl
  have hreported : ∀ a, stage.Does env s a → reported path type a = 0 := by
    intro a ha
    cases ha with
    | call he => rfl
    | kernel => rfl
    | published =>
      have hle : s.op.bytesTransferredInternal ≤ 0 := Int.not_lt.1 h
      have hpub : (asyncIoCleanup env s).bytesTransferred ≤ 0 := by
        rcases cleanup_published env s with heq | hneg
        · omega
        · omega
      unfold reported
      simp only [Int.toNat_of_nonpos hpub, ite_self]
  have hmem : ∀ a ∈ stage.actions s (stage.run env rounds s).2, stage.Does env s a :=
    fun a ha => Stage.does_of_mem env rounds s stage ha
  rw [Interleaving.sum_weight_eq_zero fun a ha => hcounted a (hmem a ha),
    Interleaving.sum_weight_eq_zero fun a ha => hreported a (hmem a ha)]

end HipFile
