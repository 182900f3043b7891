import HipFile.Model.ConcurrentStreams
import HipFile.Proof.StreamOrder

/-!
# A stage, among the stages of other streams

* `Alike`: two states that a stage cannot tell apart.
* `Settled`, `Doing`: what holds of an op with its parameters, wherever its stages stand.
* `next_alike`: what a stage does depends on the region of its request only.
* `next_settled`: a stage keeps what holds of the op, and changes what its request changes.
-/

namespace HipFile

open Bytes

variable {maxRwCount : ℕ} {env : StreamEnv} {req : AsyncRequest} {client params : Params}
  {s s' r r' : StreamState} {a : Activity} {a' : Option Activity} {stage : Stage}
  {D F : ℕ → Prop}

/-- The device region of a request. -/
def AsyncRequest.deviceSpan (maxRwCount : ℕ) (req : AsyncRequest) (client : Params) : Span :=
  ⟨regionStart req.buffer (req.bound maxRwCount client).bufferOffset,
    (req.bound maxRwCount client).size⟩

/-- The file region of a request. -/
def AsyncRequest.fileSpan (maxRwCount : ℕ) (req : AsyncRequest) (client : Params) : Span :=
  ⟨(req.bound maxRwCount client).fileOffset.val.toNat, (req.bound maxRwCount client).size⟩

/-! ## States that a stage cannot tell apart -/

/-- The same calls, and the same bytes at `D` of the device and at `F` of the file. -/
structure World.SameAt (D F : ℕ → Prop) (w v : World) : Prop where
  trace : v.trace = w.trace
  hipInited : v.hipInited = w.hipInited
  dev : ∀ i, D i → v.dev i = w.dev i
  data : ∀ i, F i → v.file.data i = w.file.data i

/-- **The same for a stage** that works on the device bytes `D` and the file bytes `F`. -/
inductive Alike (D F : ℕ → Prop) (s : StreamState) : StreamState → Prop
  | mk (v : World) (monitor : AsyncMonitor) (hworld : s.world.SameAt D F v)
      (hmonitor : monitor.submittedOps = s.monitor.submittedOps) :
      Alike D F s { s with world := v, monitor := monitor }

theorem World.SameAt.log {w v : World} (h : w.SameAt D F v) (e : Event) :
    (w.log e).SameAt D F (v.log e) := by
  refine ⟨?_, h.hipInited, h.dev, h.data⟩
  simp only [World.log_trace, h.trace]

theorem World.SameAt.calls {w v : World} (h : w.SameAt D F v) : v.calls = w.calls := by
  unfold World.calls
  rw [h.trace]

theorem Alike.setInternal (h : Alike D F s r) (value : ℤ) :
    Alike D F (s.setInternal value) (r.setInternal value) := by
  obtain ⟨v, monitor, hworld, hmonitor⟩ := h
  exact .mk v monitor hworld hmonitor

theorem bindParams_alike (h : Alike D F s r) :
    Alike D F (asyncIoBindParams env s) (asyncIoBindParams env r) := by
  obtain ⟨v, monitor, hworld, hmonitor⟩ := h
  unfold asyncIoBindParams
  simp only
  split
  · exact .mk v monitor hworld hmonitor
  · split
    · exact .mk v monitor hworld hmonitor
    · exact .mk v monitor hworld hmonitor

theorem cleanup_alike (h : Alike D F s r) :
    Alike D F (asyncIoCleanup env s) (asyncIoCleanup env r) := by
  obtain ⟨v, monitor, hworld, hmonitor⟩ := h
  unfold asyncIoCleanup AsyncMonitor.completeOp
  simp only [hmonitor]
  by_cases hmem : env.addr ∉ s.monitor.submittedOps
  · rw [if_pos hmem, if_pos hmem]
    exact .mk v monitor hworld hmonitor
  · rw [if_neg hmem, if_neg hmem]
    exact .mk v _ hworld rfl

/-- The call of a round reads and writes the bytes that it asks for. -/
theorem copyCall_alike (h : Alike D F s r) {pos count : ℕ} {offset : ℤ}
    (hF : ∀ i, offset.toNat ≤ i → i < offset.toNat + count → F i) :
    (copyCall env r pos count offset).1 = (copyCall env s pos count offset).1 ∧
      Alike D F (copyCall env s pos count offset).2 (copyCall env r pos count offset).2 := by
  obtain ⟨v, monitor, hworld, hmonitor⟩ := h
  unfold copyCall
  cases hio : s.op.ioType with
  | read =>
    simp only [pread_eq, hworld.calls]
    have hn := env.retBytes_le .read s.world.calls count offset
    have hbytes : splice s.bounce pos v.file.data offset.toNat
          (retBytes (env.sys.pread s.world.calls count offset)) =
        splice s.bounce pos s.world.file.data offset.toNat
          (retBytes (env.sys.pread s.world.calls count offset)) := by
      refine splice_congr _ _ fun i hi => hworld.data _ (hF _ (by omega) ?_)
      exact Nat.add_lt_add_left (Nat.lt_of_lt_of_le hi hn) _
    rw [hbytes]
    exact ⟨trivial, .mk _ monitor (hworld.log _) hmonitor⟩
  | write =>
    have hview : StreamState.view env { s with world := v, monitor := monitor } = s.view env := rfl
    simp only [World.pwrite, hworld.calls, hview]
    cases hret : env.sys.pwrite s.world.calls count offset with
    | error e => exact ⟨rfl, .mk _ monitor (hworld.log _) hmonitor⟩
    | ok n =>
      refine ⟨rfl, .mk _ monitor ⟨(hworld.log _).trace, hworld.hipInited, hworld.dev, ?_⟩
        hmonitor⟩
      intro i hi
      simp only [FileData.write_data, splice_apply]
      rw [hworld.data i hi]

theorem copyNext_alike (h : Alike D F s r) {size n : ℕ} {fileOffset : ℤ} (h0 : 0 ≤ fileOffset)
    (hF : ∀ i, fileOffset.toNat ≤ i → i < fileOffset.toNat + size → F i) :
    (copyNext env size fileOffset n r).2 = (copyNext env size fileOffset n s).2 ∧
      Alike D F (copyNext env size fileOffset n s).1 (copyNext env size fileOffset n r).1 := by
  unfold copyNext copyRound
  by_cases hlt : n < size
  · simp only
    rw [if_pos hlt, if_pos hlt]
    have hcovers : ∀ i, (fileOffset + n).toNat ≤ i → i < (fileOffset + n).toNat + (size - n) →
        F i := fun i hi hi' => hF i (by omega) (by omega)
    obtain ⟨hret, hnext⟩ := @copyCall_alike env s r D F h n (size - n) (fileOffset + n) hcovers
    revert hret hnext
    rcases copyCall env s n (size - n) (fileOffset + n) with ⟨ret, s₁⟩
    rcases copyCall env r n (size - n) (fileOffset + n) with ⟨ret', r₁⟩
    rintro rfl hnext
    cases ret' with
    | error e =>
      simp only
      by_cases he : e = EINTR
      · rw [if_pos he, if_pos he]
        exact ⟨rfl, hnext⟩
      · rw [if_neg he, if_neg he]
        exact ⟨rfl, hnext.setInternal _⟩
    | ok k =>
      simp only
      by_cases hk : k = 0
      · rw [if_pos hk, if_pos hk]
        exact ⟨rfl, hnext.setInternal _⟩
      · rw [if_neg hk, if_neg hk]
        exact ⟨rfl, hnext⟩
  · simp only
    rw [if_neg hlt, if_neg hlt]
    exact ⟨rfl, h.setInternal _⟩

theorem copyStart_alike (h : Alike D F s r) (hs : copyStart s = some (s', a')) :
    ∃ r', copyStart r = some (r', a') ∧ Alike D F s' r' := by
  obtain ⟨v, monitor, hworld, hmonitor⟩ := h
  unfold copyStart at hs ⊢
  cases hsize : s.op.size with
  | pointer => simp only [hsize] at hs; cases hs
  | value size =>
    cases hoffset : s.op.fileOffset with
    | pointer => simp only [hsize, hoffset] at hs; cases hs
    | value fileOffset =>
      simp only [hsize, hoffset] at hs ⊢
      by_cases hst : s.op.bytesTransferredInternal < 0
      · rw [if_pos hst] at hs ⊢
        cases hs
        exact ⟨_, rfl, .mk v monitor hworld hmonitor⟩
      · rw [if_neg hst] at hs ⊢
        cases hs
        exact ⟨_, rfl, .mk v monitor hworld hmonitor⟩

theorem kernelStart_alike (h : Alike D F s r) (blockDim : ℕ) :
    (kernelStart env blockDim r).2 = (kernelStart env blockDim s).2 ∧
      Alike D F (kernelStart env blockDim s).1 (kernelStart env blockDim r).1 := by
  obtain ⟨v, monitor, hworld, hmonitor⟩ := h
  have hsame : Alike D F s { s with world := v, monitor := monitor } :=
    .mk v monitor hworld hmonitor
  unfold kernelStart
  simp only
  split
  · exact ⟨rfl, hsame⟩
  · split
    · split
      · exact ⟨rfl, hsame.setInternal _⟩
      · exact ⟨rfl, hsame⟩
    · exact ⟨rfl, hsame.setInternal _⟩

/-- A copy of the kernel reads and writes its own word. -/
theorem kernelCopy_alike (h : Alike D F s r) {bufferOffset : ℤ} {sp : Span}
    (hD : ∀ i, sp.Covers i → D ((s.op.gpuBuffer + toSizeT bufferOffset) % wordModulus + i)) :
    Alike D F (kernelCopy env bufferOffset sp s) (kernelCopy env bufferOffset sp r) := by
  obtain ⟨v, monitor, hworld, hmonitor⟩ := h
  unfold kernelCopy
  simp only
  cases hio : s.op.ioType with
  | read =>
    refine .mk _ monitor ⟨hworld.trace, hworld.hipInited, ?_, hworld.data⟩ hmonitor
    intro i hi
    simp only [copySpans, List.foldl_cons, List.foldl_nil, splice_apply]
    rw [hworld.dev i hi]
    rfl
  | write =>
    have hbytes : ∀ region, (∀ i, sp.Covers i → D (region + i)) →
        copySpans s.bounce 0 v.dev region [sp] = copySpans s.bounce 0 s.world.dev region [sp] := by
      intro region hregion
      simp only [copySpans, List.foldl_cons, List.foldl_nil]
      refine splice_congr _ _ fun i hi => ?_
      rw [Nat.add_assoc]
      exact hworld.dev _ (hregion _ ⟨by omega, by omega⟩)
    simp only
    rw [hbytes _ hD]
    exact .mk v monitor hworld hmonitor

/-! ## What a stage changes -/

/-- An op with its parameters: unless it has an error, they are valid, and it has counted no more
bytes than they say. -/
structure Settled (maxRwCount : ℕ) (req : AsyncRequest) (params : Params) (op : AsyncOpFallback) :
    Prop where
  bound : Bound maxRwCount req params op
  region : 0 ≤ op.bytesTransferredInternal → RegionOk maxRwCount req params
  status_le : op.bytesTransferredInternal ≤ params.size
  status_lt : op.bytesTransferredInternal < wordModulus

/-- What a stream may be doing with a stage of such an op. -/
def Doing (params : Params) (op : AsyncOpFallback) : Stage → Activity → Prop
  | _, .idle => True
  | .cpuCopy, .copying size fileOffset bytesTransferred =>
    0 ≤ op.bytesTransferredInternal ∧ size = params.size ∧ fileOffset = params.fileOffset ∧
      bytesTransferred ≤ size
  | .memcpyKernel _, .kernel bufferOffset spans =>
    0 ≤ op.bytesTransferredInternal ∧ bufferOffset = params.bufferOffset ∧
      ∀ sp ∈ spans, ∀ i, sp.Covers i → i < params.size
  | _, _ => False

/-- Only bytes that the request may change have changed, and the ops are with the monitor as
before. -/
structure Within (maxRwCount : ℕ) (req : AsyncRequest) (client : Params) (s s' : StreamState) :
    Prop where
  dev : ∀ i, ¬ req.ChangesDev maxRwCount client i → s'.world.dev i = s.world.dev i
  data : ∀ i, ¬ req.ChangesFile maxRwCount client i →
    s'.world.file.data i = s.world.file.data i
  monitor : s'.monitor.submittedOps = s.monitor.submittedOps

theorem Within.refl (s : StreamState) : Within maxRwCount req client s s :=
  ⟨fun _ _ => rfl, fun _ _ => rfl, rfl⟩

theorem Within.setInternal (h : Within maxRwCount req client s s') (value : ℤ) :
    Within maxRwCount req client s (s'.setInternal value) := ⟨h.dev, h.data, h.monitor⟩

theorem Settled.setInternal {value : ℤ} (h : Settled maxRwCount req params s.op)
    (hregion : 0 ≤ value → RegionOk maxRwCount req params) (hle : value ≤ params.size)
    (hlt : value < wordModulus) : Settled maxRwCount req params (s.setInternal value).op :=
  ⟨h.bound.setInternal value, hregion, hle, hlt⟩

/-- An error. -/
theorem Settled.error {value : ℤ} (h : Settled maxRwCount req params s.op) (hneg : value < 0) :
    Settled maxRwCount req params (s.setInternal value).op := by
  refine h.setInternal (fun h0 => absurd h0 (by omega)) (by omega) ?_
  have : 0 < wordModulus := by decide
  omega

/-- A count. -/
theorem Settled.count {n : ℕ} (h : Settled maxRwCount req params s.op)
    (h0 : 0 ≤ s.op.bytesTransferredInternal) (hn : n ≤ params.size) :
    Settled maxRwCount req params (s.setInternal (toSsizeT n)).op := by
  have hle := toSsizeT_le n
  exact h.setInternal (fun _ => h.region h0) (by omega) (toSsizeT_lt n)

/-- What is left of a stage that goes on. -/
def Left (params : Params) (op : AsyncOpFallback) (stage : Stage) : Option Activity → Prop
  | some a => Doing params op stage a
  | none => True

variable (hs : Settled maxRwCount req (req.bound maxRwCount client) s.op)

/-- The call of a round. -/
theorem copyCall_within {pos : ℕ}
    (hok : RegionOk maxRwCount req (req.bound maxRwCount client)) (hb : s.op.ioType = req.type)
    (hpos : pos < (req.bound maxRwCount client).size) :
    Within maxRwCount req client s
      (copyCall env s pos ((req.bound maxRwCount client).size - pos)
        ((req.bound maxRwCount client).fileOffset + pos)).2 := by
  have h0 := (offsetsOk_of_paramsValid hok.2).fileOffset
  obtain ⟨s', hcall, hcalled⟩ := copyCall_spec env s pos ((req.bound maxRwCount client).size - pos)
    ((req.bound maxRwCount client).fileOffset + pos)
  have hn := env.retBytes_le s.op.ioType s.world.calls ((req.bound maxRwCount client).size - pos)
    ((req.bound maxRwCount client).fileOffset + pos)
  rw [hcall]
  refine ⟨fun i _ => by rw [hcalled.dev], fun i hi => ?_, by rw [hcalled.monitor]⟩
  have hbytes := hcalled.bytes
  cases htype : req.type with
  | read =>
    simp only [hb, htype] at hbytes
    rw [hbytes.1]
  | write =>
    simp only [hb, htype] at hbytes hn
    rw [hbytes.2]
    refine splice_outside _ _ _ ?_
    by_contra hin
    exact hi ⟨htype, by omega, by omega⟩

include hs in
theorem copyNext_settled {size n : ℕ} {fileOffset : ℤ} {a : Option Activity}
    (hd : Doing (req.bound maxRwCount client) s.op .cpuCopy (.copying size fileOffset n))
    (h : copyNext env size fileOffset n s = (s', a)) :
    Settled maxRwCount req (req.bound maxRwCount client) s'.op ∧
      Left (req.bound maxRwCount client) s'.op .cpuCopy a ∧ Within maxRwCount req client s s' := by
  obtain ⟨h0, rfl, rfl, hn⟩ := hd
  unfold copyNext copyRound at h
  simp only at h
  by_cases hlt : n < (req.bound maxRwCount client).size
  · rw [if_pos hlt] at h
    have hwithin := @copyCall_within _ env _ _ s _ (hs.region h0) hs.bound.ioType hlt
    obtain ⟨s₁, hcall, hcalled⟩ := copyCall_spec env s n ((req.bound maxRwCount client).size - n)
      ((req.bound maxRwCount client).fileOffset + n)
    have hret := env.retBytes_le s.op.ioType s.world.calls
      ((req.bound maxRwCount client).size - n) ((req.bound maxRwCount client).fileOffset + n)
    have hs₁ : Settled maxRwCount req (req.bound maxRwCount client) s₁.op := hcalled.op ▸ hs
    have h0₁ : 0 ≤ s₁.op.bytesTransferredInternal := by rw [hcalled.op]; exact h0
    rw [hcall] at h hwithin
    revert h hret
    cases env.ioOutcome s.op.ioType s.world.calls ((req.bound maxRwCount client).size - n)
        ((req.bound maxRwCount client).fileOffset + n) with
    | error e =>
      intro h _
      simp only at h
      by_cases he : e = EINTR
      · rw [if_pos he] at h
        cases h
        exact ⟨hs₁, ⟨h0₁, rfl, rfl, hn⟩, hwithin⟩
      · rw [if_neg he] at h
        cases h
        exact ⟨hs₁.error (by decide), trivial, hwithin.setInternal _⟩
    | ok k =>
      intro h hret
      simp only at h
      rw [retBytes_ok] at hret
      by_cases hk : k = 0
      · rw [if_pos hk] at h
        cases h
        exact ⟨hs₁.count h0₁ hn, trivial, hwithin.setInternal _⟩
      · rw [if_neg hk] at h
        cases h
        have hle : n + k ≤ (req.bound maxRwCount client).size := by omega
        exact ⟨hs₁, ⟨h0₁, rfl, rfl, hle⟩, hwithin⟩
  · rw [if_neg hlt] at h
    cases h
    exact ⟨hs.count h0 hn, trivial, (Within.refl s).setInternal _⟩

include hs in
theorem copyStart_settled (h : copyStart s = some (s', a')) :
    Settled maxRwCount req (req.bound maxRwCount client) s'.op ∧
      Left (req.bound maxRwCount client) s'.op .cpuCopy a' ∧ Within maxRwCount req client s s' := by
  unfold copyStart at h
  simp only [hs.bound.size, hs.bound.fileOffset] at h
  by_cases hst : s.op.bytesTransferredInternal < 0
  · rw [if_pos hst] at h
    cases h
    exact ⟨hs, trivial, .refl s⟩
  · rw [if_neg hst] at h
    cases h
    exact ⟨hs, ⟨Int.not_lt.1 hst, rfl, rfl, Nat.zero_le _⟩, .refl s⟩

include hs in
theorem kernelStart_settled {blockDim : ℕ} (h : kernelStart env blockDim s = (s', a')) :
    Settled maxRwCount req (req.bound maxRwCount client) s'.op ∧
      Left (req.bound maxRwCount client) s'.op (.memcpyKernel blockDim) a' ∧
      Within maxRwCount req client s s' := by
  unfold kernelStart at h
  have hptr : ¬ (s.op.bounceBufferDevPtr = 0 ∨ s.op.gpuBuffer = 0) := by
    rintro (h | h)
    · exact hs.bound.devPtr h
    · rw [hs.bound.gpuBuffer] at h
      exact req.buffer.nonnull h
  simp only [hs.bound.size, hs.bound.bufferOffset, if_neg hptr] at h
  by_cases hst : s.op.bytesTransferredInternal < 0
  · rw [if_pos hst] at h
    cases h
    exact ⟨hs, trivial, .refl s⟩
  · rw [if_neg hst] at h
    cases h
    refine ⟨hs, ⟨Int.not_lt.1 hst, rfl, ?_⟩, .refl s⟩
    intro sp hsp i hi
    have hmem := (env.order_perm _).mem_iff.1 hsp
    have hlt := lt_of_covers_kernelSpans hmem hi
    have hle := hs.status_le
    have hword := hs.status_lt
    obtain ⟨n, hn⟩ := Int.eq_ofNat_of_zero_le (Int.not_lt.1 hst)
    cases hio : s.op.ioType with
    | read =>
      simp only [hio, hn] at hlt
      rw [toSizeT_natCast, Nat.mod_eq_of_lt (by omega)] at hlt
      omega
    | write =>
      simp only [hio] at hlt
      exact hlt

include hs in
theorem kernelCopy_settled {blockDim : ℕ} {bufferOffset : ℤ} {sp : Span} {spans : List Span}
    (hd : Doing (req.bound maxRwCount client) s.op (.memcpyKernel blockDim)
      (.kernel bufferOffset (sp :: spans))) :
    Settled maxRwCount req (req.bound maxRwCount client) (kernelCopy env bufferOffset sp s).op ∧
      Left (req.bound maxRwCount client) (kernelCopy env bufferOffset sp s).op
        (.memcpyKernel blockDim) (some (.kernel bufferOffset spans)) ∧
      Within maxRwCount req client s (kernelCopy env bufferOffset sp s) := by
  obtain ⟨h0, rfl, hspans⟩ := hd
  have hsp := hspans sp List.mem_cons_self
  have hrest : ∀ sp' ∈ spans, ∀ i, sp'.Covers i → i < (req.bound maxRwCount client).size :=
    fun sp' hsp' => hspans sp' (List.mem_cons_of_mem sp hsp')
  obtain ⟨hregion, -⟩ := region_eq_regionStart (offsetsOk_of_paramsValid (hs.region h0).2)
  unfold kernelCopy
  simp only [hs.bound.gpuBuffer, hregion]
  cases htype : req.type with
  | read =>
    have hio : s.op.ioType = .read := hs.bound.ioType.trans htype
    simp only [hio]
    refine ⟨hs, ⟨h0, rfl, hrest⟩, fun i hi => ?_, fun _ _ => rfl, rfl⟩
    refine splice_outside _ _ _ ?_
    by_contra hin
    have hlt := hsp (i - regionStart req.buffer (req.bound maxRwCount client).bufferOffset)
      ⟨by omega, by omega⟩
    exact hi ⟨htype, by omega, by omega⟩
  | write =>
    have hio : s.op.ioType = .write := hs.bound.ioType.trans htype
    simp only [hio]
    exact ⟨hs, ⟨h0, rfl, hrest⟩, fun _ _ => rfl, fun _ _ => rfl, rfl⟩

/-! ## Any stage -/

include hs in
/-- **A stage keeps what holds of the op**, and changes what its request changes. -/
theorem next_settled (hd : Doing (req.bound maxRwCount client) s.op stage a)
    (hbind : stage ≠ .bindParams) (h : stage.next env a s = some (s', a')) :
    Settled maxRwCount req (req.bound maxRwCount client) s'.op ∧
      Left (req.bound maxRwCount client) s'.op stage a' ∧ Within maxRwCount req client s s' := by
  cases stage with
  | bindParams => exact absurd rfl hbind
  | cleanup =>
    cases h
    have hop : (asyncIoCleanup env s).op = s.op ∧ (asyncIoCleanup env s).world = s.world := by
      unfold asyncIoCleanup
      split <;> exact ⟨rfl, rfl⟩
    refine ⟨hop.1 ▸ hs, trivial, fun _ _ => by rw [hop.2], fun _ _ => by rw [hop.2], ?_⟩
    exact cleanup_submittedOps env s
  | cpuCopy =>
    cases a with
    | idle => exact copyStart_settled hs h
    | copying size fileOffset n => exact copyNext_settled hs hd (Option.some.inj h)
    | kernel bufferOffset spans => exact hd.elim
  | memcpyKernel blockDim =>
    cases a with
    | idle => exact kernelStart_settled hs (Option.some.inj h)
    | copying size fileOffset n => exact hd.elim
    | kernel bufferOffset spans =>
      cases spans with
      | nil =>
        cases h
        exact ⟨hs, trivial, .refl s⟩
      | cons sp spans =>
        cases h
        exact kernelCopy_settled hs hd

/-- The stage that binds the parameters settles the op. -/
theorem bindParams_settled {devPtr : ℕ} (hM : env.maxRwCount = maxRwCount)
    (hfix : req.stream.allFixed = false) (hptr : devPtr ≠ 0)
    (hop : s.op = AsyncOpFallback.construct maxRwCount req devPtr) :
    Settled maxRwCount req (req.bound maxRwCount env.client) (asyncIoBindParams env s).op ∧
      Within maxRwCount req env.client s (asyncIoBindParams env s) := by
  have hbound := asyncIoBindParams_spec hM hfix hptr hop
  have hword : (0 : ℤ) < wordModulus := by decide
  have hwithin : Within maxRwCount req env.client s (asyncIoBindParams env s) := by
    rw [hbound.others]
    exact ⟨fun _ _ => rfl, fun _ _ => rfl, rfl⟩
  refine ⟨?_, hwithin⟩
  rcases hbound.status with ⟨hst, -, hregion⟩ | ⟨hst, -, -⟩
  · have hok : RegionOk maxRwCount req (req.bound maxRwCount env.client) := by
      refine hregion.resolve_right fun hover => ?_
      have hall := hover.1
      rw [hfix] at hall
      cases hall
    exact ⟨hbound.bound, fun _ => hok, by omega, by omega⟩
  · have hneg := invalidValueStatus_neg
    exact ⟨hbound.bound, fun h0 => absurd h0 (by omega), by omega, by omega⟩

/-- An op that is constructed with its parameters. -/
theorem fixed_settled {devPtr : ℕ} (client : Params)
    (hacc : Fallback.asyncAccept maxRwCount req = .ok ()) (hfix : req.stream.allFixed = true)
    (hno : ¬ Oversized maxRwCount req) (hptr : devPtr ≠ 0)
    (hop : s.op = AsyncOpFallback.construct maxRwCount req devPtr) :
    Settled maxRwCount req (req.bound maxRwCount client) s.op := by
  have hbound := paramsBound_fixed client hacc hfix hptr hop
  have hst : s.op.bytesTransferredInternal = 0 := by rw [hop]; rfl
  have hword : (0 : ℤ) < wordModulus := by decide
  rcases hbound.status with ⟨-, -, hregion⟩ | ⟨hneg, -, -⟩
  · exact ⟨hbound.bound, fun _ => hregion.resolve_right hno, by omega, by omega⟩
  · have := invalidValueStatus_neg
    omega

/-- **What a stage does depends on the region of its request only.** -/
theorem next_alike (hok : stage ≠ .bindParams →
      Settled maxRwCount req (req.bound maxRwCount client) s.op ∧
        Doing (req.bound maxRwCount client) s.op stage a)
    (hD : ∀ i, (req.deviceSpan maxRwCount client).Covers i → D i)
    (hF : ∀ i, (req.fileSpan maxRwCount client).Covers i → F i)
    (h : Alike D F s r) (hn : stage.next env a s = some (s', a')) :
    ∃ r', stage.next env a r = some (r', a') ∧ Alike D F s' r' := by
  cases stage with
  | bindParams =>
    cases hn
    exact ⟨_, rfl, bindParams_alike h⟩
  | cleanup =>
    cases hn
    exact ⟨_, rfl, cleanup_alike h⟩
  | cpuCopy =>
    obtain ⟨hs, hd⟩ := hok nofun
    cases a with
    | idle => exact copyStart_alike h hn
    | copying size fileOffset n =>
      obtain ⟨h0, rfl, rfl, -⟩ := hd
      have hoff := (offsetsOk_of_paramsValid (hs.region h0).2).fileOffset
      have hcovers : ∀ i, (req.bound maxRwCount client).fileOffset.val.toNat ≤ i →
          i < (req.bound maxRwCount client).fileOffset.val.toNat +
            (req.bound maxRwCount client).size → F i := fun i hi hi' => hF i ⟨hi, hi'⟩
      obtain ⟨hact, hnext⟩ := @copyNext_alike env s r D F h _ n _ hoff hcovers
      have hs' : copyNext env _ _ n s = (s', a') := Option.some.inj hn
      rw [hs'] at hact hnext
      exact ⟨_, congrArg some (Prod.ext rfl hact), hnext⟩
    | kernel bufferOffset spans => exact hd.elim
  | memcpyKernel blockDim =>
    obtain ⟨hs, hd⟩ := hok nofun
    cases a with
    | idle =>
      obtain ⟨hact, hnext⟩ := @kernelStart_alike env s r D F h blockDim
      have hs' : kernelStart env blockDim s = (s', a') := Option.some.inj hn
      rw [hs'] at hact hnext
      exact ⟨_, congrArg some (Prod.ext rfl hact), hnext⟩
    | copying size fileOffset n => exact hd.elim
    | kernel bufferOffset spans =>
      cases spans with
      | nil =>
        cases hn
        exact ⟨_, rfl, h⟩
      | cons sp spans =>
        cases hn
        obtain ⟨h0, rfl, hspans⟩ := hd
        obtain ⟨hregion, -⟩ := region_eq_regionStart (offsetsOk_of_paramsValid (hs.region h0).2)
        refine ⟨_, rfl, kernelCopy_alike h fun i hi => hD _ ?_⟩
        have hlt := hspans sp List.mem_cons_self i hi
        rw [hs.bound.gpuBuffer, hregion]
        exact ⟨Nat.le_add_right _ _, Nat.add_lt_add_left hlt _⟩

end HipFile
