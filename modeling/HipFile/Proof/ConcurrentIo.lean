import HipFile.Model.ConcurrentIo
import HipFile.Proof.FallbackRead

/-!
# Requests of several threads, call by call

* `Change`: what a thread guarantees of each of its calls: it changes no byte outside of what its
  request writes.
* `Spared`: what a thread relies on: the calls of the others keep the bytes of its region.
* `Standing`: what holds of a thread wherever it stands; `step_served`: its own calls keep it,
  `Standing.spared`: the calls of the others keep it.
* `concurrent_exact`: requests that do not overlap end as if they had been alone, whatever the
  order of the calls.
-/

namespace HipFile.Fallback

open Bytes

variable {env : Env} {req : Request} {w₀ w w' : World} {s s' : LoopState} {p : Point}

/-! ## What a request reads and writes -/

/-- The device region of a request. -/
def Request.deviceSpan (req : Request) (env : Env) : Span :=
  ⟨regionStart req.buffer req.bufferOffset, req.limit env⟩

/-- The file region of a request. -/
def Request.fileSpan (req : Request) (env : Env) : Span :=
  ⟨req.fileOffset.val.toNat, req.limit env⟩

/-- **Two requests that do not overlap.** The device regions are apart unless both are read
only, and so are the regions of one file; and a write does not bring the end of the file to
where a read looks for it. -/
structure Apart (env : Env) (init : Shared) (a b : Request) : Prop where
  device : ¬ (a.type = .write ∧ b.type = .write) → (a.deviceSpan env).Disjoint (b.deviceSpan env)
  file : ¬ (a.type = .read ∧ b.type = .read) → a.inode = b.inode →
    (a.fileSpan env).Disjoint (b.fileSpan env)
  eof : a.type ≠ b.type → a.inode = b.inode →
    a.fileOffset.val.toNat + a.limit env ≤ (init.files a.inode).eof ∨
      b.fileOffset.val.toNat + b.limit env ≤ (init.files a.inode).eof

/-- What a call of a thread may change of what it sees. -/
structure Change (env : Env) (req : Request) (w w' : World) : Prop where
  dev : ∀ i, ¬ (req.type = .read ∧ (req.deviceSpan env).Covers i) → w'.dev i = w.dev i
  data : ∀ i, ¬ (req.type = .write ∧ (req.fileSpan env).Covers i) →
    w'.file.data i = w.file.data i
  eof : w'.file.eof = w.file.eof ∨ (req.type = .write ∧ 0 < req.limit env) ∧
    w.file.eof ≤ w'.file.eof ∧ w'.file.eof ≤ req.fileOffset.val.toNat + req.limit env
  trace : w.trace <+: w'.trace

/-- The calls of others, as a thread relies on them: its regions are as before. The end of the
file may move, but not to where a read looks for it. -/
structure Spared (env : Env) (req : Request) (w₀ w w' : World) : Prop where
  dev : ∀ k < req.limit env, w'.dev (regionStart req.buffer req.bufferOffset + k) =
    w.dev (regionStart req.buffer req.bufferOffset + k)
  data : ∀ k < req.limit env, w'.file.data (req.fileOffset.val.toNat + k) =
    w.file.data (req.fileOffset.val.toNat + k)
  eof_le : w.file.eof ≤ w'.file.eof
  eof : req.type = .read → w'.file.eof = w.file.eof ∨
    req.fileOffset.val.toNat + req.limit env ≤ w₀.file.eof ∨ w'.file.eof ≤ w₀.file.eof
  trace : w.trace <+: w'.trace

/-- A call that changes no byte. -/
theorem Change.of_same (hdev : w'.dev = w.dev) (hfile : w'.file = w.file)
    (htrace : w.trace <+: w'.trace) : Change env req w w' := by
  refine ⟨?_, ?_, Or.inl (by rw [hfile]), htrace⟩
  · intro i _
    rw [hdev]
  · intro i _
    rw [hfile]

theorem Change.refl (env : Env) (req : Request) (w : World) : Change env req w w :=
  .of_same rfl rfl (List.prefix_refl _)

theorem Change.trans {w₁ : World} (h : Change env req w w₁) (h' : Change env req w₁ w') :
    Change env req w w' := by
  refine ⟨fun i hi => (h'.dev i hi).trans (h.dev i hi),
    fun i hi => (h'.data i hi).trans (h.data i hi), ?_, h.trace.trans h'.trace⟩
  rcases h.eof, h'.eof with ⟨heof | ⟨hwrites, hle, hle'⟩, heof' | ⟨hwrites', hlast, hlast'⟩⟩
  · exact Or.inl (heof'.trans heof)
  · exact Or.inr ⟨hwrites', by omega, hlast'⟩
  · exact Or.inr ⟨hwrites, by omega, by omega⟩
  · exact Or.inr ⟨hwrites, by omega, hlast'⟩

theorem Change.eof_le (h : Change env req w w') : w.file.eof ≤ w'.file.eof := by
  have := h.eof
  omega

/-! ## What holds of a thread -/

/-- A thread that reads, after `totalIoBytes` bytes: they are on the device, what follows them is
as before, and the file has the bytes of the request. -/
structure Reading (env : Env) (req : Request) (w₀ : World) (s : LoopState) : Prop where
  total_le : s.totalIoBytes ≤ req.limit env
  moved : ∀ k < s.totalIoBytes, s.world.dev (regionStart req.buffer req.bufferOffset + k) =
    w₀.file.data (req.fileOffset.val.toNat + k)
  rest : ∀ k, s.totalIoBytes ≤ k → k < req.limit env →
    s.world.dev (regionStart req.buffer req.bufferOffset + k) =
      w₀.dev (regionStart req.buffer req.bufferOffset + k)
  source : ∀ k < req.limit env, s.world.file.data (req.fileOffset.val.toNat + k) =
    w₀.file.data (req.fileOffset.val.toNat + k)
  within : s.totalIoBytes = 0 ∨
    req.fileOffset.val.toNat + s.totalIoBytes ≤ s.world.file.eof
  eof : s.world.file.eof = w₀.file.eof ∨
    req.fileOffset.val.toNat + req.limit env ≤ w₀.file.eof ∧ w₀.file.eof ≤ s.world.file.eof

/-- A thread that writes, after `totalIoBytes` bytes: they are in the file, what follows them may
have been written already, and the device has the bytes of the request. -/
structure Writing (env : Env) (req : Request) (w₀ : World) (s : LoopState) : Prop where
  total_le : s.totalIoBytes ≤ req.limit env
  moved : ∀ k < s.totalIoBytes, s.world.file.data (req.fileOffset.val.toNat + k) =
    w₀.dev (regionStart req.buffer req.bufferOffset + k)
  rest : ∀ k < req.limit env, s.world.file.data (req.fileOffset.val.toNat + k) =
      w₀.file.data (req.fileOffset.val.toNat + k) ∨
    s.world.file.data (req.fileOffset.val.toNat + k) =
      w₀.dev (regionStart req.buffer req.bufferOffset + k)
  source : ∀ k < req.limit env, s.world.dev (regionStart req.buffer req.bufferOffset + k) =
    w₀.dev (regionStart req.buffer req.bufferOffset + k)
  within : s.totalIoBytes = 0 ∨
    req.fileOffset.val.toNat + s.totalIoBytes ≤ s.world.file.eof

/-- A thread at its work. -/
structure Working (env : Env) (req : Request) (w₀ : World) (s : LoopState) : Prop where
  reading : req.type = .read → Reading env req w₀ s
  writing : req.type = .write → Writing env req w₀ s

/-- A `pwrite` of a positive count wrote nothing after the bytes counted. -/
def Stalled (req : Request) (s : LoopState) : Prop :=
  ∃ count, 0 < count ∧
    .pwrite req.file.bufferedFd count (req.roundOffset s) (.ok 0) ∈ s.world.trace

/-- A request that is over: a read has all the bytes that the file has, and a write has all of
its bytes in the file, unless a `pwrite` has written none. -/
def Complete (env : Env) (req : Request) (w₀ : World) (s : LoopState) : Prop :=
  0 < req.chunkSize →
    match req.type with
    | .read => s.totalIoBytes =
        min (req.limit env) (w₀.file.eof - req.fileOffset.val.toNat)
    | .write => s.totalIoBytes = req.limit env ∨ Stalled req s

/-- What a thread has between two calls of a round. -/
def AtPoint (env : Env) (req : Request) (w₀ : World) (s : LoopState) : Point → Prop
  | .hostToDevice n => req.type = .read ∧ 0 < n ∧ n ≤ req.roundCount env s ∧
      (∀ k < n, s.bounceBuffer k = w₀.file.data (req.fileOffset.val.toNat + s.totalIoBytes + k)) ∧
      req.fileOffset.val.toNat + s.totalIoBytes + n ≤ s.world.file.eof
  | .streamSynchronize | .pwrite => req.type = .write ∧ ∀ k < req.roundCount env s,
      s.bounceBuffer k = w₀.dev (regionStart req.buffer req.bufferOffset + s.totalIoBytes + k)
  | .fdatasync n => req.type = .write ∧ n ≤ req.roundCount env s ∧
      (∀ k < n, s.world.file.data (req.fileOffset.val.toNat + s.totalIoBytes + k) =
        w₀.dev (regionStart req.buffer req.bufferOffset + s.totalIoBytes + k)) ∧
      (n = 0 ∨ req.fileOffset.val.toNat + s.totalIoBytes + n ≤ s.world.file.eof) ∧
      (n = 0 → req.roundCount env s = 0 ∨ Stalled req s)
  | .count => Complete env req w₀ s
  | .ended (.ok n) => n = s.totalIoBytes ∧ Complete env req w₀ s
  | _ => True

/-- **What holds of a thread wherever it stands**, from the world `w₀` that all start in. -/
structure Standing (env : Env) (req : Request) (w₀ : World) (s : LoopState) (p : Point) :
    Prop where
  valid : paramsValid req.buffer.toIBuffer (req.limit env) req.fileOffset req.bufferOffset = true ∨
    ∃ e, p = .ended (.error e)
  working : Working env req w₀ s
  point : AtPoint env req w₀ s p

/-! ## Calls of the others -/

/-- The file and the device of a thread as before. -/
theorem Working.congr (h : Working env req w₀ s) (hfile : s'.world.file = s.world.file)
    (hdev : s'.world.dev = s.world.dev) (htotal : s'.totalIoBytes = s.totalIoBytes) :
    Working env req w₀ s' := by
  refine ⟨fun hr => ?_, fun hw => ?_⟩
  · obtain ⟨hle, hmoved, hrest, hsource, hwithin, heof⟩ := h.reading hr
    exact ⟨htotal ▸ hle, by rw [htotal, hdev]; exact hmoved, by rw [htotal, hdev]; exact hrest,
      by rw [hfile]; exact hsource, by rw [htotal, hfile]; exact hwithin,
      by rw [hfile]; exact heof⟩
  · obtain ⟨hle, hmoved, hrest, hsource, hwithin⟩ := h.writing hw
    exact ⟨htotal ▸ hle, by rw [htotal, hfile]; exact hmoved, by rw [hfile]; exact hrest,
      by rw [hdev]; exact hsource, by rw [htotal, hfile]; exact hwithin⟩

theorem Stalled.mono (h : Stalled req s) (htrace : s.world.trace <+: s'.world.trace)
    (htotal : s'.totalIoBytes = s.totalIoBytes) : Stalled req s' := by
  obtain ⟨count, hpos, hmem⟩ := h
  refine ⟨count, hpos, ?_⟩
  have hoffset : req.roundOffset s' = req.roundOffset s := by
    unfold Request.roundOffset
    rw [htotal]
  rw [hoffset]
  exact htrace.subset hmem

theorem Complete.mono (h : Complete env req w₀ s) (htrace : s.world.trace <+: s'.world.trace)
    (htotal : s'.totalIoBytes = s.totalIoBytes) : Complete env req w₀ s' := by
  intro hchunk
  have h := h hchunk
  cases htype : req.type with
  | read =>
    simp only [htype] at h ⊢
    omega
  | write =>
    simp only [htype] at h ⊢
    rcases h with h | h
    · exact Or.inl (by omega)
    · exact Or.inr (h.mono htrace htotal)

theorem Working.spared (h : Working env req w₀ s) (hs : Spared env req w₀ s.world w') :
    Working env req w₀ { s with world := w' } := by
  refine ⟨fun hr => ?_, fun hw => ?_⟩
  · obtain ⟨hle, hmoved, hrest, hsource, hwithin, heof⟩ := h.reading hr
    have hend := hs.eof hr
    have hgrow := hs.eof_le
    refine ⟨hle, ?_, ?_, ?_, ?_, ?_⟩
    · intro k hk
      have hk : k < s.totalIoBytes := hk
      exact (hs.dev k (by omega)).trans (hmoved k hk)
    · intro k hk hk'
      exact (hs.dev k hk').trans (hrest k hk hk')
    · intro k hk
      exact (hs.data k hk).trans (hsource k hk)
    · change s.totalIoBytes = 0 ∨ req.fileOffset.val.toNat + s.totalIoBytes ≤ w'.file.eof
      omega
    · change w'.file.eof = w₀.file.eof ∨ _ ∧ w₀.file.eof ≤ w'.file.eof
      omega
  · obtain ⟨hle, hmoved, hrest, hsource, hwithin⟩ := h.writing hw
    have hgrow := hs.eof_le
    refine ⟨hle, ?_, ?_, ?_, ?_⟩
    · intro k hk
      have hk : k < s.totalIoBytes := hk
      exact (hs.data k (by omega)).trans (hmoved k hk)
    · intro k hk
      have hdata : w'.file.data (req.fileOffset.val.toNat + k) = _ := hs.data k hk
      change w'.file.data (req.fileOffset.val.toNat + k) = _ ∨
        w'.file.data (req.fileOffset.val.toNat + k) = _
      rw [hdata]
      exact hrest k hk
    · intro k hk
      exact (hs.dev k hk).trans (hsource k hk)
    · change s.totalIoBytes = 0 ∨ req.fileOffset.val.toNat + s.totalIoBytes ≤ w'.file.eof
      omega

/-- **The calls of the others** keep what holds of a thread. -/
theorem Standing.spared (h : Standing env req w₀ s p) (hs : Spared env req w₀ s.world w') :
    Standing env req w₀ { s with world := w' } p := by
  refine ⟨h.valid, h.working.spared hs, ?_⟩
  have hpoint := h.point
  cases p with
  | mmap => trivial
  | first => trivial
  | hostToDevice n =>
    obtain ⟨hr, hpos, hn, hbounce, hend⟩ := hpoint
    have heof := hs.eof_le
    have hend' : req.fileOffset.val.toNat + s.totalIoBytes + n ≤ w'.file.eof := by omega
    exact ⟨hr, hpos, hn, hbounce, hend'⟩
  | streamSynchronize => exact hpoint
  | pwrite => exact hpoint
  | fdatasync n =>
    obtain ⟨hw, hn, hdata, hend, hzero⟩ := hpoint
    have heof := hs.eof_le
    have hend' : n = 0 ∨ req.fileOffset.val.toNat + s.totalIoBytes + n ≤ w'.file.eof := by omega
    refine ⟨hw, hn, ?_, hend', fun h0 => ?_⟩
    · intro k hk
      have hcount : n ≤ min req.chunkSize (req.limit env - s.totalIoBytes) := hn
      have hkeep := hs.data (s.totalIoBytes + k) (by omega)
      rw [← Nat.add_assoc] at hkeep
      exact hkeep.trans (hdata k hk)
    · exact (hzero h0).imp id fun hst => hst.mono hs.trace rfl
  | count => exact hpoint.mono hs.trace rfl
  | ended result =>
    cases result with
    | ok n => exact ⟨hpoint.1, hpoint.2.mono hs.trace rfl⟩
    | error e => trivial

/-! ## Calls of the thread -/

@[simp] theorem test_world (size : ℕ) (s : LoopState) : (test size s).1 = s := rfl

@[simp] theorem counted_world (size n : ℕ) (s : LoopState) :
    (counted size n s).1.world = s.world := by
  unfold counted
  simp only
  split <;> rfl

@[simp] theorem caught_world (size : ℕ) (e : Exn) (s : LoopState) :
    (caught size e s).1.world = s.world := by
  unfold caught
  split <;> rfl

/-- A call of a round, by how it ends. -/
theorem after_spec {α : Type} {size : ℕ} {r : Except Exn α × LoopState}
    {k : α → LoopState → LoopState × Point} {Q : LoopState × Point → Prop}
    (hok : ∀ a s', r = (.ok a, s') → Q (k a s'))
    (herr : ∀ e s', r = (.error e, s') → Q (caught size e s')) : Q (after size r k) := by
  obtain ⟨ret, s'⟩ := r
  cases ret with
  | ok a => exact hok a s' rfl
  | error e => exact herr e s' rfl

/-- The whole size has been moved. -/
theorem Working.complete (h : Working env req w₀ s)
    (hv : paramsValid req.buffer.toIBuffer (req.limit env) req.fileOffset req.bufferOffset = true)
    (hle : req.limit env ≤ s.totalIoBytes) : Complete env req w₀ s := by
  obtain ⟨h0, -, -, -⟩ := (paramsValid_iff req.bufferOffset.2).1 hv
  intro _
  cases htype : req.type with
  | read =>
    obtain ⟨htotal, -, -, -, hwithin, heof⟩ := h.reading htype
    simp only
    omega
  | write =>
    have htotal := (h.writing htype).total_le
    exact Or.inl (by omega)

section

variable
  (hv : paramsValid req.buffer.toIBuffer (req.limit env) req.fileOffset req.bufferOffset = true)

include hv

theorem test_served (h : Working env req w₀ s) :
    Standing env req w₀ (test (req.limit env) s).1 (test (req.limit env) s).2 := by
  refine ⟨Or.inl hv, h, ?_⟩
  unfold test
  simp only
  split
  · trivial
  · exact h.complete hv (by omega)

theorem caught_served (e : Exn) (h : Working env req w₀ s) :
    Standing env req w₀ (caught (req.limit env) e s).1 (caught (req.limit env) e s).2 := by
  unfold caught
  split
  · exact test_served hv h
  · exact ⟨Or.inl hv, h, trivial⟩

theorem counted_served {n : ℕ}
    (h : Working env req w₀ { s with totalIoBytes := s.totalIoBytes + n })
    (hzero : n = 0 → Complete env req w₀ { s with totalIoBytes := s.totalIoBytes + n }) :
    Standing env req w₀ (counted (req.limit env) n s).1 (counted (req.limit env) n s).2 := by
  unfold counted
  simp only
  split
  · rename_i hn
    exact ⟨Or.inl hv, h, hzero hn⟩
  · exact test_served hv h

/-- The offset of a round, from the start of the file region. -/
theorem roundOffset_toNat :
    (req.roundOffset s).toNat = req.fileOffset.val.toNat + s.totalIoBytes := by
  obtain ⟨h0, -, -, -⟩ := (paramsValid_iff req.bufferOffset.2).1 hv
  unfold Request.roundOffset
  omega

/-- The device address of a round that moves something, from the start of the device region. -/
theorem roundDevice_eq (h : s.totalIoBytes < req.limit env) :
    req.roundDevice s = regionStart req.buffer req.bufferOffset + s.totalIoBytes :=
  devicePosition_eq hv h

end

/-! ### What a call does -/

/-- The state after a call that moved nothing. -/
def LoopState.logged (s : LoopState) (e : Event) : LoopState := { s with world := s.world.log e }

/-- The call with this number may be interrupted. -/
def Interrupts (env : Env) (i : ℕ) : Prop :=
  (∃ count offset, env.sys.pread i count offset = .error EINTR) ∨
    (∃ count offset, env.sys.pwrite i count offset = .error EINTR) ∨
    env.sys.fdatasync i = .error EINTR

/-- A call that threw: it moved nothing, and an interruption is that of the call. -/
structure Failed (env : Env) (s : LoopState) (e : Exn) (s' : LoopState) : Prop where
  logged : ∃ ev, s' = s.logged ev
  interrupted : e = .systemError EINTR → Interrupts env s.world.calls

theorem pread_ok {fd : ℤ} {count n : ℕ} {offset : ℤ}
    (h : pread env fd count offset s = (.ok n, s')) :
    env.sys.pread s.world.calls count offset = .ok n ∧
      s' = ⟨s.world.log (.pread fd count offset (.ok n)),
        splice s.bounceBuffer 0 s.world.file.data offset.toNat n, s.totalIoBytes⟩ := by
  unfold pread World.pread at h
  cases hr : env.sys.pread s.world.calls count offset <;> rw [hr] at h <;> cases h
  exact ⟨rfl, rfl⟩

theorem pread_error {fd : ℤ} {count : ℕ} {offset : ℤ} {e : Exn}
    (h : pread env fd count offset s = (.error e, s')) : Failed env s e s' := by
  unfold pread World.pread at h
  cases hr : env.sys.pread s.world.calls count offset <;> rw [hr] at h <;> cases h
  exact ⟨⟨_, rfl⟩, fun he => Or.inl ⟨count, offset, hr.trans (by rw [Exn.systemError.inj he])⟩⟩

theorem pwrite_ok {fd : ℤ} {count n : ℕ} {offset : ℤ}
    (h : pwrite env fd count offset s = (.ok n, s')) : n ≤ count ∧
      s' = { s with world := { s.world.log (.pwrite fd count offset (.ok n)) with
        file := s.world.file.write offset.toNat s.bounceBuffer 0 n } } := by
  unfold pwrite World.pwrite at h
  cases hr : env.sys.pwrite s.world.calls count offset <;> rw [hr] at h <;> cases h
  exact ⟨env.sys.pwrite_le hr, rfl⟩

theorem pwrite_error {fd : ℤ} {count : ℕ} {offset : ℤ} {e : Exn}
    (h : pwrite env fd count offset s = (.error e, s')) : Failed env s e s' := by
  unfold pwrite World.pwrite at h
  cases hr : env.sys.pwrite s.world.calls count offset <;> rw [hr] at h <;> cases h
  exact ⟨⟨_, rfl⟩,
    fun he => Or.inr (Or.inl ⟨count, offset, hr.trans (by rw [Exn.systemError.inj he])⟩)⟩

theorem hipMemcpyHostToDevice_ok {dst size : ℕ}
    (h : hipMemcpyHostToDevice env dst size s = (.ok (), s')) :
    s' = { s with world := { s.world.log (.hipMemcpy (.ok ())) with
      dev := splice s.world.dev dst s.bounceBuffer 0 size } } := by
  unfold hipMemcpyHostToDevice World.hipMemcpyHostToDevice at h
  cases hr : env.hip.hipMemcpy s.world.calls <;> rw [hr] at h <;> cases h
  rfl

theorem hipMemcpyHostToDevice_error {dst size : ℕ} {e : Exn}
    (h : hipMemcpyHostToDevice env dst size s = (.error e, s')) : Failed env s e s' := by
  unfold hipMemcpyHostToDevice World.hipMemcpyHostToDevice at h
  cases hr : env.hip.hipMemcpy s.world.calls <;> rw [hr] at h <;> cases h
  exact ⟨⟨_, rfl⟩, nofun⟩

theorem hipMemcpyDeviceToHost_ok {src size : ℕ}
    (h : hipMemcpyDeviceToHost env src size s = (.ok (), s')) :
    s' = ⟨s.world.log (.hipMemcpy (.ok ())), splice s.bounceBuffer 0 s.world.dev src size,
      s.totalIoBytes⟩ := by
  unfold hipMemcpyDeviceToHost World.hipMemcpyDeviceToHost at h
  cases hr : env.hip.hipMemcpy s.world.calls <;> rw [hr] at h <;> cases h
  rfl

theorem hipMemcpyDeviceToHost_error {src size : ℕ} {e : Exn}
    (h : hipMemcpyDeviceToHost env src size s = (.error e, s')) : Failed env s e s' := by
  unfold hipMemcpyDeviceToHost World.hipMemcpyDeviceToHost at h
  cases hr : env.hip.hipMemcpy s.world.calls <;> rw [hr] at h <;> cases h
  exact ⟨⟨_, rfl⟩, nofun⟩

theorem hipStreamSynchronize_ok (h : hipStreamSynchronize env s = (.ok (), s')) :
    ∃ ev, s' = s.logged ev := by
  unfold hipStreamSynchronize World.hipStreamSynchronize at h
  cases hr : env.hip.hipStreamSynchronize s.world.calls <;> rw [hr] at h <;> cases h
  exact ⟨_, rfl⟩

theorem hipStreamSynchronize_error {e : Exn}
    (h : hipStreamSynchronize env s = (.error e, s')) : Failed env s e s' := by
  unfold hipStreamSynchronize World.hipStreamSynchronize at h
  cases hr : env.hip.hipStreamSynchronize s.world.calls <;> rw [hr] at h <;> cases h
  exact ⟨⟨_, rfl⟩, nofun⟩

theorem fdatasync_ok {fd : ℤ} (h : fdatasync env fd s = (.ok (), s')) :
    ∃ ev, s' = s.logged ev := by
  unfold fdatasync World.fdatasync at h
  cases hr : env.sys.fdatasync s.world.calls <;> rw [hr] at h <;> cases h
  exact ⟨_, rfl⟩

theorem fdatasync_error {fd : ℤ} {e : Exn} (h : fdatasync env fd s = (.error e, s')) :
    Failed env s e s' := by
  unfold fdatasync World.fdatasync at h
  cases hr : env.sys.fdatasync s.world.calls <;> rw [hr] at h <;> cases h
  exact ⟨⟨_, rfl⟩, fun he => Or.inr (Or.inr (hr.trans (by rw [Exn.systemError.inj he])))⟩

/-! ### One call -/

/-- What a call of a thread has to meet: it keeps what holds of the thread, and changes nothing
outside of what the request writes. -/
structure Meets (env : Env) (req : Request) (w₀ w : World) (r : LoopState × Point) : Prop where
  served : Standing env req w₀ r.1 r.2
  change : Change env req w r.1.world

/-- A call that moved nothing changes nothing. -/
theorem change_logged (ev : Event) : Change env req s.world (s.logged ev).world :=
  .of_same rfl rfl (List.prefix_append _ _)

theorem Working.logged (h : Working env req w₀ s) (ev : Event) :
    Working env req w₀ (s.logged ev) := h.congr rfl rfl rfl

section

variable
  (hv : paramsValid req.buffer.toIBuffer (req.limit env) req.fileOffset req.bufferOffset = true)

include hv

/-- A call that threw. -/
theorem caught_meets (e : Exn) (h : Working env req w₀ s) (hs : Failed env s e s') :
    Meets env req w₀ s.world (caught (req.limit env) e s') := by
  obtain ⟨⟨ev, rfl⟩, -⟩ := hs
  refine ⟨caught_served hv e (h.logged ev), ?_⟩
  rw [caught_world]
  exact change_logged ev

/-- **The first call of a round that reads.** -/
theorem firstCall_read_meets (htype : req.type = .read) (h : Working env req w₀ s)
    (hlaw : Lawful env req s .first) : Meets env req w₀ s.world (firstCall env req s) := by
  have hr := h.reading htype
  unfold firstCall
  rw [htype]
  refine after_spec ?_ fun e s' hs => caught_meets hv e h (pread_error hs)
  intro n s' hs
  obtain ⟨hret, rfl⟩ := pread_ok hs
  have hn : n ≤ req.roundCount env s := env.sys.pread_le hret
  have hcount : req.roundCount env s = min req.chunkSize (req.limit env - s.totalIoBytes) := rfl
  obtain ⟨h0, -, -, -⟩ := (paramsValid_iff req.bufferOffset.2).1 hv
  have hoffset : req.roundOffset s = req.fileOffset.val + s.totalIoBytes := rfl
  have hlaw := hlaw htype
  rw [hret] at hlaw
  obtain ⟨havail, hnone⟩ := hlaw
  set s₁ : LoopState := ⟨s.world.log (.pread req.file.bufferedFd (req.roundCount env s)
    (req.roundOffset s) (.ok n)), splice s.bounceBuffer 0 s.world.file.data
      (req.roundOffset s).toNat n, s.totalIoBytes⟩ with hs₁
  have hwork : Working env req w₀ s₁ := h.congr rfl rfl rfl
  have hchange : Change env req s.world s₁.world :=
    .of_same rfl rfl (List.prefix_append _ _)
  split
  · -- some bytes are in the bounce buffer
    rename_i hpos
    have hend : req.fileOffset.val.toNat + s.totalIoBytes + n ≤ s.world.file.eof := by
      have := havail hpos
      omega
    refine ⟨⟨Or.inl hv, hwork, htype, hpos, hn, ?_, hend⟩, hchange⟩
    intro k hk
    have hbounce : s₁.bounceBuffer k = s.world.file.data ((req.roundOffset s).toNat + k) := by
      have := splice_inside s.bounceBuffer 0 s.world.file.data (req.roundOffset s).toNat hk
      rwa [Nat.zero_add] at this
    have hsource := hr.source (s.totalIoBytes + k) (by omega)
    rw [← Nat.add_assoc] at hsource
    rw [hbounce, roundOffset_toNat hv, hsource]
  · -- none were asked for, or the file has ended
    rename_i hpos
    obtain rfl : n = 0 := by omega
    have hcomplete : Complete env req w₀ s₁ := by
      intro hchunk
      simp only [htype]
      obtain ⟨htotal, -, -, -, hwithin, heof⟩ := hr
      have hs₁total : s₁.totalIoBytes = s.totalIoBytes := rfl
      have := hnone rfl
      omega
    refine ⟨counted_served hv (hwork.congr rfl rfl rfl) fun _ => hcomplete.mono
      (List.prefix_refl _) rfl, ?_⟩
    rw [counted_world]
    exact hchange

/-- **The copy to the device** of a round that reads. -/
theorem hostToDevice_meets {n : ℕ} (h : Working env req w₀ s)
    (hp : AtPoint env req w₀ s (.hostToDevice n)) :
    Meets env req w₀ s.world (step env req s (.hostToDevice n)) := by
  obtain ⟨htype, hpos, hn, hbounce, hend⟩ := hp
  obtain ⟨htotal, hmoved, hrest, hsource, hwithin, heof⟩ := h.reading htype
  have hn : n ≤ min req.chunkSize (req.limit env - s.totalIoBytes) := hn
  have hdevice := roundDevice_eq (s := s) hv (by omega)
  refine after_spec ?_ fun e s' hs => caught_meets hv e h (hipMemcpyHostToDevice_error hs)
  intro _ s' hs
  rw [hdevice] at hs
  obtain rfl := hipMemcpyHostToDevice_ok hs
  set start := regionStart req.buffer req.bufferOffset with hstart
  refine ⟨counted_served hv ⟨fun _ => ?_, fun hw => ?_⟩ fun h0 => absurd h0 (by omega), ?_⟩
  · refine ⟨?_, ?_, ?_, hsource, Or.inr ?_, heof⟩
    · change s.totalIoBytes + n ≤ req.limit env
      omega
    · intro k hk
      have hk : k < s.totalIoBytes + n := hk
      change splice s.world.dev (start + s.totalIoBytes) s.bounceBuffer 0 n (start + k) = _
      by_cases hlt : k < s.totalIoBytes
      · rw [splice_outside _ _ _ (by omega)]
        exact hmoved k hlt
      · obtain ⟨j, rfl⟩ : ∃ j, k = s.totalIoBytes + j := ⟨k - s.totalIoBytes, by omega⟩
        rw [← Nat.add_assoc, splice_inside _ _ _ _ (by omega), Nat.zero_add,
          hbounce j (by omega), Nat.add_assoc]
    · intro k hk hk'
      have hk : s.totalIoBytes + n ≤ k := hk
      change splice s.world.dev (start + s.totalIoBytes) s.bounceBuffer 0 n (start + k) = _
      rw [splice_outside _ _ _ (by omega)]
      exact hrest k (by omega) hk'
    · change _ + (s.totalIoBytes + n) ≤ s.world.file.eof
      omega
  · rw [htype] at hw
    cases hw
  · rw [counted_world]
    refine ⟨?_, fun i _ => rfl, Or.inl rfl, List.prefix_append _ _⟩
    intro i hi
    have hout : ¬ (start ≤ i ∧ i < start + req.limit env) := fun hin => hi ⟨htype, hin⟩
    exact splice_outside _ _ _ (by omega)

/-- **The first call of a round that writes.** -/
theorem firstCall_write_meets (htype : req.type = .write) (h : Working env req w₀ s) :
    Meets env req w₀ s.world (firstCall env req s) := by
  have hw := h.writing htype
  unfold firstCall
  rw [htype]
  refine after_spec ?_ fun e s' hs => caught_meets hv e h (hipMemcpyDeviceToHost_error hs)
  intro _ s' hs
  obtain rfl := hipMemcpyDeviceToHost_ok hs
  refine ⟨⟨Or.inl hv, h.congr rfl rfl rfl, htype, ?_⟩,
    .of_same rfl rfl (List.prefix_append _ _)⟩
  intro k hk
  have hk : k < min req.chunkSize (req.limit env - s.totalIoBytes) := hk
  have hdevice := roundDevice_eq (s := s) hv (by omega)
  have hbounce := splice_inside s.bounceBuffer 0 s.world.dev (req.roundDevice s) hk
  rw [Nat.zero_add, hdevice, Nat.add_assoc, hw.source _ (by omega), ← Nat.add_assoc] at hbounce
  rw [← hdevice] at hbounce ⊢
  exact hbounce

theorem streamSynchronize_meets (h : Working env req w₀ s)
    (hp : AtPoint env req w₀ s .streamSynchronize) :
    Meets env req w₀ s.world (step env req s .streamSynchronize) := by
  refine after_spec ?_ fun e s' hs => caught_meets hv e h (hipStreamSynchronize_error hs)
  intro _ s' hs
  obtain ⟨ev, rfl⟩ := hipStreamSynchronize_ok hs
  exact ⟨⟨Or.inl hv, h.logged ev, hp⟩, change_logged ev⟩

/-- **The `pwrite`** of a round. -/
theorem pwrite_meets (h : Working env req w₀ s) (hp : AtPoint env req w₀ s .pwrite) :
    Meets env req w₀ s.world (step env req s .pwrite) := by
  obtain ⟨htype, hbounce⟩ := hp
  obtain ⟨htotal, hmoved, hrest, hsource, hwithin⟩ := h.writing htype
  have hcount : req.roundCount env s = min req.chunkSize (req.limit env - s.totalIoBytes) := rfl
  refine after_spec ?_ fun e s' hs => caught_meets hv e h (pwrite_error hs)
  intro n s' hs
  obtain ⟨hn, rfl⟩ := pwrite_ok hs
  set w₁ : World :=
    { s.world.log (.pwrite req.file.bufferedFd (req.roundCount env s) (req.roundOffset s)
        (.ok n)) with
      file := s.world.file.write (req.roundOffset s).toNat s.bounceBuffer 0 n } with hw₁
  set fo := req.fileOffset.val.toNat with hfo
  have hdata : w₁.file.data =
      splice s.world.file.data (fo + s.totalIoBytes) s.bounceBuffer 0 n := by
    rw [hw₁, FileData.write_data, roundOffset_toNat hv]
  have hin : ∀ k < n, w₁.file.data (fo + s.totalIoBytes + k) =
      w₀.dev (regionStart req.buffer req.bufferOffset + s.totalIoBytes + k) := by
    intro k hk
    rw [hdata, splice_inside _ _ _ _ hk, Nat.zero_add, hbounce k (by omega)]
  have hout : ∀ i, i < fo + s.totalIoBytes ∨ fo + s.totalIoBytes + n ≤ i →
      w₁.file.data i = s.world.file.data i := by
    intro i hi
    rw [hdata, splice_outside _ _ _ hi]
  have heof : w₁.file.eof = if n = 0 then s.world.file.eof else
      max s.world.file.eof (fo + s.totalIoBytes + n) := by
    rw [hw₁, ← roundOffset_toNat hv]
    rfl
  have hgrow : s.world.file.eof ≤ w₁.file.eof := by
    rw [heof]
    split <;> omega
  have hend : n = 0 ∨ fo + s.totalIoBytes + n ≤ w₁.file.eof := by
    rw [heof]
    split <;> omega
  have hwithin' : s.totalIoBytes = 0 ∨ fo + s.totalIoBytes ≤ w₁.file.eof := by omega
  refine ⟨⟨Or.inl hv, ⟨fun hr => ?_, fun _ => ⟨htotal, ?_, ?_, hsource, hwithin'⟩⟩, htype, hn, hin,
    hend, ?_⟩, ?_⟩
  · rw [htype] at hr
    cases hr
  · intro k hk
    have hk : k < s.totalIoBytes := hk
    exact (hout _ (by omega)).trans (hmoved k hk)
  · intro k hk
    by_cases hmid : s.totalIoBytes ≤ k ∧ k < s.totalIoBytes + n
    · obtain ⟨j, rfl⟩ : ∃ j, k = s.totalIoBytes + j := ⟨k - s.totalIoBytes, by omega⟩
      have := hin j (by omega)
      rw [Nat.add_assoc, Nat.add_assoc] at this
      exact Or.inr this
    · have hkeep := hout (fo + k) (by omega)
      change w₁.file.data (fo + k) = _ ∨ w₁.file.data (fo + k) = _
      rw [hkeep]
      exact hrest k hk
  · -- a `pwrite` that wrote nothing is on record
    rintro rfl
    by_cases h0 : req.roundCount env s = 0
    · exact Or.inl h0
    · exact Or.inr ⟨req.roundCount env s, by omega, by simp [hw₁, Request.roundOffset]⟩
  · refine ⟨fun i _ => rfl, ?_, ?_, List.prefix_append _ _⟩
    · intro i hi
      have hnot : ¬ (fo ≤ i ∧ i < fo + req.limit env) := fun hin => hi ⟨htype, hin⟩
      exact hout i (by omega)
    · by_cases hsame : w₁.file.eof = s.world.file.eof
      · exact Or.inl hsame
      · refine Or.inr ⟨⟨htype, ?_⟩, hgrow, ?_⟩
        · by_contra h0
          exact hsame (heof.trans (if_pos (by omega)))
        · rw [heof] at hsame ⊢
          split <;> rename_i h0
          · exact absurd (if_pos h0) hsame
          · rw [if_neg h0] at hsame
            omega

/-- **The `fdatasync`** of a round. -/
theorem fdatasync_meets {n : ℕ} (h : Working env req w₀ s)
    (hp : AtPoint env req w₀ s (.fdatasync n)) :
    Meets env req w₀ s.world (step env req s (.fdatasync n)) := by
  obtain ⟨htype, hn, hdata, hend, hzero⟩ := hp
  obtain ⟨htotal, hmoved, hrest, hsource, hwithin⟩ := h.writing htype
  have hwithin' : s.totalIoBytes + n = 0 ∨
      req.fileOffset.val.toNat + (s.totalIoBytes + n) ≤ s.world.file.eof := by omega
  have hcount : req.roundCount env s = min req.chunkSize (req.limit env - s.totalIoBytes) := rfl
  refine after_spec ?_ fun e s' hs => caught_meets hv e h (fdatasync_error hs)
  intro _ s' hs
  obtain ⟨ev, rfl⟩ := fdatasync_ok hs
  refine ⟨counted_served hv ⟨fun hr => ?_, fun _ => ⟨?_, ?_, hrest, hsource, hwithin'⟩⟩ ?_, ?_⟩
  · rw [htype] at hr
    cases hr
  · change s.totalIoBytes + n ≤ req.limit env
    omega
  · intro k hk
    have hk : k < s.totalIoBytes + n := hk
    by_cases hlt : k < s.totalIoBytes
    · exact hmoved k hlt
    · obtain ⟨j, rfl⟩ : ∃ j, k = s.totalIoBytes + j := ⟨k - s.totalIoBytes, by omega⟩
      have := hdata j (by omega)
      rwa [Nat.add_assoc, Nat.add_assoc] at this
  · rintro rfl hchunk
    simp only [htype]
    rcases hzero rfl with h0 | hst
    · refine Or.inl ?_
      change s.totalIoBytes + 0 = req.limit env
      omega
    · exact Or.inr (hst.mono (List.prefix_append _ _) rfl)
  · rw [counted_world]
    exact change_logged ev

end

/-- **A call of a thread** keeps what holds of it, and changes nothing outside of what its
request writes. -/
theorem step_meets (h : Standing env req w₀ s p) (hlaw : Lawful env req s p)
    (hgoes : ∀ r, p ≠ .ended r) : Meets env req w₀ s.world (step env req s p) := by
  have hv : paramsValid req.buffer.toIBuffer (req.limit env) req.fileOffset req.bufferOffset =
      true := by
    rcases h.valid with hv | ⟨e, he⟩
    · exact hv
    · exact absurd he (hgoes _)
  have hwork := h.working
  have hpoint := h.point
  cases p with
  | mmap =>
    unfold step World.mmap
    cases env.sys.mmap s.world.calls with
    | ok u => exact ⟨⟨Or.inl hv, hwork.logged _, trivial⟩, change_logged _⟩
    | error e => exact ⟨⟨Or.inl hv, hwork.logged _, trivial⟩, change_logged _⟩
  | first =>
    cases htype : req.type with
    | read => exact firstCall_read_meets hv htype hwork hlaw
    | write => exact firstCall_write_meets hv htype hwork
  | hostToDevice n => exact hostToDevice_meets hv hwork hpoint
  | streamSynchronize => exact streamSynchronize_meets hv hwork hpoint
  | pwrite => exact pwrite_meets hv hwork hpoint
  | fdatasync n => exact fdatasync_meets hv hwork hpoint
  | count =>
    have htrace : (step env req s .count).1.world.trace = s.world.trace := by simp [step,
      World.statsAddFallbackPath]
    refine ⟨⟨Or.inl hv, hwork.congr ?_ ?_ rfl, rfl, ?_⟩, .of_same ?_ ?_ ?_⟩
    · simp [step, World.statsAddFallbackPath]
    · simp [step, World.statsAddFallbackPath]
    · exact hpoint.mono (by rw [htrace]) rfl
    · simp [step, World.statsAddFallbackPath]
    · simp [step, World.statsAddFallbackPath]
    · rw [htrace]
  | ended r => exact absurd rfl (hgoes r)

/-! ## All threads -/

variable {ι : Type} {reqs : ι → Request} {init : Shared}

theorem Shared.world_put (s : Shared) (inode : ℕ) (w : World) :
    (s.put inode w).world inode = { w with hipInited := false } := by
  unfold Shared.put Shared.world
  simp only [Function.update_self]

/-- What a thread guarantees of each of its calls. -/
structure Guarantees (env : Env) (req : Request) (s s' : Shared) : Prop where
  change : Change env req (s.world req.inode) (s'.world req.inode)
  others : ∀ k, k ≠ req.inode → s'.files k = s.files k

/-- **What a thread guarantees is what one that it does not overlap relies on.** -/
theorem Apart.spared {a b : Request} (h : Apart env init a b) {s s' : Shared}
    (hb : Guarantees env b s s') :
    Spared env a (init.world a.inode) (s.world a.inode) (s'.world a.inode) := by
  have hchange := hb.change
  have hfiles : a.inode = b.inode ∨ s'.files a.inode = s.files a.inode := by
    by_cases hk : a.inode = b.inode
    · exact Or.inl hk
    · exact Or.inr (hb.others _ hk)
  have hgrow : (s.world a.inode).file.eof ≤ (s'.world a.inode).file.eof := by
    rcases hfiles with hsame | hsame
    · rw [hsame]
      exact hchange.eof_le
    · exact (congrArg FileData.eof hsame).ge
  refine ⟨?_, ?_, hgrow, ?_, hchange.trace⟩
  · intro k hk
    refine hchange.dev _ ?_
    rintro ⟨hread, hcovers⟩
    refine h.device (by rw [hread]; simp) _ ⟨?_, hcovers⟩
    exact ⟨Nat.le_add_right _ _, Nat.add_lt_add_left hk _⟩
  · intro k hk
    rcases hfiles with hsame | hsame
    · have hdata := hchange.data (a.fileOffset.val.toNat + k)
      rw [← hsame] at hdata
      refine hdata ?_
      rintro ⟨hwrite, hcovers⟩
      refine h.file (by rw [hwrite]; simp) hsame _ ⟨?_, hcovers⟩
      exact ⟨Nat.le_add_right _ _, Nat.add_lt_add_left hk _⟩
    · exact congrFun (congrArg FileData.data hsame) _
  · intro hread
    rcases hfiles with hsame | hsame
    · have heof := hchange.eof
      rw [← hsame] at heof
      rcases heof with heof | ⟨⟨hwrite, -⟩, hle, hle'⟩
      · exact Or.inl heof
      · refine Or.inr ?_
        have hend := h.eof (by rw [hread, hwrite]; simp) hsame
        rcases hend with hend | hend
        · exact Or.inl hend
        · exact Or.inr (hle'.trans hend)
    · exact Or.inl (congrArg FileData.eof hsame)

/-- A thread before its first call. -/
theorem start_served (env : Env) (req : Request) (w : World) :
    Standing env req w ⟨w, (req.start env).bounceBuffer, (req.start env).totalIoBytes⟩
      (req.start env).point := by
  have hwork : ∀ b, Working env req w ⟨w, b, 0⟩ := by
    intro b
    refine ⟨fun _ => ⟨Nat.zero_le _, nofun, fun _ _ _ => rfl, fun _ _ => rfl, Or.inl rfl,
      Or.inl rfl⟩,
      fun _ => ⟨Nat.zero_le _, nofun, fun _ _ => Or.inl rfl, fun _ _ => rfl, Or.inl rfl⟩⟩
  unfold Request.start
  split
  · exact ⟨Or.inr ⟨_, rfl⟩, hwork _, trivial⟩
  · rename_i region haccept
    refine ⟨Or.inl ?_, hwork _, trivial⟩
    unfold accept at haccept
    rw [ite_error_eq_ok, ite_error_eq_ok] at haccept
    exact not_not.1 haccept.2.1

theorem threads_step {i : ι} {s : Shared} {t : Thread} (h : ∀ r, t.point ≠ .ended r) :
    (threads env reqs init).step i s t = some ((reqs i).advance env s t) := by
  simp only [threads]

/-- **The threads meet their obligations**, if their requests do not overlap. -/
theorem threads_relyGuarantee (hapart : ∀ i j, i ≠ j → Apart env init (reqs i) (reqs j)) :
    Parties.RelyGuarantee (threads env reqs init)
      (fun i s t => Lawful env (reqs i) (t.loopState s (reqs i).inode) t.point)
      (fun i s t => Standing env (reqs i) (init.world (reqs i).inode)
        (t.loopState s (reqs i).inode) t.point)
      (fun i => Guarantees env (reqs i)) where
  start i := start_served env (reqs i) (init.world (reqs i).inode)
  own {i s t s' t'} h hlaw hst := by
    have hgoes : ∀ r, t.point ≠ .ended r := by
      intro r hr
      simp [threads, hr] at hst
    rw [threads_step hgoes] at hst
    obtain ⟨rfl, rfl⟩ := Prod.mk.inj (Option.some.inj hst)
    obtain ⟨hserved, hchange⟩ := step_meets h hlaw hgoes
    set r := step env (reqs i) (t.loopState s (reqs i).inode) t.point with hr
    have hworld : (s.put (reqs i).inode r.1.world).world (reqs i).inode =
        { r.1.world with hipInited := false } := Shared.world_put _ _ _
    have hsame : Spared env (reqs i) (init.world (reqs i).inode) r.1.world
        { r.1.world with hipInited := false } :=
      ⟨fun _ _ => rfl, fun _ _ => rfl, Nat.le_refl _, fun _ => Or.inl rfl, List.prefix_refl _⟩
    refine ⟨?_, ?_, ?_⟩
    · have := hserved.spared hsame
      rw [← hworld] at this
      exact this
    · rw [hworld]
      exact ⟨hchange.dev, hchange.data, hchange.eof, hchange.trace⟩
    · intro k hk
      exact Function.update_of_ne hk _ _
  stable {i j s t s'} hij h hR := h.spared ((hapart i j (Ne.symm hij)).spared hR)

/-! ## The results -/

variable [DecidableEq ι]

/-- **A request that has ended as if it had been alone**, with `n` bytes: a read has the bytes
that the file has of it on the device, and left the rest of its region as it was; a write has
its bytes in the file, all of them unless a `pwrite` after them wrote nothing. A write may have
written further bytes of its own region, which it has not counted. -/
def AsIfAlone (env : Env) (req : Request) (init s : Shared) (n : ℕ) : Prop :=
  let start := regionStart req.buffer req.bufferOffset
  let offset := req.fileOffset.val.toNat
  match req.type with
  | .read => n = min (req.limit env) ((init.files req.inode).eof - offset) ∧
      (∀ k < n, s.dev (start + k) = (init.files req.inode).data (offset + k)) ∧
      ∀ k, n ≤ k → k < req.limit env → s.dev (start + k) = init.dev (start + k)
  | .write => n ≤ req.limit env ∧
      (∀ k < n, (s.files req.inode).data (offset + k) = init.dev (start + k)) ∧
      (n = 0 ∨ offset + n ≤ (s.files req.inode).eof) ∧
      (n = req.limit env ∨ ∃ count, 0 < count ∧
        .pwrite req.file.bufferedFd count (req.fileOffset.val + n) (.ok 0) ∈ s.trace)

/-- The bytes that no request may write are as before, and a file has grown to the end of what
one writes at most. -/
structure Untouched (env : Env) (reqs : ι → Request) (init s : Shared) : Prop where
  dev : ∀ a, (∀ i, ¬ ((reqs i).type = .read ∧ ((reqs i).deviceSpan env).Covers a)) →
    s.dev a = init.dev a
  data : ∀ k a, (∀ i, ¬ ((reqs i).inode = k ∧ (reqs i).type = .write ∧
    ((reqs i).fileSpan env).Covers a)) → (s.files k).data a = (init.files k).data a
  eof_le : ∀ k, (init.files k).eof ≤ (s.files k).eof
  eof : ∀ k, (s.files k).eof = (init.files k).eof ∨ ∃ i, (reqs i).inode = k ∧
    ((reqs i).type = .write ∧ 0 < (reqs i).limit env) ∧
    (s.files k).eof ≤ (reqs i).fileOffset.val.toNat + (reqs i).limit env

omit [DecidableEq ι] in
/-- The calls of a thread leave what no request may write. -/
theorem Untouched.step {s s' : Shared} (h : Untouched env reqs init s) {i : ι}
    (hR : Guarantees env (reqs i) s s') : Untouched env reqs init s' := by
  have hchange : ∀ k, (s'.files k).eof = (s.files k).eof ∨ k = (reqs i).inode ∧
      ((reqs i).type = .write ∧ 0 < (reqs i).limit env) ∧ (s.files k).eof ≤ (s'.files k).eof ∧
      (s'.files k).eof ≤ (reqs i).fileOffset.val.toNat + (reqs i).limit env := by
    intro k
    by_cases hk : k = (reqs i).inode
    · subst hk
      exact hR.change.eof.imp id fun heof => ⟨rfl, heof⟩
    · exact Or.inl (congrArg FileData.eof (hR.others k hk))
  refine ⟨?_, ?_, ?_, ?_⟩
  · intro a ha
    rw [← h.dev a ha]
    exact hR.change.dev a (ha i)
  · intro k a ha
    rw [← h.data k a ha]
    by_cases hk : k = (reqs i).inode
    · subst hk
      refine hR.change.data a ?_
      rintro ⟨hw, hcovers⟩
      exact ha i ⟨rfl, hw, hcovers⟩
    · rw [hR.others k hk]
  · intro k
    have hle := h.eof_le k
    have := hchange k
    omega
  · intro k
    rcases hchange k with heof | ⟨hk, hwrites, -, hle⟩
    · rw [heof]
      exact h.eof k
    · exact Or.inr ⟨i, hk.symm, hwrites, hle⟩

/-- A thread that has ended with a byte count has served its request. -/
theorem Standing.asIfAlone {s : Shared} {t : Thread} {n : ℕ} (hchunk : 0 < req.chunkSize)
    (h : Standing env req (init.world req.inode) (t.loopState s req.inode) t.point)
    (hended : t.point = .ended (.ok n)) : AsIfAlone env req init s n := by
  have hpoint := h.point
  rw [hended] at hpoint
  obtain ⟨hn, hcomplete⟩ := hpoint
  have hn : n = t.totalIoBytes := hn
  have hcomplete := hcomplete hchunk
  unfold AsIfAlone
  cases htype : req.type with
  | read =>
    obtain ⟨htotal, hmoved, hrest, -, -, -⟩ := h.working.reading htype
    simp only [htype] at hcomplete
    subst hn
    exact ⟨hcomplete, hmoved, hrest⟩
  | write =>
    obtain ⟨htotal, hmoved, -, -, hwithin⟩ := h.working.writing htype
    simp only [htype] at hcomplete
    subst hn
    exact ⟨htotal, hmoved, hwithin, hcomplete⟩

/-- What no request may write is as before in every state reached. -/
theorem threads_untouched (hapart : ∀ i j, i ≠ j → Apart env init (reqs i) (reqs j))
    {s : Shared × (ι → Thread)} (hs : Reached env reqs init s) :
    Untouched env reqs init s.1 := by
  refine (threads_relyGuarantee hapart).shared (J := Untouched env reqs init) ?_ ?_ hs
  · exact ⟨fun _ _ => rfl, fun _ _ _ => rfl, fun _ => Nat.le_refl _, fun _ => Or.inl rfl⟩
  · exact fun i s s' h hR => h.step hR

/-- What a thread has served that has ended, in every state reached. -/
theorem threads_asIfAlone (hapart : ∀ i j, i ≠ j → Apart env init (reqs i) (reqs j))
    {s : Shared × (ι → Thread)} (hs : Reached env reqs init s) {i : ι} {n : ℕ}
    (hchunk : 0 < (reqs i).chunkSize) (hended : (s.2 i).point = .ended (.ok n)) :
    AsIfAlone env (reqs i) init s.1 n :=
  ((threads_relyGuarantee hapart).invariant hs i).asIfAlone hchunk hended

/-- **Requests that do not overlap end as if they had been alone**, however many threads serve
them and in whatever order their calls come; and no byte changes that none of them writes. -/
theorem concurrent_exact (env : Env) (reqs : ι → Request) (init : Shared)
    (hchunk : ∀ i, 0 < (reqs i).chunkSize)
    (hapart : ∀ i j, i ≠ j → Apart env init (reqs i) (reqs j)) {s : Shared × (ι → Thread)}
    (hs : Reached env reqs init s) :
    (∀ i n, (s.2 i).point = .ended (.ok n) → AsIfAlone env (reqs i) init s.1 n) ∧
      Untouched env reqs init s.1 := by
  refine ⟨?_, threads_untouched hapart hs⟩
  intro i n hended
  exact threads_asIfAlone hapart hs (hchunk i) hended

/-! ## An example -/

theorem offT_zero : OffT 0 := by decide

/-- A read of the first four bytes of a file and a write of its last four. -/
def twoRequests : Bool → Request
  | false => ⟨.read, sampleFile, 1, sampleBuffer, 4, ⟨0, offT_zero⟩, ⟨0, offT_zero⟩, 8⟩
  | true => ⟨.write, sampleFile, 1, sampleBuffer, 4, ⟨6, by decide⟩, ⟨8, by decide⟩, 8⟩

def tenBytesShared : Shared := ⟨fun _ => tenBytes.file, tenBytes.dev, tenBytes.stats, []⟩

theorem twoRequests_apart (i j : Bool) (h : i ≠ j) :
    Apart shortCountsEnv tenBytesShared (twoRequests i) (twoRequests j) := by
  have hdevice : Span.Disjoint ⟨4096, 4⟩ ⟨4104, 4⟩ := Span.disjoint_of_le (by decide)
  have hfile : Span.Disjoint ⟨0, 4⟩ ⟨6, 4⟩ := Span.disjoint_of_le (by decide)
  cases i <;> cases j <;> try exact absurd rfl h
  · exact ⟨fun _ => hdevice, fun _ _ => hfile, fun _ _ => Or.inl (by decide)⟩
  · exact ⟨fun _ => hdevice.symm, fun _ _ => hfile.symm, fun _ _ => Or.inl (by decide)⟩

/-- The calls of the two requests, with an interrupted `pread`. -/
def twoSchedule : List Bool :=
  [false, false, true, false, true, false, true, false, true, false, false, true, true, true, true,
    true, true]

def twoEnd : Shared × (Bool → Thread) :=
  let machine := (threads shortCountsEnv twoRequests tenBytesShared).machine
  (machine.run machine.init twoSchedule).getD machine.init

theorem twoEnd_run : (threads shortCountsEnv twoRequests tenBytesShared).machine.run
    (threads shortCountsEnv twoRequests tenBytesShared).machine.init twoSchedule = some twoEnd := by
  have hrun : ((threads shortCountsEnv twoRequests tenBytesShared).machine.run
      (threads shortCountsEnv twoRequests tenBytesShared).machine.init twoSchedule).isSome =
      true := by decide +kernel
  obtain ⟨s, hs⟩ := Option.isSome_iff_exists.1 hrun
  unfold twoEnd
  simp only [hs, Option.getD_some]

theorem twoEnd_reached : Reached shortCountsEnv twoRequests tenBytesShared twoEnd :=
  Machine.reaches_run .init (by decide +kernel) twoEnd_run

/-- Both end with their four bytes. -/
theorem concurrent_exact_sample :
    ((twoEnd.2 false).point = .ended (.ok 4) ∧ (twoEnd.2 true).point = .ended (.ok 4)) ∧
      (∀ i n, (twoEnd.2 i).point = .ended (.ok n) →
        AsIfAlone shortCountsEnv (twoRequests i) tenBytesShared twoEnd.1 n) ∧
      Untouched shortCountsEnv twoRequests tenBytesShared twoEnd.1 :=
  ⟨⟨by decide +kernel, by decide +kernel⟩,
    concurrent_exact shortCountsEnv twoRequests tenBytesShared (by decide) twoRequests_apart
      twoEnd_reached⟩

end HipFile.Fallback
