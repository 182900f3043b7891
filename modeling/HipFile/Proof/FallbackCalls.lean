import HipFile.Model.Fallback

/-!
# The calls of the fallback

* `World.Grows`: a way through calls of some kind, which leaves the counters.
* `Fallback.calls_transfer`: the transfer of a round makes calls for its count and its offset,
  and throws what one of them has failed with; `Fallback.round_calls`: so does the round.
-/

namespace HipFile

/-! ## Worlds -/

/-- The world has gone through calls that meet `P`, and the counters are as before. -/
structure World.Grows (P : Event → Prop) (w w' : World) : Prop where
  stats : w'.stats = w.stats
  trace : ∃ evs, w'.trace = w.trace ++ evs ∧ ∀ e ∈ evs, P e

namespace World.Grows

variable {P : Event → Prop} {w w₁ w₂ : World}

theorem refl (P : Event → Prop) (w : World) : Grows P w w :=
  ⟨rfl, [], (List.append_nil _).symm, nofun⟩

theorem trans (h : Grows P w w₁) (h' : Grows P w₁ w₂) : Grows P w w₂ := by
  obtain ⟨evs, hevs, hP⟩ := h.trace
  obtain ⟨evs', hevs', hP'⟩ := h'.trace
  refine ⟨h'.stats.trans h.stats, evs ++ evs', ?_, ?_⟩
  · rw [hevs', hevs, List.append_assoc]
  · intro e he
    rcases List.mem_append.1 he with he | he
    · exact hP e he
    · exact hP' e he

theorem mono {Q : Event → Prop} (h : Grows P w w₁) (hPQ : ∀ e, P e → Q e) : Grows Q w w₁ := by
  obtain ⟨evs, hevs, hP⟩ := h.trace
  exact ⟨h.stats, evs, hevs, fun e he => hPQ e (hP e he)⟩

/-- One call. -/
theorem call {e : Event} (hstats : w₁.stats = w.stats) (htrace : w₁.trace = w.trace ++ [e])
    (he : P e) : Grows P w w₁ := by
  refine ⟨hstats, [e], htrace, ?_⟩
  intro e' he'
  rw [List.mem_singleton.1 he']
  exact he

end World.Grows

/-- A call that the fallback makes. -/
def Event.Posix : Event → Prop
  | .hipInit _ => False
  | .hipAmdFile .. => False
  | _ => True

/-- The exceptions of these calls. -/
def FromCall (e : Exn) : Prop := (∃ code, e = .systemError code) ∨ ∃ code, e = .hipRuntimeError code

theorem not_fromCall_invalidArgument (what : String) : ¬ FromCall (.invalidArgument what) := by
  rintro (⟨_, h⟩ | ⟨_, h⟩) <;> cases h

namespace Fallback

/-- A call that the transfer of a round makes, for `count` bytes of a descriptor at an
offset. -/
def RoundCall (fd : ℤ) (count : ℕ) (offset : ℤ) : Event → Prop
  | .pread fd' count' offset' _ => fd' = fd ∧ count' = count ∧ offset' = offset
  | .pwrite fd' count' offset' _ => fd' = fd ∧ count' = count ∧ offset' = offset
  | .fdatasync fd' _ => fd' = fd
  | .hipMemcpy _ => True
  | .hipStreamSynchronize _ => True
  | _ => False

theorem RoundCall.posix {fd : ℤ} {count : ℕ} {offset : ℤ} {e : Event}
    (h : RoundCall fd count offset e) : e.Posix := by
  cases e with
  | hipInit ret => exact h
  | hipAmdFile type fd devicePtr size offset => exact h
  | _ => trivial

/-- A part of a round that makes calls that meet `P`, and throws what one has failed with. The
bytes are counted by the round alone. -/
abbrev Calls {α : Type} (P : Event → Prop) (x : Round α) : Prop :=
  Prog.Within (fun s s' => World.Grows P s.world s'.world ∧ s'.totalIoBytes = s.totalIoBytes)
    FromCall x

variable {env : Env} {P : Event → Prop} {α β : Type}

theorem calls_pure (a : α) : Calls P (pure a : Round α) :=
  Prog.within_pure (fun s => ⟨World.Grows.refl _ s.world, rfl⟩) a

theorem calls_bind {x : Round α} {f : α → Round β} (hx : Calls P x) (hf : ∀ a, Calls P (f a)) :
    Calls P (x >>= f) :=
  Prog.Within.bind (fun _ _ _ h h' => ⟨h.1.trans h'.1, h'.2.trans h.2⟩) hx hf

theorem calls_pread {fd : ℤ} {count : ℕ} {offset : ℤ} (hP : ∀ ret, P (.pread fd count offset ret)) :
    Calls P (pread env fd count offset) := by
  intro s
  unfold pread World.pread
  cases env.sys.pread s.world.calls count offset with
  | ok n => exact ⟨⟨.call rfl rfl (hP _), rfl⟩, fun _ => nofun⟩
  | error e =>
    exact ⟨⟨.call rfl rfl (hP _), rfl⟩, fun e' h => Or.inl ⟨e, (Except.error.inj h).symm⟩⟩

theorem calls_pwrite {fd : ℤ} {count : ℕ} {offset : ℤ}
    (hP : ∀ ret, P (.pwrite fd count offset ret)) : Calls P (pwrite env fd count offset) := by
  intro s
  unfold pwrite World.pwrite
  cases env.sys.pwrite s.world.calls count offset with
  | ok n => exact ⟨⟨.call rfl rfl (hP _), rfl⟩, fun _ => nofun⟩
  | error e =>
    exact ⟨⟨.call rfl rfl (hP _), rfl⟩, fun e' h => Or.inl ⟨e, (Except.error.inj h).symm⟩⟩

theorem calls_fdatasync {fd : ℤ} (hP : ∀ ret, P (.fdatasync fd ret)) :
    Calls P (fdatasync env fd) := by
  intro s
  unfold fdatasync World.fdatasync
  cases env.sys.fdatasync s.world.calls with
  | ok n => exact ⟨⟨.call rfl rfl (hP _), rfl⟩, fun _ => nofun⟩
  | error e =>
    exact ⟨⟨.call rfl rfl (hP _), rfl⟩, fun e' h => Or.inl ⟨e, (Except.error.inj h).symm⟩⟩

theorem calls_hipMemcpyHostToDevice (hP : ∀ ret, P (.hipMemcpy ret)) (dst size : ℕ) :
    Calls P (hipMemcpyHostToDevice env dst size) := by
  intro s
  unfold hipMemcpyHostToDevice World.hipMemcpyHostToDevice
  cases env.hip.hipMemcpy s.world.calls with
  | ok n => exact ⟨⟨.call rfl rfl (hP _), rfl⟩, fun _ => nofun⟩
  | error e =>
    exact ⟨⟨.call rfl rfl (hP _), rfl⟩, fun e' h => Or.inr ⟨e, (Except.error.inj h).symm⟩⟩

theorem calls_hipMemcpyDeviceToHost (hP : ∀ ret, P (.hipMemcpy ret)) (src size : ℕ) :
    Calls P (hipMemcpyDeviceToHost env src size) := by
  intro s
  unfold hipMemcpyDeviceToHost World.hipMemcpyDeviceToHost
  cases env.hip.hipMemcpy s.world.calls with
  | ok n => exact ⟨⟨.call rfl rfl (hP _), rfl⟩, fun _ => nofun⟩
  | error e =>
    exact ⟨⟨.call rfl rfl (hP _), rfl⟩, fun e' h => Or.inr ⟨e, (Except.error.inj h).symm⟩⟩

theorem calls_hipStreamSynchronize (hP : ∀ ret, P (.hipStreamSynchronize ret)) :
    Calls P (hipStreamSynchronize env) := by
  intro s
  unfold hipStreamSynchronize World.hipStreamSynchronize
  cases env.hip.hipStreamSynchronize s.world.calls with
  | ok n => exact ⟨⟨.call rfl rfl (hP _), rfl⟩, fun _ => nofun⟩
  | error e =>
    exact ⟨⟨.call rfl rfl (hP _), rfl⟩, fun e' h => Or.inr ⟨e, (Except.error.inj h).symm⟩⟩

/-- **The transfer of a round** makes its calls for the count and the offset of the round. -/
theorem calls_transfer (env : Env) (file : IFile) (type : IoType) (devicePos count : ℕ)
    (offset : ℤ) : Calls (RoundCall file.bufferedFd count offset)
      (transfer env file type devicePos count offset) := by
  cases type with
  | read =>
    refine calls_bind (calls_pread fun _ => ⟨rfl, rfl, rfl⟩) fun ioBytes => ?_
    by_cases h : 0 < ioBytes
    · simp only [if_pos h]
      exact calls_bind (calls_hipMemcpyHostToDevice (fun _ => trivial) _ _) fun _ => calls_pure _
    · simp only [if_neg h]
      exact calls_pure _
  | write =>
    refine calls_bind (calls_hipMemcpyDeviceToHost (fun _ => trivial) _ _) fun _ => ?_
    refine calls_bind (calls_hipStreamSynchronize fun _ => trivial) fun _ => ?_
    refine calls_bind (calls_pwrite fun _ => ⟨rfl, rfl, rfl⟩) fun ioBytes => ?_
    exact calls_bind (calls_fdatasync fun _ => rfl) fun _ => calls_pure _

/-- A transfer returns at most the count. -/
theorem transfer_le {file : IFile} {type : IoType} {devicePos count n : ℕ} {offset : ℤ}
    {s s' : LoopState} (h : transfer env file type devicePos count offset s = (.ok n, s')) :
    n ≤ count := by
  cases type with
  | read =>
    obtain ⟨ioBytes, s₁, hread, h⟩ := Prog.bind_eq_ok h
    obtain rfl : ioBytes = n := by
      by_cases hpos : 0 < ioBytes
      · simp only [if_pos hpos] at h
        obtain ⟨_, s₂, -, h⟩ := Prog.bind_eq_ok h
        cases h
        rfl
      · simp only [if_neg hpos] at h
        cases h
        rfl
    unfold pread World.pread at hread
    cases hp : env.sys.pread s.world.calls count offset with
    | ok k =>
      rw [hp] at hread
      cases hread
      exact env.sys.pread_le hp
    | error e =>
      rw [hp] at hread
      cases hread
  | write =>
    obtain ⟨-, s₁, -, h⟩ := Prog.bind_eq_ok h
    obtain ⟨-, s₂, -, h⟩ := Prog.bind_eq_ok h
    obtain ⟨ioBytes, s₃, hwrite, h⟩ := Prog.bind_eq_ok h
    obtain ⟨-, s₄, -, h⟩ := Prog.bind_eq_ok h
    cases h
    unfold pwrite World.pwrite at hwrite
    cases hp : env.sys.pwrite s₂.world.calls count offset with
    | ok k =>
      rw [hp] at hwrite
      cases hwrite
      exact env.sys.pwrite_le hp
    | error e =>
      rw [hp] at hwrite
      cases hwrite

/-- **A round** makes its calls for the bytes after those that have been counted. -/
theorem round_calls (env : Env) (file : IFile) (type : IoType) (buffer : IBuffer) (size : ℕ)
    (fileOffset bufferOffset : ℤ) (chunkSize : ℕ) (s : LoopState) :
    (∀ s', round env file type buffer size fileOffset bufferOffset chunkSize s = .inl s' →
      World.Grows (RoundCall file.bufferedFd (min chunkSize (size - s.totalIoBytes))
        (fileOffset + s.totalIoBytes)) s.world s'.world) ∧
    ∀ r, round env file type buffer size fileOffset bufferOffset chunkSize s = .inr r →
      World.Grows (RoundCall file.bufferedFd (min chunkSize (size - s.totalIoBytes))
        (fileOffset + s.totalIoBytes)) s.world r.2 := by
  set P := RoundCall file.bufferedFd (min chunkSize (size - s.totalIoBytes))
    (fileOffset + s.totalIoBytes) with hP
  have hgrows := (calls_transfer env file type
    (devicePosition buffer bufferOffset s.totalIoBytes) (min chunkSize (size - s.totalIoBytes))
    (fileOffset + s.totalIoBytes) s).1.1
  rw [← hP] at hgrows
  unfold round
  simp only
  split
  · rename_i ioBytes s' heq
    rw [heq] at hgrows
    split
    · exact Loop.leaves (Q := fun r : Outcome => World.Grows P s.world r.2) hgrows
    · exact loopTest_spec (fun _ => hgrows) fun _ => hgrows
  · rename_i e s' heq
    rw [heq] at hgrows
    split
    · exact loopTest_spec (fun _ => hgrows) fun _ => hgrows
    · exact Loop.leaves (Q := fun r : Outcome => World.Grows P s.world r.2) hgrows
  · rename_i e s' hne heq
    rw [heq] at hgrows
    exact Loop.leaves (Q := fun r : Outcome => World.Grows P s.world r.2) hgrows

end Fallback

end HipFile
