import HipFile.Proof.ConcurrentIo

/-!
# A thread that is scheduled alone

* `round_leads`: the calls of a round, one after another, are the round.
* `ended_iff`: the calls of a request end exactly if `_io_impl` returns.
* `alone_refines`: a thread that is scheduled alone does what `_io_impl` does.
-/

namespace HipFile.Fallback

open Bytes

variable {env : Env} {req : Request} {w : World} {s s' : LoopState} {p : Point}

/-! ## A thread alone -/

/-- A thread's next call, with the point that it stands at. -/
def stepOf (env : Env) (req : Request) (x : LoopState × Point) : LoopState × Point :=
  step env req x.1 x.2

/-- Some calls of a thread lead from one point to another. -/
def Leads (env : Env) (req : Request) (x y : LoopState × Point) : Prop :=
  ∃ k, 0 < k ∧ (stepOf env req)^[k] x = y

theorem Leads.one {x y : LoopState × Point} (h : stepOf env req x = y) : Leads env req x y :=
  ⟨1, by omega, h⟩

theorem Leads.cons {x y : LoopState × Point} (h : Leads env req (stepOf env req x) y) :
    Leads env req x y := by
  obtain ⟨k, hk, rfl⟩ := h
  exact ⟨k + 1, by omega, Function.iterate_succ_apply _ _ _⟩

theorem Leads.trans {x y z : LoopState × Point} (h : Leads env req x y) (h' : Leads env req y z) :
    Leads env req x z := by
  obtain ⟨k, hk, rfl⟩ := h
  obtain ⟨k', hk', rfl⟩ := h'
  exact ⟨k' + k, by omega, Function.iterate_add_apply _ _ _ _⟩

/-- The round that the state is in. -/
def Request.round (env : Env) (req : Request) (s : LoopState) : LoopState ⊕ Outcome :=
  Fallback.round env req.file req.type req.buffer.toIBuffer (req.limit env) req.fileOffset
    req.bufferOffset req.chunkSize s

/-- Where a thread stands that has gone through what a round gives. -/
def Arrives (r : LoopState ⊕ Outcome) (x : LoopState × Point) : Prop :=
  match r with
  | .inl s => x = (s, .first)
  | .inr (.ok n, w) => x.2 = .count ∧ x.1.totalIoBytes = n ∧ x.1.world = w
  | .inr (.error e, w) => x.2 = .ended (.error e) ∧ x.1.world = w

theorem test_arrives (size : ℕ) (s : LoopState) : Arrives (loopTest size s) (test size s) := by
  unfold loopTest test
  split
  · rfl
  · exact ⟨rfl, rfl, rfl⟩

/-- The rest of a round, after its transfer. -/
theorem round_arrives (env : Env) (req : Request) (s : LoopState) : Arrives (req.round env s)
    (after (req.limit env) (transfer env req.file req.type (req.roundDevice s)
      (req.roundCount env s) (req.roundOffset s) s) (counted (req.limit env))) := by
  rcases hr : transfer env req.file req.type (req.roundDevice s) (req.roundCount env s)
    (req.roundOffset s) s with ⟨ret, s'⟩
  unfold Request.roundDevice Request.roundCount Request.roundOffset at hr
  unfold Request.round Fallback.round
  simp only [hr]
  cases ret with
  | ok n =>
    unfold after counted
    simp only
    split
    · exact ⟨rfl, rfl, rfl⟩
    · exact test_arrives _ _
  | error e =>
    unfold after caught
    cases e with
    | systemError code =>
      simp only [Exn.systemError.injEq]
      split
      · exact test_arrives _ _
      · exact ⟨rfl, rfl⟩
    | _ => exact ⟨rfl, rfl⟩

/-- What a round reads of its state is the bytes counted. -/
theorem round_congr (h : s'.totalIoBytes = s.totalIoBytes) :
    req.roundCount env s' = req.roundCount env s ∧ req.roundOffset s' = req.roundOffset s ∧
      req.roundDevice s' = req.roundDevice s := by
  unfold Request.roundCount Request.roundOffset Request.roundDevice
  rw [h]
  exact ⟨rfl, rfl, rfl⟩

/-- **The calls of a round**, one after another, are its transfer. -/
theorem transfer_leads (env : Env) (req : Request) (s : LoopState) : Leads env req (s, .first)
    (after (req.limit env) (transfer env req.file req.type (req.roundDevice s)
      (req.roundCount env s) (req.roundOffset s) s) (counted (req.limit env))) := by
  have hfirst : stepOf env req (s, .first) = firstCall env req s := rfl
  cases htype : req.type with
  | read =>
    unfold firstCall at hfirst
    rw [htype] at hfirst
    simp only at hfirst
    rcases hread : pread env req.file.bufferedFd (req.roundCount env s) (req.roundOffset s) s with
      ⟨ret, s₁⟩
    rw [hread] at hfirst
    cases ret with
    | error e =>
      simp only [transfer, Prog.bind_apply, hread]
      exact Leads.one hfirst
    | ok n =>
      by_cases hpos : 0 < n
      · simp only [after, if_pos hpos] at hfirst
        obtain ⟨-, hs₁⟩ := pread_ok hread
        obtain ⟨-, -, hdevice⟩ := @round_congr env req s s₁
          (by rw [hs₁])
        refine Leads.cons ?_
        rw [hfirst]
        have hcopy : stepOf env req (s₁, .hostToDevice n) = after (req.limit env)
            (hipMemcpyHostToDevice env (req.roundDevice s) n s₁) fun _ s =>
              counted (req.limit env) n s := by
          rw [← hdevice]
          rfl
        simp only [transfer, Prog.bind_apply, hread, if_pos hpos, Prog.pure_apply]
        rcases hmem : hipMemcpyHostToDevice env (req.roundDevice s) n s₁ with ⟨ret, s₂⟩
        rw [hmem] at hcopy
        cases ret with
        | error e => exact Leads.one hcopy
        | ok u => exact Leads.one hcopy
      · simp only [after, if_neg hpos] at hfirst
        simp only [transfer, Prog.bind_apply, hread, if_neg hpos, Prog.pure_apply]
        exact Leads.one hfirst
  | write =>
    unfold firstCall at hfirst
    rw [htype] at hfirst
    simp only at hfirst
    simp only [transfer, Prog.bind_apply]
    rcases hmem : hipMemcpyDeviceToHost env (req.roundDevice s) (req.roundCount env s) s with
      ⟨ret, s₁⟩
    rw [hmem] at hfirst
    cases ret with
    | error e => exact Leads.one hfirst
    | ok u =>
      have hs₁ := hipMemcpyDeviceToHost_ok hmem
      refine Leads.cons ?_
      rw [hfirst]
      simp only [after]
      rcases hsync : hipStreamSynchronize env s₁ with ⟨ret, s₂⟩
      have hstep₂ : stepOf env req (s₁, .streamSynchronize) = after (req.limit env) (ret, s₂)
          fun _ s => (s, .pwrite) := by
        rw [← hsync]
        rfl
      cases ret with
      | error e => exact Leads.one hstep₂
      | ok u =>
        obtain ⟨ev, hs₂⟩ := hipStreamSynchronize_ok hsync
        refine Leads.cons ?_
        rw [hstep₂]
        simp only [after]
        obtain ⟨hcount, hoffset, -⟩ := @round_congr env req s s₂
          (by rw [hs₂, hs₁]; rfl)
        rcases hwrite : pwrite env req.file.bufferedFd (req.roundCount env s) (req.roundOffset s) s₂
          with ⟨ret, s₃⟩
        have hstep₃ : stepOf env req (s₂, .pwrite) = after (req.limit env) (ret, s₃)
            fun ioBytes s => (s, .fdatasync ioBytes) := by
          rw [← hwrite, ← hcount, ← hoffset]
          rfl
        cases ret with
        | error e => exact Leads.one hstep₃
        | ok n =>
          refine Leads.cons ?_
          rw [hstep₃]
          simp only [after]
          rcases hdata : fdatasync env req.file.bufferedFd s₃ with ⟨ret, s₄⟩
          have hstep₄ : stepOf env req (s₃, .fdatasync n) = after (req.limit env) (ret, s₄)
              fun _ s => counted (req.limit env) n s := by
            rw [← hdata]
            rfl
          cases ret with
          | error e => exact Leads.one hstep₄
          | ok u => exact Leads.one hstep₄

/-- **The calls of a round** lead to where the round ends. -/
theorem round_leads (env : Env) (req : Request) (s : LoopState) :
    ∃ x, Leads env req (s, .first) x ∧ Arrives (req.round env s) x :=
  ⟨_, transfer_leads env req s, round_arrives env req s⟩

/-- **The rounds of the loop**: as long as it goes on, a thread has made a call for each of
them; and where it leaves, the thread gets there. -/
theorem rounds_lead (env : Env) (req : Request) : ∀ n s,
    (∀ s', Loop.iter (req.round env) n s = .inl s' →
      ∃ k, n ≤ k ∧ (stepOf env req)^[k] (s, .first) = (s', .first)) ∧
    ∀ out, Loop.iter (req.round env) n s = .inr out →
      ∃ x, Leads env req (s, .first) x ∧ Arrives (.inr out) x := by
  intro n
  induction n with
  | zero =>
    intro s
    refine ⟨fun s' h => ?_, fun out h => by simp at h⟩
    obtain rfl := Sum.inl.inj h
    exact ⟨0, Nat.le_refl 0, rfl⟩
  | succ n ih =>
    intro s
    obtain ⟨x, hx, harrives⟩ := round_leads env req s
    cases hround : req.round env s with
    | inl s₁ =>
      rw [hround] at harrives
      obtain rfl := harrives
      rw [Loop.iter_succ_inl hround]
      obtain ⟨k₁, hk₁, hlead⟩ := hx
      refine ⟨fun s' h => ?_, fun out h => ?_⟩
      · obtain ⟨k, hk, hrest⟩ := (ih s₁).1 s' h
        exact ⟨k + k₁, by omega, by rw [Function.iterate_add_apply, hlead, hrest]⟩
      · obtain ⟨y, hy, hout⟩ := (ih s₁).2 out h
        exact ⟨y, Leads.trans ⟨k₁, hk₁, hlead⟩ hy, hout⟩
    | inr out₁ =>
      rw [Loop.iter_succ_inr hround]
      refine ⟨fun s' h => by simp at h, fun out h => ?_⟩
      obtain rfl := Sum.inr.inj h
      exact ⟨x, hx, hround ▸ harrives⟩

/-- `_io_impl` for a request. -/
def Request.ioImpl (env : Env) (req : Request) (rounds : ℕ) (w : World) : LoopState ⊕ Outcome :=
  Fallback.ioImpl env rounds req.type req.file req.buffer.toIBuffer req.size req.fileOffset
    req.bufferOffset req.chunkSize w

/-- The state of a thread before its first call, in a world. -/
def Request.first (env : Env) (req : Request) (w : World) : LoopState × Point :=
  (⟨w, (req.start env).bounceBuffer, (req.start env).totalIoBytes⟩, (req.start env).point)

/-- **The calls of a request** lead to what `_io_impl` returns; and as long as `_io_impl` runs,
there is a call for each of its rounds. -/
theorem ioImpl_leads (env : Env) (req : Request) (rounds : ℕ) (w : World) :
    (∀ s', req.ioImpl env rounds w = .inl s' →
      ∃ k, rounds ≤ k ∧ (stepOf env req)^[k] (req.first env w) = (s', .first)) ∧
    ∀ ret w', req.ioImpl env rounds w = .inr (ret, w') →
      ∃ k s', (stepOf env req)^[k] (req.first env w) = (s', .ended ret) ∧ s'.world = w' := by
  unfold Request.ioImpl Fallback.ioImpl Request.first Request.start
  cases haccept : accept env req.buffer.toIBuffer req.size req.fileOffset req.bufferOffset with
  | error e =>
    refine ⟨fun s' h => by simp at h, fun ret w' h => ?_⟩
    obtain ⟨rfl, rfl⟩ := Prod.mk.inj (Sum.inr.inj h)
    exact ⟨0, _, rfl, rfl⟩
  | ok region =>
    have hsize : region.size = req.limit env := by
      unfold accept at haccept
      rw [ite_error_eq_ok, ite_error_eq_ok] at haccept
      rw [← Except.ok.inj haccept.2.2]
      rfl
    simp only
    set x₀ : LoopState × Point := (⟨w, fun _ => 0, 0⟩, .mmap) with hx₀
    rcases hmap : w.mmap env.sys with ⟨ret₀, w₁⟩
    cases ret₀ with
    | error e =>
      have hfirst : stepOf env req x₀ =
          (⟨w₁, fun _ => 0, 0⟩, .ended (.error (.systemError e))) := by
        simp only [hx₀, stepOf, step, hmap]
      refine ⟨fun s' h => by simp at h, fun ret w' h => ?_⟩
      obtain ⟨rfl, rfl⟩ := Prod.mk.inj (Sum.inr.inj h)
      exact ⟨1, _, hfirst, rfl⟩
    | ok u =>
      set s₁ : LoopState := ⟨w₁, fun _ => 0, 0⟩ with hs₁
      have hfirst : stepOf env req x₀ = (s₁, .first) := by
        simp only [hx₀, stepOf, step, hmap, hs₁]
      have hrounds := rounds_lead env req rounds s₁
      have hloop : Fallback.round env req.file req.type req.buffer.toIBuffer region.size
          req.fileOffset req.bufferOffset req.chunkSize = req.round env := by
        rw [hsize]
        rfl
      simp only [hloop, ← hs₁]
      rcases hiter : Loop.iter (req.round env) rounds s₁ with s₂ | ⟨ret₁, w₂⟩
      · refine ⟨fun s' h => ?_, fun ret w' h => by simp at h⟩
        obtain rfl := Sum.inl.inj h
        obtain ⟨k, hk, hlead⟩ := hrounds.1 s₂ hiter
        exact ⟨k + 1, by omega, by rw [Function.iterate_succ_apply, hfirst, hlead]⟩
      · obtain ⟨⟨s₃, p⟩, ⟨k, -, hlead⟩, harrives⟩ := hrounds.2 _ hiter
        have hreach : (stepOf env req)^[k + 1] x₀ = (s₃, p) := by
          rw [Function.iterate_succ_apply, hfirst, hlead]
        cases ret₁ with
        | ok total =>
          obtain ⟨hp, htotal, hworld⟩ := harrives
          refine ⟨fun s' h => by simp at h, fun ret w' h => ?_⟩
          obtain ⟨rfl, rfl⟩ := Prod.mk.inj (Sum.inr.inj h)
          refine ⟨k + 2, ⟨s₃.world.statsAddFallbackPath env.config req.type s₃.totalIoBytes,
            s₃.bounceBuffer, s₃.totalIoBytes⟩, ?_, ?_⟩
          · have hp : p = .count := hp
            have htotal : s₃.totalIoBytes = total := htotal
            rw [Function.iterate_succ_apply', hreach, hp, ← htotal]
            rfl
          · have htotal : s₃.totalIoBytes = total := htotal
            have hworld : s₃.world = w₂ := hworld
            rw [htotal, hworld]
        | error e =>
          obtain ⟨hp, hworld⟩ := harrives
          refine ⟨fun s' h => by simp at h, fun ret w' h => ?_⟩
          obtain ⟨rfl, rfl⟩ := Prod.mk.inj (Sum.inr.inj h)
          have hp : p = .ended (.error e) := hp
          exact ⟨k + 1, s₃, by rw [hreach, hp], hworld⟩

/-- A thread that has ended makes no further call. -/
theorem stepOf_ended {x : LoopState × Point} {ret : Except Exn ℕ} (hx : x.2 = .ended ret) :
    ∀ k, (stepOf env req)^[k] x = x := by
  intro k
  have hstay : stepOf env req x = x := by
    obtain ⟨s, p⟩ := x
    have hx : p = .ended ret := hx
    rw [hx]
    rfl
  exact Function.iterate_fixed hstay k

/-- **The calls of a request end exactly if `_io_impl` returns**, and with what it returns. -/
theorem ended_iff (env : Env) (req : Request) (w w' : World) (ret : Except Exn ℕ) :
    (∃ k s', (stepOf env req)^[k] (req.first env w) = (s', .ended ret) ∧ s'.world = w') ↔
      ∃ rounds, req.ioImpl env rounds w = .inr (ret, w') := by
  constructor
  · rintro ⟨k, s', hk, hw'⟩
    -- if the loop still ran after so many rounds, so many calls would not have ended
    obtain ⟨hruns, hreturns⟩ := ioImpl_leads env req (k + 1) w
    rcases hio : req.ioImpl env (k + 1) w with s₁ | ⟨ret₁, w₁⟩
    · obtain ⟨k₁, hk₁, hlead⟩ := hruns s₁ hio
      have hsplit : k₁ = (k₁ - k) + k := by omega
      rw [hsplit, Function.iterate_add_apply, hk, stepOf_ended rfl] at hlead
      cases hlead
    · obtain ⟨k₁, s₁, hlead, hs₁⟩ := hreturns ret₁ w₁ hio
      have hboth : (s', Point.ended ret) = (s₁, Point.ended ret₁) := by
        rcases Nat.le_total k k₁ with hle | hle
        · obtain ⟨d, rfl⟩ := Nat.exists_eq_add_of_le' hle
          rw [Function.iterate_add_apply, hk, stepOf_ended rfl] at hlead
          exact hlead
        · obtain ⟨d, rfl⟩ := Nat.exists_eq_add_of_le' hle
          rw [Function.iterate_add_apply, hlead, stepOf_ended rfl] at hk
          exact hk.symm
      obtain ⟨rfl, hret⟩ := Prod.mk.inj hboth
      obtain rfl := Point.ended.inj hret
      exact ⟨k + 1, by rw [hio, ← hs₁, hw']⟩
  · rintro ⟨rounds, hio⟩
    exact (ioImpl_leads env req rounds w).2 ret w' hio

/-- A call of a round keeps `hip_inited` if it does so where it returns. -/
theorem after_hipInited {α : Type} {size : ℕ} {r : Except Exn α × LoopState}
    {k : α → LoopState → LoopState × Point}
    (hok : ∀ a s', r = (.ok a, s') → (k a s').1.world.hipInited = s.world.hipInited)
    (herr : ∀ e s', r = (.error e, s') → Failed env s e s') :
    (after size r k).1.world.hipInited = s.world.hipInited := by
  refine after_spec (Q := fun x => x.1.world.hipInited = s.world.hipInited) hok ?_
  intro e s' hr
  obtain ⟨⟨ev, rfl⟩, -⟩ := herr e s' hr
  rw [caught_world]
  rfl

/-- The calls of a thread alone, on a file that keeps to its kernel's rules. -/
theorem calls_meet {w : World} (req : Request) (hlaw : req.type = .read → ∀ i count offset,
    PreadReturns count offset w.file.eof (env.sys.pread i count offset)) :
    ∀ k, Meets env req w w ((stepOf env req)^[k] (req.first env w)) := by
  intro k
  induction k with
  | zero => exact ⟨start_served env req w, Change.refl env req w⟩
  | succ k ih =>
    rw [Function.iterate_succ_apply']
    set x := (stepOf env req)^[k] (req.first env w) with hx
    by_cases hgoes : ∀ r, x.2 ≠ .ended r
    · have hlawful : Lawful env req x.1 x.2 := by
        cases hp : x.2 with
        | first =>
          intro htype
          -- a read leaves the file as it is
          have heof : x.1.world.file.eof = w.file.eof := by
            rcases ih.change.eof with heof | ⟨⟨hwrite, -⟩, -⟩
            · exact heof
            · rw [htype] at hwrite
              cases hwrite
          rw [heof]
          exact hlaw htype _ _ _
        | _ => trivial
      have hstep := step_meets ih.served hlawful hgoes
      exact ⟨hstep.served, ih.change.trans hstep.change⟩
    · obtain ⟨r, hr⟩ := not_forall.1 hgoes
      have hstay : stepOf env req x = x := stepOf_ended (not_not.1 hr) 1
      rw [hstay]
      exact ih

/-- **What `_io_impl` leaves**, whatever the calls return: what holds of a thread at its end, and
no change outside of what the request writes. -/
theorem ioImpl_served {rounds : ℕ} {w : World} (hlaw : req.type = .read → ∀ i count offset,
    PreadReturns count offset w.file.eof (env.sys.pread i count offset)) :
    (∀ s', req.ioImpl env rounds w = .inl s' → Change env req w s'.world) ∧
    ∀ ret w', req.ioImpl env rounds w = .inr (ret, w') →
      Change env req w w' ∧ ∃ s', s'.world = w' ∧ Standing env req w s' (.ended ret) := by
  obtain ⟨hruns, hreturns⟩ := ioImpl_leads env req rounds w
  refine ⟨fun s' hio => ?_, fun ret w' hio => ?_⟩
  · obtain ⟨k, -, hlead⟩ := hruns s' hio
    have hmeets := calls_meet req hlaw k
    rw [hlead] at hmeets
    exact hmeets.change
  · obtain ⟨k, s', hlead, rfl⟩ := hreturns ret w' hio
    have hmeets := calls_meet req hlaw k
    rw [hlead] at hmeets
    exact ⟨hmeets.change, s', rfl, hmeets.served⟩

/-- The fallback does not initialise HIP for its thread. -/
theorem step_hipInited (env : Env) (req : Request) (s : LoopState) (p : Point) :
    (step env req s p).1.world.hipInited = s.world.hipInited := by
  cases p with
  | mmap =>
    unfold step World.mmap
    cases env.sys.mmap s.world.calls <;> rfl
  | first =>
    unfold step firstCall
    cases req.type with
    | read =>
      refine after_hipInited (fun n s' hs => ?_) fun e s' hs => pread_error hs
      obtain ⟨-, rfl⟩ := pread_ok hs
      split
      · rfl
      · rw [counted_world]
        rfl
    | write =>
      refine after_hipInited (fun _ s' hs => ?_) fun e s' hs => hipMemcpyDeviceToHost_error hs
      obtain rfl := hipMemcpyDeviceToHost_ok hs
      rfl
  | hostToDevice n =>
    refine after_hipInited (fun _ s' hs => ?_) fun e s' hs => hipMemcpyHostToDevice_error hs
    obtain rfl := hipMemcpyHostToDevice_ok hs
    rw [counted_world]
    rfl
  | streamSynchronize =>
    refine after_hipInited (fun _ s' hs => ?_) fun e s' hs => hipStreamSynchronize_error hs
    obtain ⟨ev, rfl⟩ := hipStreamSynchronize_ok hs
    rfl
  | pwrite =>
    refine after_hipInited (fun n s' hs => ?_) fun e s' hs => pwrite_error hs
    obtain ⟨-, rfl⟩ := pwrite_ok hs
    rfl
  | fdatasync n =>
    refine after_hipInited (fun _ s' hs => ?_) fun e s' hs => fdatasync_error hs
    obtain ⟨ev, rfl⟩ := fdatasync_ok hs
    rw [counted_world]
    rfl
  | count =>
    unfold step World.statsAddFallbackPath World.addStats
    simp only
    split <;> rfl
  | ended r => rfl

theorem Shared.put_world (s : Shared) (inode : ℕ) : s.put inode (s.world inode) = s := by
  unfold Shared.put Shared.world
  simp only [Function.update_eq_self]

theorem Shared.put_put (s : Shared) (inode : ℕ) (w w' : World) :
    (s.put inode w).put inode w' = s.put inode w' := by
  unfold Shared.put
  simp only [Function.update_idem]

/-- The calls of a thread on the shared state are those on what it sees. -/
theorem advance_iterate (env : Env) (req : Request) (init : Shared) (t : Thread) : ∀ k,
    ∃ s p, (stepOf env req)^[k] (t.loopState init req.inode, t.point) = (s, p) ∧
      s.world.hipInited = false ∧
      (fun x : Shared × Thread => req.advance env x.1 x.2)^[k] (init, t) =
        (init.put req.inode s.world, ⟨p, s.bounceBuffer, s.totalIoBytes⟩) := by
  intro k
  induction k with
  | zero =>
    refine ⟨_, _, rfl, rfl, ?_⟩
    rw [Function.iterate_zero, id, Thread.loopState]
    simp only [Shared.put_world]
  | succ k ih =>
    obtain ⟨s, p, hstep, hhip, hadvance⟩ := ih
    refine ⟨(step env req s p).1, (step env req s p).2, ?_, ?_, ?_⟩
    · rw [Function.iterate_succ_apply', hstep]
      rfl
    · rw [step_hipInited, hhip]
    · have hsees : Thread.loopState ⟨p, s.bounceBuffer, s.totalIoBytes⟩
          (init.put req.inode s.world) req.inode = s := by
        unfold Thread.loopState
        rw [Shared.world_put, ← hhip]
      rw [Function.iterate_succ_apply', hadvance]
      simp only [Request.advance, hsees, Shared.put_put]

section

variable {ι : Type} {reqs : ι → Request} {init : Shared} {i : ι}

/-- A move of a thread is its next call. -/
theorem threads_step_eq {s : Shared} {t : Thread} {y : Shared × Thread}
    (h : (threads env reqs init).step i s t = some y) : y = (reqs i).advance env s t := by
  have hgoes : ∀ r, t.point ≠ .ended r := by
    intro r hr
    simp [threads, hr] at h
  rw [threads_step hgoes] at h
  exact (Option.some.inj h).symm

/-- A thread makes its next call, or has ended. -/
theorem threads_step_or (s : Shared) (t : Thread) :
    (threads env reqs init).step i s t = some ((reqs i).advance env s t) ∨
      (threads env reqs init).step i s t = none ∧ (reqs i).advance env s t = (s, t) := by
  by_cases hended : ∃ r, t.point = .ended r
  · obtain ⟨r, hp⟩ := hended
    refine Or.inr ⟨by simp only [threads, hp], ?_⟩
    obtain ⟨p, b, n⟩ := t
    obtain rfl : p = .ended r := hp
    simp only [Request.advance, step, Thread.loopState, Shared.put_world]
  · have hgoes : ∀ r, t.point ≠ .ended r := fun r hr => hended ⟨r, hr⟩
    exact Or.inl (threads_step hgoes)

variable [DecidableEq ι]

/-- **A thread that is scheduled alone does what `_io_impl` does**: it ends exactly if `_io_impl`
returns, with what it returns, and leaves what it leaves. -/
theorem alone_refines (env : Env) (reqs : ι → Request) (init : Shared) (i : ι)
    (ret : Except Exn ℕ) (s : Shared) :
    (∃ k ts, (threads env reqs init).machine.run (threads env reqs init).machine.init
        (List.replicate k i) = some (s, ts) ∧ (ts i).point = .ended ret) ↔
      ∃ rounds w, (reqs i).ioImpl env rounds (init.world (reqs i).inode) = .inr (ret, w) ∧
        s = init.put (reqs i).inode w := by
  set t := (reqs i).start env with ht
  have hfirst : (t.loopState init (reqs i).inode, t.point) =
      (reqs i).first env (init.world (reqs i).inode) := rfl
  constructor
  · rintro ⟨k, ts, hrun, hended⟩
    have hend := Parties.run_replicate (f := fun x => (reqs i).advance env x.1 x.2)
      (fun x y h => threads_step_eq h) hrun
    obtain ⟨s', p, hcalls, -, hadvance⟩ := advance_iterate env (reqs i) init t k
    have hinit : ((threads env reqs init).init, (threads env reqs init).start i) = (init, t) := rfl
    rw [hinit, hadvance] at hend
    obtain ⟨rfl, rfl⟩ := Prod.mk.inj hend
    rw [Function.update_self] at hended
    obtain rfl : p = .ended ret := hended
    obtain ⟨rounds, hio⟩ := (ended_iff env (reqs i) (init.world (reqs i).inode) s'.world ret).1
      ⟨k, s', by rw [← hfirst, hcalls], rfl⟩
    exact ⟨rounds, s'.world, hio, rfl⟩
  · rintro ⟨rounds, w, hio, rfl⟩
    obtain ⟨k, s', hcalls, rfl⟩ :=
      (ended_iff env (reqs i) (init.world (reqs i).inode) w ret).2 ⟨rounds, hio⟩
    obtain ⟨s₁, p, hcalls₁, -, hadvance⟩ := advance_iterate env (reqs i) init t k
    rw [hfirst, hcalls] at hcalls₁
    obtain ⟨rfl, rfl⟩ := Prod.mk.inj hcalls₁
    obtain ⟨k', -, hrun⟩ := Parties.run_alone (P := threads env reqs init) (i := i)
      (f := fun x => (reqs i).advance env x.1 x.2) (fun x => threads_step_or x.1 x.2) k init
      fun j => (reqs j).start env
    rw [hadvance] at hrun
    exact ⟨k', _, hrun, by rw [Function.update_self]⟩

end

end HipFile.Fallback
