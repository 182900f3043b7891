import HipFile.Proof.ConcurrentIo

/-!
# Runs of threads that serve requests

* `concurrent_run_le`: a run ends, whatever the order of the calls, if calls are interrupted
  finitely often.
* `concurrent_confluent`: the order of the calls does not show in the files and the device memory.
-/

namespace HipFile.Fallback

open Bytes

variable {env : Env} {req : Request} {s s' : LoopState} {p : Point}

/-! ## The number of calls -/

/-- The calls that a round still makes, at most, once it has come to a point. -/
def Point.callsLeft : Point → ℕ
  | .mmap => 6
  | .first => 5
  | .hostToDevice _ => 4
  | .streamSynchronize => 4
  | .pwrite => 3
  | .fdatasync _ => 2
  | .count => 1
  | .ended _ => 0

/-- The calls that a thread still makes, at most, if none is interrupted: a round that goes on
has moved a byte. -/
def weight (env : Env) (req : Request) (total : ℕ) (p : Point) : ℕ :=
  5 * (req.limit env - total) + p.callsLeft

/-- What is left after a step of a thread, without the interruptions. -/
abbrev left (env : Env) (req : Request) (x : LoopState × Point) : ℕ :=
  weight env req x.1.totalIoBytes x.2

theorem test_left (env : Env) (req : Request) (s : LoopState) :
    left env req (test (req.limit env) s) ≤ 5 * (req.limit env - s.totalIoBytes) + 5 := by
  unfold left test weight
  simp only
  split <;> simp [Point.callsLeft]

theorem counted_left (env : Env) (req : Request) (n : ℕ) (s : LoopState) :
    left env req (counted (req.limit env) n s) ≤ 5 * (req.limit env - s.totalIoBytes) + 1 := by
  unfold counted test left weight
  simp only
  split
  · rename_i h
    subst h
    simp [Point.callsLeft]
  · simp only
    split
    · simp only [Point.callsLeft]
      omega
    · simp only [Point.callsLeft]
      omega

/-- A call that threw uses up an interruption, or ends the request. -/
theorem caught_left {N : ℕ} (hN : ∀ i, N ≤ i → ¬ Interrupts env i) {e : Exn}
    (h : Failed env s e s') :
    5 * (N - (caught (req.limit env) e s').1.world.calls) +
        left env req (caught (req.limit env) e s') ≤
      5 * (N - s.world.calls) + 5 * (req.limit env - s.totalIoBytes) := by
  obtain ⟨⟨ev, rfl⟩, hint⟩ := h
  rw [caught_world]
  have hcalls : (s.logged ev).world.calls = s.world.calls + 1 := World.log_calls _ _
  by_cases he : e = .systemError EINTR
  · have hlt : s.world.calls < N := by
      by_contra hge
      exact hN _ (by omega) (hint he)
    have htest := test_left env req (s.logged ev)
    have htotal : (s.logged ev).totalIoBytes = s.totalIoBytes := rfl
    unfold caught
    rw [if_pos he, hcalls]
    omega
  · unfold caught left weight
    rw [if_neg he, hcalls]
    simp only [Point.callsLeft, LoopState.logged]
    omega

/-- A step has lowered the budget of its thread with that of the interruptions. -/
def Lowers (env : Env) (req : Request) (N : ℕ) (s : LoopState) (p : Point)
    (x : LoopState × Point) : Prop :=
  5 * (N - x.1.world.calls) + left env req x <
    5 * (N - s.world.calls) + weight env req s.totalIoBytes p

/-- A call that went well has lowered it if its thread is closer to the end. -/
theorem Lowers.of_left {N : ℕ} {x : LoopState × Point} (hcalls : s.world.calls ≤ x.1.world.calls)
    (hleft : left env req x < weight env req s.totalIoBytes p) : Lowers env req N s p x := by
  unfold Lowers
  omega

theorem after_lowers {α : Type} {N : ℕ} (hN : ∀ i, N ≤ i → ¬ Interrupts env i)
    (hp : 0 < p.callsLeft) {r : Except Exn α × LoopState} {k : α → LoopState → LoopState × Point}
    (hok : ∀ a s', r = (.ok a, s') → Lowers env req N s p (k a s'))
    (herr : ∀ e s', r = (.error e, s') → Failed env s e s') :
    Lowers env req N s p (after (req.limit env) r k) := by
  refine after_spec (Q := Lowers env req N s p) hok ?_
  intro e s' hr
  have hcaught := @caught_left env req s s' N hN e (herr e s' hr)
  unfold Lowers weight
  omega

theorem calls_log (w : World) (e : Event) : w.calls ≤ (w.log e).calls := by
  rw [World.log_calls]
  omega

/-- **A step of a thread** lowers its budget with that of the interruptions. -/
theorem step_lowers {N : ℕ} (hN : ∀ i, N ≤ i → ¬ Interrupts env i) (req : Request)
    (s : LoopState) (hgoes : ∀ r, p ≠ .ended r) : Lowers env req N s p (step env req s p) := by
  have hstage : ∀ (s' : LoopState) (p' : Point), s'.totalIoBytes = s.totalIoBytes →
      s.world.calls ≤ s'.world.calls → p'.callsLeft < p.callsLeft →
      Lowers env req N s p (s', p') := by
    intro s' p' htotal hcalls hp
    refine Lowers.of_left hcalls ?_
    unfold left weight
    simp only [htotal]
    omega
  have hcounted : ∀ (n : ℕ) (s' : LoopState), s'.totalIoBytes = s.totalIoBytes →
      s.world.calls ≤ s'.world.calls → 1 < p.callsLeft →
      Lowers env req N s p (counted (req.limit env) n s') := by
    intro n s' htotal hcalls hp
    refine Lowers.of_left (by rw [counted_world]; exact hcalls) ?_
    have hleft := counted_left env req n s'
    unfold weight
    omega
  cases p with
  | mmap =>
    unfold step World.mmap
    cases env.sys.mmap s.world.calls with
    | ok u => exact hstage _ _ rfl (calls_log _ _) (by simp [Point.callsLeft])
    | error e => exact hstage _ _ rfl (calls_log _ _) (by simp [Point.callsLeft])
  | first =>
    unfold step firstCall
    cases req.type with
    | read =>
      refine after_lowers hN (by simp [Point.callsLeft]) (fun n s' hs => ?_) fun e s' hs =>
        pread_error hs
      obtain ⟨-, rfl⟩ := pread_ok hs
      split
      · exact hstage _ _ rfl (calls_log _ _) (by simp [Point.callsLeft])
      · exact hcounted _ _ rfl (calls_log _ _) (by simp [Point.callsLeft])
    | write =>
      refine after_lowers hN (by simp [Point.callsLeft]) (fun _ s' hs => ?_) fun e s' hs =>
        hipMemcpyDeviceToHost_error hs
      obtain rfl := hipMemcpyDeviceToHost_ok hs
      exact hstage _ _ rfl (calls_log _ _) (by simp [Point.callsLeft])
  | hostToDevice n =>
    refine after_lowers hN (by simp [Point.callsLeft]) (fun _ s' hs => ?_) fun e s' hs =>
      hipMemcpyHostToDevice_error hs
    obtain rfl := hipMemcpyHostToDevice_ok hs
    exact hcounted _ _ rfl (calls_log _ _) (by simp [Point.callsLeft])
  | streamSynchronize =>
    refine after_lowers hN (by simp [Point.callsLeft]) (fun _ s' hs => ?_) fun e s' hs =>
      hipStreamSynchronize_error hs
    obtain ⟨ev, rfl⟩ := hipStreamSynchronize_ok hs
    exact hstage _ _ rfl (calls_log _ _) (by simp [Point.callsLeft])
  | pwrite =>
    refine after_lowers hN (by simp [Point.callsLeft]) (fun n s' hs => ?_) fun e s' hs =>
      pwrite_error hs
    obtain ⟨-, rfl⟩ := pwrite_ok hs
    exact hstage _ _ rfl (calls_log _ _) (by simp [Point.callsLeft])
  | fdatasync n =>
    refine after_lowers hN (by simp [Point.callsLeft]) (fun _ s' hs => ?_) fun e s' hs =>
      fdatasync_error hs
    obtain ⟨ev, rfl⟩ := fdatasync_ok hs
    exact hcounted _ _ rfl (calls_log _ _) (by simp [Point.callsLeft])
  | count =>
    have htrace : (step env req s .count).1.world.trace = s.world.trace := by
      simp [step, World.statsAddFallbackPath]
    refine hstage _ _ rfl ?_ (by simp [Point.callsLeft])
    unfold World.calls
    exact (congrArg List.length htrace).ge
  | ended r => exact absurd rfl (hgoes r)

/-! ## All threads -/

section

variable {ι : Type} {reqs : ι → Request} {init : Shared}

/-- A move of a thread lowers its budget with that of the interruptions. -/
theorem threads_lowers {N : ℕ} (hN : ∀ i, N ≤ i → ¬ Interrupts env i) (i : ι) (s : Shared)
    (t : Thread) (s' : Shared) (t' : Thread)
    (hst : (threads env reqs init).step i s t = some (s', t')) :
    5 * (N - s'.trace.length) + weight env (reqs i) t'.totalIoBytes t'.point <
      5 * (N - s.trace.length) + weight env (reqs i) t.totalIoBytes t.point := by
  have hgoes : ∀ r, t.point ≠ .ended r := by
    intro r hr
    simp [threads, hr] at hst
  rw [threads_step hgoes] at hst
  obtain ⟨rfl, rfl⟩ := Prod.mk.inj (Option.some.inj hst)
  exact step_lowers hN (reqs i) (t.loopState s (reqs i).inode) hgoes

/-- A thread without a move has ended. -/
theorem ended_of_step_none {i : ι} {s : Shared} {t : Thread}
    (h : (threads env reqs init).step i s t = none) : ∃ r, t.point = .ended r := by
  by_contra hne
  rw [threads_step fun r hr => hne ⟨r, hr⟩] at h
  cases h

/-- A thread has at most so many calls before it. -/
theorem start_weight (env : Env) (req : Request) :
    weight env req (req.start env).totalIoBytes (req.start env).point ≤ 5 * req.limit env + 6 := by
  unfold Request.start weight
  split <;> simp [Point.callsLeft]

variable [DecidableEq ι] [Fintype ι]

/-- **Runs end**: where no call is interrupted from the `N`-th on, a run has at most five steps
for each byte asked for and each call before the `N`-th, and six for each thread, whatever the
order of the calls; and every run can be continued until all threads have ended. -/
theorem concurrent_run_le (env : Env) (reqs : ι → Request) (init : Shared) {N : ℕ}
    (hN : ∀ i, N ≤ i → ¬ Interrupts env i) {ls : List ι} {s : Shared × (ι → Thread)}
    (hrun : (threads env reqs init).machine.run (threads env reqs init).machine.init ls = some s) :
    ls.length ≤ 5 * (N - init.trace.length) + ∑ i, (5 * (reqs i).limit env + 6) ∧
      ∃ ls' s', (threads env reqs init).machine.run s ls' = some s' ∧
        ∀ i, ∃ r, (s'.2 i).point = .ended r := by
  set μ : Shared → ℕ := fun s => 5 * (N - s.trace.length) with hμ
  set ν : ι → Thread → ℕ := fun i t => weight env (reqs i) t.totalIoBytes t.point with hν
  have hlowers : Parties.Lowers (threads env reqs init) (fun _ _ _ => True) μ ν :=
    .of_step fun {i s t s' t'} h => threads_lowers hN i s t s' t' h
  refine ⟨?_, ?_⟩
  · have hlen := hlowers.run_le (fun _ => trivial) hrun
    have hstart : Parties.budget μ ν (threads env reqs init).machine.init ≤
        5 * (N - init.trace.length) + ∑ i, (5 * (reqs i).limit env + 6) :=
      Nat.add_le_add_left (Finset.sum_le_sum fun i _ => start_weight env (reqs i)) _
    omega
  · obtain ⟨ls', s', hrun', hend⟩ := hlowers.exists_end _ s (fun _ => trivial) (Nat.le_refl _)
    exact ⟨ls', s', hrun', fun i => ended_of_step_none (Option.map_eq_none_iff.1 (hend i))⟩

end

/-- Calls of the example are interrupted before the fifth only. -/
theorem not_interrupts_shortCounts (i : ℕ) (hi : 5 ≤ i) : ¬ Interrupts shortCountsEnv i := by
  rintro (⟨count, offset, h⟩ | ⟨count, offset, h⟩ | h)
  · have h : (if i = 1 then .error EINTR else .ok (min (min 3 count) (10 - offset.toNat)) :
        Except Errno ℕ) = .error EINTR := h
    rw [if_neg (by omega)] at h
    cases h
  · cases h
  · have h : (if i = 4 then .error EINTR else .ok () : Except Errno Unit) = .error EINTR := h
    rw [if_neg (by omega)] at h
    cases h

/-- The run of the example has 17 of at most 77 steps. -/
theorem concurrent_run_le_sample : twoSchedule.length ≤ 5 * (5 - 0) +
      ∑ i, (5 * (twoRequests i).limit shortCountsEnv + 6) ∧
    ∃ ls' s', (threads shortCountsEnv twoRequests tenBytesShared).machine.run twoEnd ls' = some s' ∧
      ∀ i, ∃ r, (s'.2 i).point = .ended r :=
  concurrent_run_le shortCountsEnv twoRequests tenBytesShared not_interrupts_shortCounts twoEnd_run

/-! ## The order of the calls -/

section

variable {ι : Type} [DecidableEq ι] {reqs : ι → Request} {init : Shared}
  {x y : Shared × (ι → Thread)}

/-- All requests have ended with their bytes: the writes with all that they were asked for. -/
def Finished (env : Env) (reqs : ι → Request) (x : Shared × (ι → Thread)) : Prop :=
  ∀ i, ∃ n, (x.2 i).point = .ended (.ok n) ∧ ((reqs i).type = .write → n = (reqs i).limit env)

/-- What a state is in which all requests have ended. -/
structure Settled (env : Env) (reqs : ι → Request) (init : Shared)
    (x : Shared × (ι → Thread)) : Prop where
  served : ∀ i, ∃ n, (x.2 i).point = .ended (.ok n) ∧ AsIfAlone env (reqs i) init x.1 n ∧
    ((reqs i).type = .write → n = (reqs i).limit env)
  untouched : Untouched env reqs init x.1

theorem Finished.settled (h : Finished env reqs x) (hchunk : ∀ i, 0 < (reqs i).chunkSize)
    (hapart : ∀ i j, i ≠ j → Apart env init (reqs i) (reqs j)) (hx : Reached env reqs init x) :
    Settled env reqs init x := by
  refine ⟨fun i => ?_, threads_untouched hapart hx⟩
  obtain ⟨n, hended, hall⟩ := h i
  exact ⟨n, hended, threads_asIfAlone hapart hx (hchunk i) hended, hall⟩

omit [DecidableEq ι]

/-- The byte counts are those of the requests. -/
theorem Settled.point_eq (hx : Settled env reqs init x) (hy : Settled env reqs init y) (i : ι) :
    (y.2 i).point = (x.2 i).point := by
  obtain ⟨n, hn, halone, hall⟩ := hx.served i
  obtain ⟨m, hm, halone', hall'⟩ := hy.served i
  have heq : m = n := by
    unfold AsIfAlone at halone halone'
    cases htype : (reqs i).type with
    | read =>
      simp only [htype] at halone halone'
      rw [halone.1, halone'.1]
    | write => rw [hall htype, hall' htype]
  rw [hn, hm, heq]

/-- A byte of the device memory is what a read has left there, or as before. -/
theorem Settled.dev_eq (hx : Settled env reqs init x) (hy : Settled env reqs init y) :
    y.1.dev = x.1.dev := by
  funext a
  by_cases hcovered : ∃ i, (reqs i).type = .read ∧ ((reqs i).deviceSpan env).Covers a
  · obtain ⟨i, htype, hle, hlt⟩ := hcovered
    have hle : regionStart (reqs i).buffer (reqs i).bufferOffset ≤ a := hle
    have hlt : a < regionStart (reqs i).buffer (reqs i).bufferOffset + (reqs i).limit env := hlt
    obtain ⟨k, rfl⟩ := Nat.exists_eq_add_of_le hle
    obtain ⟨n, -, halone, -⟩ := hx.served i
    obtain ⟨m, -, halone', -⟩ := hy.served i
    unfold AsIfAlone at halone halone'
    simp only [htype] at halone halone'
    obtain ⟨hn, hmoved, hrest⟩ := halone
    obtain ⟨hm, hmoved', hrest'⟩ := halone'
    obtain rfl : m = n := hm.trans hn.symm
    by_cases hk : k < m
    · rw [hmoved k hk, hmoved' k hk]
    · rw [hrest k (by omega) (by omega), hrest' k (by omega) (by omega)]
  · have hout : ∀ i, ¬ ((reqs i).type = .read ∧ ((reqs i).deviceSpan env).Covers a) :=
      fun i hi => hcovered ⟨i, hi⟩
    rw [hx.untouched.dev a hout, hy.untouched.dev a hout]

/-- A byte of a file is what a write has left there, or as before. -/
theorem Settled.data_eq (hx : Settled env reqs init x) (hy : Settled env reqs init y) (k : ℕ) :
    (y.1.files k).data = (x.1.files k).data := by
  funext a
  by_cases hcovered : ∃ i, (reqs i).inode = k ∧ (reqs i).type = .write ∧
      ((reqs i).fileSpan env).Covers a
  · obtain ⟨i, rfl, htype, hle, hlt⟩ := hcovered
    have hle : (reqs i).fileOffset.val.toNat ≤ a := hle
    have hlt : a < (reqs i).fileOffset.val.toNat + (reqs i).limit env := hlt
    obtain ⟨k, rfl⟩ := Nat.exists_eq_add_of_le hle
    obtain ⟨n, -, halone, hall⟩ := hx.served i
    obtain ⟨m, -, halone', hall'⟩ := hy.served i
    obtain rfl := hall htype
    obtain rfl := hall' htype
    unfold AsIfAlone at halone halone'
    simp only [htype] at halone halone'
    rw [halone.2.1 k (by omega), halone'.2.1 k (by omega)]
  · have hout : ∀ i, ¬ ((reqs i).inode = k ∧ (reqs i).type = .write ∧
        ((reqs i).fileSpan env).Covers a) := fun i hi => hcovered ⟨i, hi⟩
    rw [hx.untouched.data k a hout, hy.untouched.data k a hout]

/-- A file ends where a write ended, or as before. -/
theorem Settled.eof_le (hx : Settled env reqs init x) (hy : Settled env reqs init y) (k : ℕ) :
    (x.1.files k).eof ≤ (y.1.files k).eof := by
  rcases hx.untouched.eof k with heof | ⟨i, rfl, ⟨htype, hpos⟩, hle⟩
  · rw [heof]
    exact hy.untouched.eof_le k
  · obtain ⟨m, -, halone, hall⟩ := hy.served i
    obtain rfl := hall htype
    unfold AsIfAlone at halone
    simp only [htype] at halone
    have hend := halone.2.2.1
    omega

/-- The settings and the outcomes of the calls do not matter to what a state is, but for the
limit of a request. -/
theorem Settled.congr {env' : Env} (h : Settled env' reqs init x)
    (hlimit : ∀ req : Request, req.limit env' = req.limit env) : Settled env reqs init x := by
  obtain ⟨hserved, hdev, hdata, heof_le, heof⟩ := h
  unfold Request.deviceSpan at hdev
  unfold Request.fileSpan at hdata
  simp only [AsIfAlone, hlimit] at hserved hdev hdata heof
  exact ⟨hserved, hdev, hdata, heof_le, heof⟩

theorem Apart.congr {env' : Env} {a b : Request} (h : Apart env init a b)
    (hlimit : ∀ req : Request, req.limit env = req.limit env') : Apart env' init a b := by
  obtain ⟨hdevice, hfile, heof⟩ := h
  unfold Request.deviceSpan at hdevice
  unfold Request.fileSpan at hfile
  simp only [hlimit] at hdevice hfile heof
  exact ⟨hdevice, hfile, heof⟩

/-- **The order of the calls does not show**: in any two runs in which all requests end with
their bytes, whatever the order of the calls and however they were cut short and interrupted,
each request ends with the same count, and the files and the device memory are the same. -/
theorem concurrent_confluent [DecidableEq ι] (env env' : Env) (hpage : env'.pageSize = env.pageSize)
    (reqs : ι → Request) (init : Shared) (hchunk : ∀ i, 0 < (reqs i).chunkSize)
    (hapart : ∀ i j, i ≠ j → Apart env init (reqs i) (reqs j))
    (hx : Reached env reqs init x) (hfinx : Finished env reqs x)
    (hy : Reached env' reqs init y) (hfiny : Finished env' reqs y) :
    (∀ i, (y.2 i).point = (x.2 i).point) ∧ y.1.dev = x.1.dev ∧ y.1.files = x.1.files := by
  have hlimit : ∀ req : Request, req.limit env' = req.limit env := by
    intro req
    unfold Request.limit Env.maxRwCount
    rw [hpage]
  have hsx : Settled env reqs init x := hfinx.settled hchunk hapart hx
  have hsy : Settled env reqs init y := by
    refine (hfiny.settled hchunk (fun i j hij => ?_) hy).congr hlimit
    exact (hapart i j hij).congr fun req => (hlimit req).symm
  refine ⟨hsx.point_eq hsy, hsx.dev_eq hsy, ?_⟩
  funext k
  exact FileData.ext_of (hsx.data_eq hsy k) (Nat.le_antisymm (hsy.eof_le hsx k) (hsx.eof_le hsy k))

end

/-- The environment of the example, without short counts and interruptions, on a disk that has
room for 100 bytes. -/
def wholeCountsEnv : Env where
  pageSize := 4096
  config := ⟨true, true, 1, false⟩
  sys :=
    { mmap := fun _ => .ok ()
      pread := fun _ count offset => .ok (min count (10 - offset.toNat))
      pwrite := fun _ count offset => .ok (min count (100 - offset.toNat))
      fdatasync := fun _ => .ok ()
      pread_le := by simp_all
      pwrite_le := by simp_all }
  hip := shortCountsEnv.hip

/-- One request after the other. -/
def wholeSchedule : List Bool :=
  [true, true, true, true, true, true, false, false, false, false]

def wholeEnd : Shared × (Bool → Thread) :=
  let machine := (threads wholeCountsEnv twoRequests tenBytesShared).machine
  (machine.run machine.init wholeSchedule).getD machine.init

theorem wholeEnd_reached : Reached wholeCountsEnv twoRequests tenBytesShared wholeEnd := by
  have hrun : ((threads wholeCountsEnv twoRequests tenBytesShared).machine.run
      (threads wholeCountsEnv twoRequests tenBytesShared).machine.init wholeSchedule).isSome =
      true := by decide +kernel
  obtain ⟨s, hs⟩ := Option.isSome_iff_exists.1 hrun
  have hend : wholeEnd = s := by
    unfold wholeEnd
    simp only [hs, Option.getD_some]
  rw [hend]
  exact Machine.reaches_run .init (by decide +kernel) hs

/-- The example, call by call with short counts, and one request after the other without. -/
theorem concurrent_confluent_sample : (∀ i, (wholeEnd.2 i).point = (twoEnd.2 i).point) ∧
    wholeEnd.1.dev = twoEnd.1.dev ∧ wholeEnd.1.files = twoEnd.1.files := by
  refine concurrent_confluent shortCountsEnv wholeCountsEnv rfl twoRequests tenBytesShared
    (by decide) twoRequests_apart twoEnd_reached ?_ wholeEnd_reached ?_
  · intro i
    exact ⟨4, by revert i; decide +kernel, fun _ => by revert i; decide +kernel⟩
  · intro i
    exact ⟨4, by revert i; decide +kernel, fun _ => by revert i; decide +kernel⟩

end HipFile.Fallback
