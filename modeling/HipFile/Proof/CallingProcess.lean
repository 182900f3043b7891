import HipFile.Proof.Cleanup
import HipFile.Proof.FallbackRead

/-!
# Cleanup failures and the process

* `Fallback.cleaningIoImpl_eq`, `IoRequest.serve_cleaning`: a request that is served with a
  bounce buffer does what it would if `munmap` succeeded, or terminates the process.
* `CallingProcess.Inv`: the descriptors are reachable, and the calls accounted for.
* `CallingProcess.lives_iff`: a step leaves a process exactly if the releases succeed that it
  comes to.
* `CallingProcess.returnsNormally_iff`: so in every run.
-/

namespace HipFile

variable {calls : ReleaseCalls}

/-! ## The bounce buffer -/

namespace Fallback

/-- What the release of the bounce buffer ends with, if there is one. -/
def unmaps (calls : ReleaseCalls) (env : Env) (buffer : IBuffer) (size : ℕ)
    (fileOffset bufferOffset : ℤ) (w : World) : Except Exn Unit :=
  if MapsBounceBuffer env buffer size fileOffset bufferOffset w then throwOn calls.munmap
  else .ok ()

theorem unmaps_eq_ok {env : Env} {buffer : IBuffer} {size : ℕ} {fileOffset bufferOffset : ℤ}
    {w : World} : unmaps calls env buffer size fileOffset bufferOffset w = .ok () ↔
      (MapsBounceBuffer env buffer size fileOffset bufferOffset w → calls.munmap = .ok ()) := by
  unfold unmaps
  by_cases hmaps : MapsBounceBuffer env buffer size fileOffset bufferOffset w
  · rw [if_pos hmaps, throwOn_eq_ok]
    exact ⟨fun h _ => h, fun h => h hmaps⟩
  · rw [if_neg hmaps]
    exact iff_of_true rfl fun h => absurd h hmaps

/-- **`_io_impl` with the deleter** ends as `_io_impl` does, if `munmap` lets it. -/
theorem cleaningIoImpl_eq (env : Env) (rounds : ℕ) (type : IoType) (file : IFile)
    (buffer : IBuffer) (size : ℕ) (fileOffset bufferOffset : ℤ) (chunkSize : ℕ) (w : World) :
    cleaningIoImpl env calls rounds type file buffer size fileOffset bufferOffset chunkSize w =
      let out := unmaps calls env buffer size fileOffset bufferOffset w
      match ioImpl env rounds type file buffer size fileOffset bufferOffset chunkSize w with
      | .inl s => .inl s
      | .inr (r, w') => .inr (out.bind fun _ => r, out.map fun _ => w') := by
  cases haccept : accept env buffer size fileOffset bufferOffset with
  | error e =>
    have hout : unmaps calls env buffer size fileOffset bufferOffset w = .ok () := by
      refine if_neg fun h => ?_
      rw [MapsBounceBuffer, haccept] at h
      cases h.1
    simp only [hout, cleaningIoImpl, ioImpl, haccept]
    rfl
  | ok region =>
    rcases hmmap : w.mmap env.sys with ⟨e | _, w₁⟩
    · have hout : unmaps calls env buffer size fileOffset bufferOffset w = .ok () := by
        refine if_neg fun h => ?_
        rw [MapsBounceBuffer, hmmap] at h
        cases h.2
      simp only [hout, cleaningIoImpl, ioImpl, haccept, hmmap]
      rfl
    · have hout : unmaps calls env buffer size fileOffset bufferOffset w =
          throwOn calls.munmap := by
        refine if_pos ?_
        rw [MapsBounceBuffer, haccept, hmmap]
        exact ⟨rfl, rfl⟩
      have hrelease (w : World) : Sys.munmap calls w = (throwOn calls.munmap, w) := rfl
      simp only [hout, cleaningIoImpl, ioImpl, haccept, hmmap]
      rcases Loop.iter (round env file type buffer region.size fileOffset bufferOffset chunkSize)
        rounds ⟨w₁, fun _ => 0, 0⟩ with s | ⟨e | total, w₂⟩
      · rfl
      · simp only [Prog.leaveScope_eq (hrelease _)]
      · simp only [Prog.leaveScope_eq (hrelease _)]

end Fallback

/-- How a request ends whose last release ends with `out`. A request that is still running has
not come to it. -/
def Served.cleaned (out : Except Exn Unit) (r : Except Exn ℕ × Served) :
    Except Exn ℕ × Mortal Exn Served :=
  if r.2.running = true then (r.1, .ok r.2) else (out.bind fun _ => r.1, out.map fun _ => r.2)

theorem Served.cleaned_ok (r : Except Exn ℕ × Served) :
    Served.cleaned (.ok ()) r = (r.1, .ok r.2) := by
  unfold Served.cleaned
  split <;> rfl

/-- The fallback with the deleter. -/
theorem Fallback.cleaningBackend_io (env : Env) (rounds : ℕ) (type : IoType) (file : IFile)
    (buffer : IBuffer) (size : ℕ) (fileOffset bufferOffset : ℤ) {v : Served}
    (hv : v.running = false) :
    (cleaningBackend env calls rounds).io type file buffer size fileOffset bufferOffset (.ok v) =
      Served.cleaned (unmaps calls env buffer size fileOffset bufferOffset v.world)
        ((backend env rounds).io type file buffer size fileOffset bufferOffset v) := by
  simp only [cleaningBackend, backend, cleaningIoImpl_eq, ioImplDefault]
  rcases ioImpl env rounds type file buffer size fileOffset bufferOffset DefaultChunkSize v.world
    with s | ⟨e | n, w⟩
  · rfl
  · have hrunning : (v.after w).running = false := hv
    cases unmaps calls env buffer size fileOffset bufferOffset v.world <;>
      simp [Served.cleaned, hrunning, Except.bind, Except.map]
  · have hrunning : (v.after w).running = false := hv
    cases unmaps calls env buffer size fileOffset bufferOffset v.world <;>
      simp [Served.cleaned, hrunning, Except.bind, Except.map]

/-- The fast path, whose fallback has the deleter. -/
theorem Fastpath.cleaningBackend_io (env : Env) (rounds : ℕ) (type : IoType) (file : IFile)
    (buffer : IBuffer) (size : ℕ) (fileOffset bufferOffset : ℤ) {v : Served}
    (hv : v.running = false) :
    let ran := ioImpl env type file buffer size fileOffset bufferOffset v.world
    let eligible := fun e =>
      isFallbackEligible e = true ∧ 0 ≤ Fallback.score env buffer
    let out := match ran.1 >>= throwNegative with
      | .ok _ => .ok ()
      | .error e => if eligible e
        then Fallback.unmaps calls env buffer size fileOffset bufferOffset ran.2 else .ok ()
    (cleaningBackend env (Fallback.cleaningBackend env calls rounds)).io type file buffer size
      fileOffset bufferOffset (.ok v) = Served.cleaned out
        ((backend env (Fallback.backend env rounds)).io type file buffer size fileOffset
          bufferOffset v) := by
  intro ran eligible out
  -- what `_io_impl` leaves of the request
  obtain ⟨v', hserve, hworld, hrunning⟩ : ∃ v', serve env type file buffer size fileOffset
      bufferOffset v = (ran.1, v') ∧ v'.world = ran.2 ∧ v'.running = false := by
    unfold serve
    simp only [ran]
    rcases ioImpl env type file buffer size fileOffset bufferOffset v.world with ⟨e | n, w⟩
    · exact ⟨_, rfl, rfl, hv⟩
    · exact ⟨_, rfl, rfl, hv⟩
  have hleft : (cleaningBackend env (Fallback.cleaningBackend env calls rounds)).ioImpl type file
      buffer size fileOffset bufferOffset (.ok v) = (ran.1, .ok v') := by
    simp only [cleaningBackend, Prog.living_ok, hserve]
  have hcleaning : (cleaningBackend env (Fallback.cleaningBackend env calls rounds)).io type file
      buffer size fileOffset bufferOffset (.ok v) = match ran.1 >>= throwNegative with
        | .ok n => (.ok n, .ok v')
        | .error e => if isFallbackEligible e = true ∧ 0 ≤ Fallback.score env buffer
          then (Fallback.cleaningBackend env calls rounds).io type file buffer size fileOffset
            bufferOffset (.ok v')
          else (.error e, .ok v') := by
    simp only [BackendWithFallback.io, hleft]
    rfl
  have hplain : (backend env (Fallback.backend env rounds)).io type file buffer size fileOffset
      bufferOffset v = match ran.1 >>= throwNegative with
        | .ok n => (.ok n, v')
        | .error e => if isFallbackEligible e = true ∧ 0 ≤ Fallback.score env buffer
          then (Fallback.backend env rounds).io type file buffer size fileOffset bufferOffset v'
          else (.error e, v') := by
    simp only [backend, hserve]
    rfl
  rw [hcleaning, hplain]
  simp only [out, eligible]
  cases ran.1 >>= throwNegative with
  | ok n => exact (Served.cleaned_ok (.ok n, v')).symm
  | error e =>
    by_cases helig : isFallbackEligible e = true ∧ 0 ≤ Fallback.score env buffer
    · simp only [if_pos helig]
      rw [Fallback.cleaningBackend_io _ _ _ _ _ _ _ _ hrunning, hworld]
    · simp only [if_neg helig]
      exact (Served.cleaned_ok (.error e, v')).symm

/-- Which of two backends is selected, whose scores are those of the fallback and the fast
path. -/
theorem selectBackend_pair {ω : Type} (fallback fastpath : Backend ω) (file : IFile)
    (buffer : IBuffer) (size : ℕ) (fileOffset bufferOffset : ℤ)
    (hfallback : fallback.score file buffer size fileOffset bufferOffset ≤ 0)
    (hfastpath : 0 ≤ fastpath.score file buffer size fileOffset bufferOffset →
      0 < fastpath.score file buffer size fileOffset bufferOffset) :
    selectBackend [fallback, fastpath] file buffer size fileOffset bufferOffset =
      if 0 ≤ fastpath.score file buffer size fileOffset bufferOffset then some fastpath
      else if 0 ≤ fallback.score file buffer size fileOffset bufferOffset then some fallback
      else none := by
  set a := fallback.score file buffer size fileOffset bufferOffset with ha
  set b := fastpath.score file buffer size fileOffset bufferOffset with hb
  simp only [selectBackend, List.foldl_cons, List.foldl_nil, Selection.consider, ← ha, ← hb]
  have hfirst : (-1 : ℤ) < a ↔ 0 ≤ a := by omega
  have hsecond : (-1 : ℤ) < b ↔ 0 ≤ b := by omega
  by_cases hpos : 0 ≤ a
  · have hgreater : a < b ↔ 0 ≤ b := by omega
    simp only [hfirst, if_pos hpos, hgreater]
    split <;> rfl
  · simp only [hfirst, if_neg hpos, hsecond]
    split <;> rfl

namespace IoRequest

/-- What the release of the bounce buffer of a request ends with, if there is one. -/
def unmaps (calls : ReleaseCalls) (r : IoRequest) (env : Env) (w : World) : Except Exn Unit :=
  match r.fallbackWorld env w with
  | some w' =>
    Fallback.unmaps calls env r.buffer.object r.size r.fileOffset r.bufferOffset w'
  | none => .ok ()

theorem unmaps_eq_ok (r : IoRequest) (env : Env) (w : World) : r.unmaps calls env w = .ok () ↔
    ∀ w' ∈ r.fallbackWorld env w, Fallback.MapsBounceBuffer env r.buffer.object r.size
      r.fileOffset r.bufferOffset w' → calls.munmap = .ok () := by
  unfold unmaps
  cases r.fallbackWorld env w with
  | none => exact iff_of_true rfl nofun
  | some w' =>
    rw [Fallback.unmaps_eq_ok]
    constructor
    · rintro hmaps _ ⟨⟩
      exact hmaps
    · intro hmaps
      exact hmaps w' rfl

/-- **A request with the deleter** ends as it does, if `munmap` lets it. -/
theorem serve_cleaning (r : IoRequest) (env : Env) (rounds : ℕ) {v : Served}
    (hv : v.running = false) :
    r.serve (cleaningBackends env calls rounds) (.ok v) =
      Served.cleaned (r.unmaps calls env v.world) (r.serve (getBackends env rounds) v) := by
  have hfallback : Fallback.score env r.buffer.object ≤ 0 := by
    unfold Fallback.score
    split <;> omega
  have hfastpath : 0 ≤ Fastpath.score env r.file r.buffer.object r.size r.fileOffset
      r.bufferOffset → 0 < Fastpath.score env r.file r.buffer.object r.size r.fileOffset
        r.bufferOffset := by
    unfold Fastpath.score
    split <;> omega
  set fast := Fastpath.score env r.file r.buffer.object r.size r.fileOffset r.bufferOffset
  have hcleaning : selectBackend (cleaningBackends env calls rounds) r.file r.buffer.object r.size
      r.fileOffset r.bufferOffset =
        if 0 ≤ fast then some
          (Fastpath.cleaningBackend env (Fallback.cleaningBackend env calls rounds)).toBackend
        else if 0 ≤ Fallback.score env r.buffer.object then
          some (Fallback.cleaningBackend env calls rounds)
        else none := selectBackend_pair _ _ _ _ _ _ _ hfallback hfastpath
  have hplain : selectBackend (getBackends env rounds) r.file r.buffer.object r.size
      r.fileOffset r.bufferOffset =
        if 0 ≤ fast then some (Fastpath.backend env (Fallback.backend env rounds))
        else if 0 ≤ Fallback.score env r.buffer.object then some (Fallback.backend env rounds)
        else none := selectBackend_pair _ _ _ _ _ _ _ hfallback hfastpath
  unfold serve
  rw [hcleaning, hplain]
  by_cases hfast : 0 ≤ fast
  · have hunmaps : r.unmaps calls env v.world =
        match (Fastpath.ioImpl env r.type r.file r.buffer.object r.size r.fileOffset
          r.bufferOffset v.world).1 >>= throwNegative with
        | .ok _ => .ok ()
        | .error e =>
          if Fastpath.isFallbackEligible e = true ∧ 0 ≤ Fallback.score env r.buffer.object then
            Fallback.unmaps calls env r.buffer.object r.size r.fileOffset r.bufferOffset
              (Fastpath.ioImpl env r.type r.file r.buffer.object r.size r.fileOffset
                r.bufferOffset v.world).2
          else .ok () := by
      unfold unmaps fallbackWorld
      rw [if_pos hfast]
      simp only
      cases (Fastpath.ioImpl env r.type r.file r.buffer.object r.size r.fileOffset r.bufferOffset
        v.world).1 >>= throwNegative with
      | ok n => rfl
      | error e =>
        by_cases helig : Fastpath.isFallbackEligible e = true ∧
            0 ≤ Fallback.score env r.buffer.object
        · simp only [if_pos helig]
        · simp only [if_neg helig]
    simp only [if_pos hfast, hunmaps]
    exact Fastpath.cleaningBackend_io env rounds r.type r.file r.buffer.object r.size r.fileOffset
      r.bufferOffset hv
  · rw [if_neg hfast, if_neg hfast]
    by_cases hslow : 0 ≤ Fallback.score env r.buffer.object
    · have hworld : r.fallbackWorld env v.world = some v.world := by
        rw [fallbackWorld, if_neg hfast, if_pos hslow]
      simp only [if_pos hslow, unmaps, hworld]
      exact Fallback.cleaningBackend_io env rounds r.type r.file r.buffer.object r.size
        r.fileOffset r.bufferOffset hv
    · have hworld : r.fallbackWorld env v.world = none := by
        rw [fallbackWorld, if_neg hfast, if_neg hslow]
      simp only [if_neg hslow, unmaps, hworld]
      exact (Served.cleaned_ok (.error (noBackend (getBackends env rounds)), v)).symm

end IoRequest

/-! ## The calls -/

namespace CallingProcess

variable {p : CallingProcess} {s s' : Mortal Exn CallingProcess}

/-- Each call that has been made has returned, or is being made. -/
def Accounted (p : CallingProcess) : Prop :=
  ∀ t, p.called.count t = (p.returned.map Prod.fst).count t + (p.point t).calls

/-- A thread goes on in its call. -/
theorem Accounted.goto (h : Accounted p) {t : ℕ} {point : CallPoint}
    (hpoint : (p.point t).calls = point.calls) : Accounted (p.goto t point) := by
  intro t'
  have ht' := h t'
  simp only [CallingProcess.goto]
  by_cases ht : t' = t
  · subst ht
    rw [Function.update_self, ht', hpoint]
  · rw [Function.update_of_ne ht, ht']

/-- A call returns. -/
theorem Accounted.leave (h : Accounted p) {t : ℕ} (hpoint : (p.point t).calls = 1)
    (r : CallReturn) : Accounted (p.leave t r) := by
  intro t'
  have ht' := h t'
  simp only [CallingProcess.leave, CallingProcess.goto, List.map_append, List.map_cons,
    List.map_nil, List.count_append, List.count_singleton]
  by_cases ht : t' = t
  · subst ht
    rw [Function.update_self, ht', hpoint, beq_self_eq_true, if_pos rfl]
    rfl
  · have hne : ¬ (t == t') = true := fun heq => ht (beq_iff_eq.1 heq).symm
    rw [Function.update_of_ne ht, ht', if_neg hne, Nat.add_zero]

/-- A call is made. -/
theorem Accounted.enter_goto (h : Accounted p) {t : ℕ} {point : CallPoint}
    (hclient : (p.point t).calls = 0) (hpoint : point.calls = 1) :
    Accounted ((p.enter t).goto t point) := by
  intro t'
  have ht' := h t'
  simp only [CallingProcess.enter, CallingProcess.goto, List.count_append, List.count_singleton]
  by_cases ht : t' = t
  · subst ht
    rw [Function.update_self, ht', hpoint, hclient, beq_self_eq_true, if_pos rfl, Nat.add_zero]
  · have hne : ¬ (t == t') = true := fun heq => ht (beq_iff_eq.1 heq).symm
    rw [Function.update_of_ne ht, ht', if_neg hne, Nat.add_zero]

/-- A call returns in the step in which it is made. -/
theorem Accounted.enter_leave (h : Accounted p) {t : ℕ} (hclient : (p.point t).calls = 0)
    (r : CallReturn) : Accounted ((p.enter t).leave t r) := by
  have hmade : Accounted ((p.enter t).goto t .closing) := h.enter_goto hclient rfl
  have hpoint : (((p.enter t).goto t .closing).point t).calls = 1 := by
    simp only [CallingProcess.goto, Function.update_self]
    rfl
  have heq : ((p.enter t).goto t .closing).leave t r = (p.enter t).leave t r := by
    simp only [CallingProcess.leave, CallingProcess.goto, Function.update_idem]
  exact heq ▸ hmade.leave hpoint r

/-- The move keeps the account, and changes the descriptors only by its step. -/
def Move.Keeps (p : CallingProcess) : Move → Prop
  | .quiet q => Accounted q ∧ q.descriptors = p.descriptors
  | .descriptors _ next => ∀ d, Accounted (next { p with descriptors := d }) ∧
    (next { p with descriptors := d }).descriptors = d
  | .serve _ _ _ _ next => ∀ result, Accounted (next result) ∧
    (next result).descriptors = p.descriptors

theorem move_keeps (h : Accounted p) {l : Step} {m : Move} (hm : p.move l = some m) :
    m.Keeps p := by
  have hd : ∀ d, Accounted { p with descriptors := d } := fun _ => h
  cases l with
  | handleRegister t file fhNull descr =>
    simp only [move] at hm
    split at hm
    · rename_i hpoint
      have hclient : (p.point t).calls = 0 := by rw [hpoint]; rfl
      split at hm
      · cases hm
        exact ⟨h.enter_leave hclient _, rfl⟩
      · cases hm
        exact ⟨h.enter_leave hclient _, rfl⟩
      · split at hm
        · cases hm
          intro d
          simp only
          split
          · exact ⟨(hd d).enter_leave hclient _, rfl⟩
          · exact ⟨(hd d).enter_goto hclient rfl, rfl⟩
        · cases hm
          exact ⟨h.enter_leave hclient _, rfl⟩
    · cases hm
  | registerFile t handle =>
    simp only [move] at hm
    split at hm
    · rename_i hpoint _
      have hcalls : (p.point t).calls = 1 := by rw [hpoint]; rfl
      cases hm
      exact fun d => ⟨(hd d).goto hcalls, rfl⟩
    · cases hm
  | endRegister t =>
    simp only [move] at hm
    split at hm
    · rename_i hpoint
      have hcalls : (p.point t).calls = 1 := by rw [hpoint]; rfl
      cases hm
      exact fun d => ⟨(hd d).leave hcalls _, rfl⟩
    · cases hm
  | handleDeregister t fh =>
    simp only [move] at hm
    split at hm
    · rename_i hpoint
      have hclient : (p.point t).calls = 0 := by rw [hpoint]; rfl
      split at hm
      · cases hm
        exact ⟨h.enter_leave hclient _, rfl⟩
      · cases hm
        exact fun d => ⟨(hd d).enter_leave hclient _, rfl⟩
    · cases hm
  | closeTest t =>
    simp only [move] at hm
    split at hm
    · rename_i hpoint
      have hclient : (p.point t).calls = 0 := by rw [hpoint]; rfl
      split at hm
      · cases hm
        exact ⟨h.enter_goto hclient rfl, rfl⟩
      · cases hm
        exact ⟨h.enter_leave hclient _, rfl⟩
    · cases hm
  | closeDecr t =>
    simp only [move] at hm
    split at hm
    · rename_i hpoint
      have hcalls : (p.point t).calls = 1 := by rw [hpoint]; rfl
      cases hm
      exact fun d => ⟨(hd d).leave hcalls _, rfl⟩
    · cases hm
  | io t type hip fh bufferBase address size fileOffset bufferOffset =>
    simp only [move] at hm
    split at hm
    · rename_i hpoint
      have hclient : (p.point t).calls = 0 := by rw [hpoint]; rfl
      cases hm
      intro d
      simp only
      split
      · exact ⟨(hd d).enter_leave hclient _, rfl⟩
      · exact ⟨(hd d).enter_goto hclient rfl, rfl⟩
    · cases hm
  | serve t env rounds w =>
    simp only [move] at hm
    split at hm
    · rename_i hpoint
      have hcalls : (p.point t).calls = 1 := by rw [hpoint]; rfl
      cases hm
      exact fun result => ⟨h.goto hcalls, rfl⟩
    · cases hm
  | dropBuffer t =>
    simp only [move] at hm
    split at hm
    · rename_i hpoint
      have hcalls : (p.point t).calls = 1 := by rw [hpoint]; rfl
      cases hm
      exact fun d => ⟨(hd d).goto hcalls, rfl⟩
    · cases hm
  | dropFile t =>
    simp only [move] at hm
    split at hm
    · rename_i hpoint
      have hcalls : (p.point t).calls = 1 := by rw [hpoint]; rfl
      cases hm
      exact fun d => ⟨(hd d).leave hcalls _, rfl⟩
    · cases hm
  | other l =>
    obtain ⟨-, hm⟩ := Option.ite_none_right_eq_some.1 hm
    cases hm
    exact fun d => ⟨hd d, rfl⟩
  | clientOpen fd flags =>
    cases hm
    exact fun d => ⟨hd d, rfl⟩
  | clientClose fd =>
    cases hm
    exact fun d => ⟨hd d, rfl⟩

/-! ## Steps -/

/-- The descriptors of a process that lives are reachable, and its calls accounted for. -/
def Inv (s : Mortal Exn CallingProcess) : Prop :=
  ∀ p, s = .ok p → Descriptors.machine.Reachable p.descriptors ∧ Accounted p

theorem Inv.init : Inv machine.init := by
  rintro _ ⟨⟩
  exact ⟨.init, fun _ => rfl⟩

/-- **What is left of the process by a move**: it lives exactly if the releases succeed that the
move comes to. -/
theorem Move.run_lives (hd : Descriptors.machine.Reachable p.descriptors) {m : Move}
    (h : m.run p calls = some s) : s.Lives ↔ m.ReleasesSucceed p calls := by
  cases m with
  | quiet q =>
    obtain rfl := Option.some.inj h
    exact iff_of_true (Mortal.lives_ok q) trivial
  | descriptors l next =>
    simp only [Move.run, Descriptors.cleaningStep_eq] at h
    obtain ⟨s₁, hs₁, rfl⟩ := Option.map_eq_some_iff.1 h
    obtain ⟨d', hstep, rfl⟩ := Option.map_eq_some_iff.1 hs₁
    have hcloses : (Move.descriptors l next).ReleasesSucceed p calls ↔
        p.descriptors.closes calls l d' = .ok () := (Descriptors.closes_eq_ok hd hstep).symm
    rw [hcloses]
    cases p.descriptors.closes calls l d' with
    | error e => exact iff_of_false (Mortal.not_lives_error e) nofun
    | ok _ => exact iff_of_true (Mortal.lives_ok _) rfl
  | serve r env rounds w next =>
    have hunmaps : (Move.serve r env rounds w next).ReleasesSucceed p calls ↔
        r.unmaps calls env w = .ok () := (r.unmaps_eq_ok env w).symm
    rw [hunmaps]
    have hserve : r.serve (cleaningBackends env calls rounds) (.ok (unserved w)) =
        Served.cleaned (r.unmaps calls env w) (r.serve (getBackends env rounds) (unserved w)) :=
      r.serve_cleaning env rounds rfl
    simp only [Move.run, hserve, Served.cleaned] at h
    by_cases hrunning : (r.serve (getBackends env rounds) (unserved w)).2.running = true
    · -- the request has not been served
      simp [hrunning] at h
    · simp only [if_neg hrunning] at h
      cases hout : r.unmaps calls env w with
      | error e =>
        simp only [hout, Except.map] at h
        obtain rfl := Option.some.inj h
        exact iff_of_false (Mortal.not_lives_error e) nofun
      | ok _ =>
        simp only [hout, Except.map, if_neg hrunning] at h
        obtain rfl := Option.some.inj h
        exact iff_of_true (Mortal.lives_ok _) rfl

/-- The steps keep the invariant. -/
theorem Inv.step (hI : Inv s) {l : Label} (h : machine.step s l = some s') : Inv s' := by
  cases s with
  | error e => cases h
  | ok p =>
    obtain ⟨hd, hacc⟩ := hI p rfl
    obtain ⟨l, calls⟩ := l
    obtain ⟨m, hm, hrun⟩ := Option.bind_eq_some_iff.1 h
    have hkeeps := move_keeps hacc hm
    rintro p' rfl
    cases m with
    | quiet q =>
      cases hrun
      exact ⟨hkeeps.2 ▸ hd, hkeeps.1⟩
    | descriptors l next =>
      simp only [Move.run, Descriptors.cleaningStep_eq] at hrun
      obtain ⟨s₁, hs₁, hnext⟩ := Option.map_eq_some_iff.1 hrun
      obtain ⟨d', hstep, rfl⟩ := Option.map_eq_some_iff.1 hs₁
      cases hcloses : p.descriptors.closes calls l d' with
      | error e =>
        rw [hcloses] at hnext
        cases hnext
      | ok _ =>
        rw [hcloses] at hnext
        cases hnext
        refine ⟨?_, (hkeeps d').1⟩
        rw [(hkeeps d').2]
        exact .step l hd trivial hstep
    | serve r env rounds w next =>
      simp only [Move.run] at hrun
      split at hrun
      · cases hrun
      · split at hrun
        · cases hrun
        · cases hrun
          obtain ⟨hnext, hdescriptors⟩ := hkeeps
            (r.serve (cleaningBackends env calls rounds) (.ok (unserved w))).1
          exact ⟨hdescriptors ▸ hd, hnext⟩

/-- **A step leaves a process** exactly if the releases succeed that it comes to. -/
theorem lives_iff (hI : Inv s) {l : Label} (h : machine.step s l = some s') :
    s'.Lives ↔ ReleasesSucceed s l := by
  cases s with
  | error e => cases h
  | ok p =>
    obtain ⟨l, calls⟩ := l
    obtain ⟨m, hm, hrun⟩ := Option.bind_eq_some_iff.1 h
    rw [Move.run_lives (hI p rfl).1 hrun]
    unfold ReleasesSucceed
    constructor
    · rintro hok _ ⟨⟩ m' hm'
      rw [hm] at hm'
      cases hm'
      exact hok
    · intro hok
      exact hok p rfl m hm

/-! ## Runs -/

theorem Inv.returns_iff (hI : Inv s) : ReturnsNormally s ↔ s.Lives := by
  constructor
  · rintro ⟨p, rfl, -⟩
    exact Mortal.lives_ok p
  · rintro ⟨p, rfl⟩
    exact ⟨p, rfl, (hI p rfl).2⟩

/-- **Every call returns to its caller** in the runs in which each release succeeds that a step
comes to, and in no others: one that fails terminates the process. -/
theorem returnsNormally_iff {ls : List Label} {s : Mortal Exn CallingProcess}
    (hrun : machine.run machine.init ls = some s) :
    ReturnsNormally s ↔ machine.RunMeets ReleasesSucceed machine.init ls := by
  have hI : ∀ s l s', Inv s → machine.step s l = some s' → Inv s' := fun s l s' hI h => hI.step h
  have hend : Inv s := Machine.run_invariant hI Inv.init hrun
  rw [hend.returns_iff]
  refine Machine.runMeets_iff (I := Inv) (P := Mortal.Lives) (Q := fun s => ¬ s.Lives) hI
    ?_ ?_ ?_ ?_ Inv.init (Mortal.lives_ok init) hrun
  · intro s l s' hI _ hok hst
    exact (lives_iff hI hst).2 hok
  · intro s l s' hI _ hok hst hlives
    exact hok ((lives_iff hI hst).1 hlives)
  · intro s l s' hI hdead hst
    -- a process that is gone makes no step
    cases s with
    | error e => cases hst
    | ok p => exact absurd (Mortal.lives_ok p) hdead
  · intro s hdead
    exact hdead

/-- Releases that succeed are no danger. -/
theorem releasesSucceed_of_ok (hclose : ∀ fd, calls.close fd = .ok ())
    (hmunmap : calls.munmap = .ok ()) (s : Mortal Exn CallingProcess) (l : Step) :
    ReleasesSucceed s (l, calls) := by
  intro p _ m _
  cases m with
  | quiet q => trivial
  | descriptors l next => exact fun fd _ => hclose fd
  | serve r env rounds w next => exact fun w' _ _ => hmunmap

/-- A file is registered, ten bytes are read from it through a bounce buffer, and it is
deregistered. -/
def readOnce : List Step :=
  [.clientOpen 3 2, .handleRegister 0 (Descriptors.plainCalls 4) false (some ⟨.opaqueFD, 3⟩),
    .registerFile 0 64, .endRegister 0, .io 0 .read oneAllocation 64 0x10000 128 10 0 0,
    .serve 0 Fallback.shortCountsEnv 10 Fallback.tenBytes, .dropBuffer 0, .dropFile 0,
    .handleDeregister 0 64]

def succeeding : ReleaseCalls := ⟨fun _ => .ok (), .ok ()⟩

/-- A signal interrupts each `close(2)`. -/
def interrupted : ReleaseCalls := ⟨fun _ => .error EINTR, .ok ()⟩

theorem returnsNormally_readOnce :
    ∃ s, machine.run machine.init (readOnce.map fun l => (l, succeeding)) = some s ∧
      ReturnsNormally s := by
  have hsome : (machine.run machine.init (readOnce.map fun l => (l, succeeding))).isSome =
      true := by decide +kernel
  obtain ⟨s, hrun⟩ := Option.isSome_iff_exists.1 hsome
  refine ⟨s, hrun, (returnsNormally_iff hrun).2 (Machine.runMeets_of_forall ?_ _)⟩
  intro l hl s
  obtain ⟨step, -, rfl⟩ := List.mem_map.1 hl
  exact releasesSucceed_of_ok (fun _ => rfl) rfl s step

/-- `close` is interrupted when the file is deregistered: `hipFileHandleDeregister` does not
return. -/
theorem not_returnsNormally_interrupted :
    ∃ s, machine.run machine.init (readOnce.dropLast.map (fun l => (l, succeeding)) ++
      [(.handleDeregister 0 64, interrupted)]) = some s ∧ ¬ ReturnsNormally s := by
  have hgone : (machine.run machine.init (readOnce.dropLast.map (fun l => (l, succeeding)) ++
      [(.handleDeregister 0 64, interrupted)])).map Except.isOk = some false := by decide +kernel
  obtain ⟨s, hrun, hs⟩ := Option.map_eq_some_iff.1 hgone
  refine ⟨s, hrun, ?_⟩
  rintro ⟨p, rfl, -⟩
  cases hs

end CallingProcess

end HipFile
