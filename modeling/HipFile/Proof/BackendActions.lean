import Mathlib.Data.Nat.ModEq
import HipFile.Model.Requests
import HipFile.Proof.FallbackCalls
import HipFile.Proof.ReturnValue

/-!
# What the backends do

* `fallback_grows`, `fastpath_grows`: the two `_io_impl`, with what they add to the counters.
* `Serves`: a backend counts what it returns; `fallback_serves`, `fastpath_serves`.
* `actions_allowed`, `actions_balanced`: the actions of a synchronous request are those of
  enabled backends, and count what is reported.
-/

namespace HipFile

/-! ## The loop of the fallback -/

namespace Fallback

variable {env : Env}

/-- A round makes calls of the fallback, and leaves the counters. -/
theorem round_grows (file : IFile) (type : IoType) (buffer : IBuffer) (size : ℕ)
    (fileOffset bufferOffset : ℤ) (chunkSize : ℕ) (s : LoopState) :
    (∀ s', round env file type buffer size fileOffset bufferOffset chunkSize s = .inl s' →
      World.Grows Event.Posix s.world s'.world) ∧
    ∀ r, round env file type buffer size fileOffset bufferOffset chunkSize s = .inr r →
      World.Grows Event.Posix s.world r.2 := by
  have hcalls := round_calls env file type buffer size fileOffset bufferOffset chunkSize s
  exact ⟨fun s' h => (hcalls.1 s' h).mono fun _ he => he.posix,
    fun r h => (hcalls.2 r h).mono fun _ he => he.posix⟩

/-- So does the loop. -/
theorem loop_grows (env : Env) (file : IFile) (type : IoType) (buffer : IBuffer) (size : ℕ)
    (fileOffset bufferOffset : ℤ) (chunkSize rounds : ℕ) {w : World} {s : LoopState}
    (hs : World.Grows Event.Posix w s.world) :
    (∀ s', Loop.iter (round env file type buffer size fileOffset bufferOffset chunkSize) rounds s =
      .inl s' → World.Grows Event.Posix w s'.world) ∧
    ∀ r, Loop.iter (round env file type buffer size fileOffset bufferOffset chunkSize) rounds s =
      .inr r → World.Grows Event.Posix w r.2 := by
  have hround := @round_grows env file type buffer size fileOffset bufferOffset chunkSize
  refine Loop.iter_inv (I := fun s => World.Grows Event.Posix w s.world) ?_ ?_ rounds s hs
  · intro s s' hs hb
    exact hs.trans ((hround s).1 s' hb)
  · intro s r hs hb
    exact hs.trans ((hround s).2 r hb)

end Fallback

/-- A call that the fast path makes. -/
def Event.Amd : Event → Prop
  | .hipInit _ => True
  | .hipAmdFile .. => True
  | _ => False

/-! ## The two backends -/

/-- The count that a `stats` function adds to. -/
theorem statsAddFallbackPath_eq (w : World) (config : Configuration) (type : IoType) (bytes : ℕ) :
    w.statsAddFallbackPath config type bytes =
      w.addStats config fun st => st.add .fallbackPath type bytes := by
  cases type <;> rfl

theorem statsAddFastPath_eq (w : World) (config : Configuration) (type : IoType) (bytes : ℕ) :
    w.statsAddFastPath config type bytes =
      w.addStats config fun st => st.add .fastPath type bytes := by
  cases type <;> rfl

/-- **`Fallback::_io_impl`** makes calls of the fallback, if it is enabled, and counts what
it returns. -/
theorem fallback_grows (env : Env) (rounds : ℕ) (type : IoType) (file : IFile) (buffer : IBuffer)
    (size : ℕ) (fileOffset bufferOffset : ℤ) (w : World) :
    match Fallback.ioImplDefault env rounds type file buffer size fileOffset bufferOffset w with
    | .inl s => env.config.fallback = true ∧ World.Grows Event.Posix w s.world
    | .inr (.ok n, w') => env.config.fallback = true ∧
        ∃ w₁, World.Grows Event.Posix w w₁ ∧
          w' = w₁.addStats env.config fun st => st.add .fallbackPath type n
    | .inr (.error _, w') =>
        w' = w ∨ env.config.fallback = true ∧ World.Grows Event.Posix w w' := by
  unfold Fallback.ioImplDefault Fallback.ioImpl
  cases haccept : Fallback.accept env buffer size fileOffset bufferOffset with
  | error e => exact Or.inl rfl
  | ok region =>
    -- the setting is the first check
    have henabled : env.config.fallback = true := by
      by_contra hoff
      rw [Fallback.accept, if_pos hoff] at haccept
      cases haccept
    have hmmap : World.Grows Event.Posix w (w.mmap env.sys).2 := .call rfl rfl trivial
    simp only
    rcases hm : w.mmap env.sys with ⟨r, w₀⟩
    rw [hm] at hmmap
    cases r with
    | error e => exact Or.inr ⟨henabled, hmmap⟩
    | ok u =>
      simp only
      have hloop := Fallback.loop_grows env file type buffer region.size fileOffset bufferOffset
        DefaultChunkSize rounds (s := ⟨w₀, fun _ => 0, 0⟩) hmmap
      cases hiter : Loop.iter (Fallback.round env file type buffer region.size fileOffset
          bufferOffset DefaultChunkSize) rounds ⟨w₀, fun _ => 0, 0⟩ with
      | inl s => exact ⟨henabled, hloop.1 s hiter⟩
      | inr r =>
        obtain ⟨r, w₁⟩ := r
        have hgrows := hloop.2 _ hiter
        cases r with
        | ok total => exact ⟨henabled, w₁, hgrows, statsAddFallbackPath_eq w₁ env.config type total⟩
        | error e => exact Or.inr ⟨henabled, hgrows⟩

/-- The runtime's functions report fewer than `2^63` bytes for the calls among these actions. -/
def HipIo.Bounded (hip : HipIo) (acts : List Action) : Prop :=
  ∀ type call, hip.hipAmdFile type = some call →
    ∀ fd devicePtr size offset, .call (.hipAmdFile type fd devicePtr size offset) ∈ acts →
      ∀ i file dev, (call i fd devicePtr size offset file dev).nbytes < 2 ^ 63

theorem HipIo.Bounded.mono {hip : HipIo} {acts acts' : List Action} (h : hip.Bounded acts')
    (hsub : acts ⊆ acts') : hip.Bounded acts :=
  fun type call hcall fd devicePtr size offset hmem =>
    h type call hcall fd devicePtr size offset (hsub hmem)

theorem hipInitOnce_grows (w : World) (hip : HipIo) :
    World.Grows Event.Amd w (w.hipInitOnce hip).2 := by
  unfold World.hipInitOnce
  split
  · exact World.Grows.refl _ _
  · cases hip.hipInit w.calls with
    | ok u => exact .call rfl rfl trivial
    | error e => exact .call rfl rfl trivial

theorem hipAmdFile_grows (w : World) (hip : HipIo) (type : IoType) (fd : ℤ)
    (devicePtr size : ℕ) (offset : ℤ) :
    World.Grows Event.Amd w (w.hipAmdFile hip type fd devicePtr size offset).2 ∧
      (hip.Bounded (newCalls w (w.hipAmdFile hip type fd devicePtr size offset).2) →
        ∀ n, (w.hipAmdFile hip type fd devicePtr size offset).1 = .ok n → n < 2 ^ 63) := by
  unfold World.hipAmdFile
  cases hcall : hip.hipAmdFile type with
  | none => exact ⟨World.Grows.refl _ _, fun _ _ => nofun⟩
  | some call =>
    simp only
    split
    · exact ⟨.call rfl rfl trivial, fun _ _ => nofun⟩
    · split
      · exact ⟨.call rfl rfl trivial, fun _ _ => nofun⟩
      · refine ⟨.call rfl rfl trivial, ?_⟩
        intro hbound n hn
        rw [← Except.ok.inj hn]
        exact hbound type call hcall _ _ _ _ (by simp [newCalls]) _ _ _

theorem newCalls_subset {P : Event → Prop} {w w₀ : World} (h : World.Grows P w w₀) (w₁ : World) :
    newCalls w₀ w₁ ⊆ newCalls w w₁ := by
  obtain ⟨evs, hevs, -⟩ := h.trace
  have hle : w.trace.length ≤ w₀.trace.length := by
    rw [hevs, List.length_append]
    omega
  exact List.map_subset _ (List.drop_subset_drop_left _ hle)

/-- **`Fastpath::_io_impl`** makes calls of the fast path, if it is enabled, and counts what
the runtime reports. -/
theorem fastpath_grows (env : Env) (type : IoType) (file : IFile) (buffer : IBuffer) (size : ℕ)
    (fileOffset bufferOffset : ℤ) (w : World) :
    match Fastpath.ioImpl env type file buffer size fileOffset bufferOffset w with
    | (.ok nbytes, w') => env.config.fastpath = true ∧
        ∃ w₁ n, World.Grows Event.Amd w w₁ ∧ nbytes = toSsizeT n ∧
          (env.hip.Bounded (newCalls w w₁) → n < 2 ^ 63) ∧
          w' = w₁.addStats env.config fun st => st.add .fastPath type n
    | (.error _, w') => w' = w ∨ env.config.fastpath = true ∧ World.Grows Event.Amd w w' := by
  unfold Fastpath.ioImpl
  cases haccept : Fastpath.accept env file buffer size fileOffset bufferOffset with
  | error e => exact Or.inl rfl
  | ok region =>
    obtain ⟨fd, region⟩ := region
    have henabled : env.config.fastpath = true := by
      by_contra hoff
      rw [Fastpath.accept, if_pos hoff] at haccept
      cases haccept
    have hinit := hipInitOnce_grows w env.hip
    simp only
    rcases hi : w.hipInitOnce env.hip with ⟨r, w₀⟩
    rw [hi] at hinit
    cases r with
    | error e => exact Or.inr ⟨henabled, hinit⟩
    | ok u =>
      -- bytes are counted after the runtime's function, as it has reported them
      have hamd := hipAmdFile_grows w₀ env.hip type fd region.devicePtr region.size
        region.fileOffset
      simp only
      rcases ha : w₀.hipAmdFile env.hip type fd region.devicePtr region.size region.fileOffset
        with ⟨r, w₁⟩
      rw [ha] at hamd
      have hgrows : World.Grows Event.Amd w w₁ := hinit.trans hamd.1
      cases r with
      | error e => exact Or.inr ⟨henabled, hgrows⟩
      | ok n =>
        have hbound : env.hip.Bounded (newCalls w w₁) → n < 2 ^ 63 :=
          fun hb => hamd.2 (hb.mono (newCalls_subset hinit w₁)) n rfl
        refine ⟨henabled, w₁, n, hgrows, rfl, hbound, ?_⟩
        exact statsAddFastPath_eq w₁ env.config type n

/-! ## What is counted -/

/-- The bytes that an action adds to a counter. -/
def counted (path : Path) (type : IoType) : Action → ℕ
  | .count path' type' bytes => if path' = path ∧ type' = type then bytes else 0
  | _ => 0

/-- An action of a backend that is enabled. -/
def Allowed (config : Configuration) : Action → Prop
  | .call e => config.fallback = true ∧ e.Posix ∨ config.fastpath = true ∧ e.Amd
  | .count .fallbackPath _ _ => config.fallback = true
  | .count .fastPath _ _ => config.fastpath = true
  | _ => False

/-- `n` bytes at one counter. -/
def single (path : Path) (type : IoType) (n : ℕ) (path' : Path) (type' : IoType) : ℕ :=
  if path' = path ∧ type' = type then n else 0

theorem counted_newCalls (path : Path) (type : IoType) (w w' : World) :
    ((newCalls w w').map (counted path type)).sum = 0 := by
  refine Interleaving.sum_weight_eq_zero fun a ha => ?_
  obtain ⟨e, -, rfl⟩ := List.mem_map.1 ha
  rfl

/-- The additions that come to nothing may be left out. -/
theorem counted_newCounts (path : Path) (type : IoType) (w w' : World) :
    ((newCounts w w').map (counted path type)).sum = added w w' path type := by
  have hfilter : ∀ cs : List (Path × IoType),
      (((cs.filter fun c => added w w' c.1 c.2 ≠ 0).map fun c =>
        Action.count c.1 c.2 (added w w' c.1 c.2)).map (counted path type)).sum =
      (cs.map fun c => counted path type (.count c.1 c.2 (added w w' c.1 c.2))).sum := by
    intro cs
    induction cs with
    | nil => rfl
    | cons c cs ih =>
      by_cases hc : added w w' c.1 c.2 = 0
      · rw [List.filter_cons_of_neg (by simpa using hc), ih, List.map_cons, List.sum_cons, hc]
        simp [counted]
      · rw [List.filter_cons_of_pos (by simpa using hc), List.map_cons, List.map_cons,
          List.sum_cons, ih, List.map_cons, List.sum_cons]
  rw [newCounts, hfilter]
  cases path <;> cases type <;> simp [counters, counted]

theorem toSizeT_sub_self (x : ℕ) : toSizeT ((x : ℤ) - x) = 0 := by
  rw [sub_self]
  rfl

theorem toSizeT_sum_sub (x n : ℕ) :
    toSizeT ((((x + n) % wordModulus : ℕ) : ℤ) - x) = n % wordModulus := by
  unfold toSizeT wordModulus
  omega

/-- What has been added to a counter, by a way that adds `n` bytes to one. -/
theorem added_add {w w' : World} {path : Path} {type : IoType} {n : ℕ}
    (h : w'.stats = w.stats.add path type n) (path' : Path) (type' : IoType) :
    added w w' path' type' = single path type n path' type' % wordModulus := by
  rw [added, h, Stats.getCounter_add]
  by_cases heq : path' = path ∧ type' = type
  · obtain ⟨rfl, rfl⟩ := heq
    rw [if_pos ⟨rfl, rfl⟩, toSizeT_sum_sub]
    simp [single]
  · have hne : ¬ (path = path' ∧ type = type') := fun h => heq ⟨h.1.symm, h.2.symm⟩
    rw [if_neg hne, toSizeT_sub_self]
    simp [single, heq]

theorem added_same {w w' : World} (h : w'.stats = w.stats) (path : Path) (type : IoType) :
    added w w' path type = 0 := by
  rw [added, h, toSizeT_sub_self]

theorem newCounts_of_stats {w w' : World} (h : w'.stats = w.stats) : newCounts w w' = [] := by
  rw [newCounts, List.map_eq_nil_iff, List.filter_eq_nil_iff]
  intro c _
  simp [added_same h]

/-! ## Requests that are served -/

/-- The counts are kept, and the runtime's counts for the calls made can be returned. -/
def Counting (env : Env) (acts : List Action) : Prop :=
  1 ≤ env.config.statsLevel ∧ env.hip.Bounded acts

/-- The request has made allowed actions, which have counted the given bytes. -/
def Adds (env : Env) (v v' : Served) (amount : Path → IoType → ℕ) : Prop :=
  ∃ acts, v'.actions = v.actions ++ acts ∧ (∀ a ∈ acts, Allowed env.config a) ∧
    (Counting env acts → ∀ path type,
      (acts.map (counted path type)).sum ≡ amount path type [MOD wordModulus])

def nothing : Path → IoType → ℕ := fun _ _ => 0

variable {env : Env} {v v₁ v₂ : Served}

theorem Adds.refl (env : Env) (v : Served) : Adds env v v nothing :=
  ⟨[], (List.append_nil _).symm, nofun, fun _ _ _ => rfl⟩

theorem Adds.trans {amount : Path → IoType → ℕ} (h : Adds env v v₁ nothing)
    (h' : Adds env v₁ v₂ amount) : Adds env v v₂ amount := by
  obtain ⟨acts, hacts, hall, hcount⟩ := h
  obtain ⟨acts', hacts', hall', hcount'⟩ := h'
  refine ⟨acts ++ acts', ?_, ?_, ?_⟩
  · rw [hacts', hacts, List.append_assoc]
  · intro a ha
    rcases List.mem_append.1 ha with ha | ha
    · exact hall a ha
    · exact hall' a ha
  · intro hc path type
    rw [List.map_append, List.sum_append]
    have hc₁ : Counting env acts := ⟨hc.1, hc.2.mono (List.subset_append_left _ _)⟩
    have hc₂ : Counting env acts' := ⟨hc.1, hc.2.mono (List.subset_append_right _ _)⟩
    have hsum := (hcount hc₁ path type).add (hcount' hc₂ path type)
    simpa [nothing] using hsum

/-- The calls on a way that has grown. -/
theorem mem_newCalls {P : Event → Prop} {w w₁ w' : World} (hgrows : World.Grows P w w₁)
    (htrace : w'.trace = w₁.trace) {a : Action} (ha : a ∈ newCalls w w') :
    ∃ e, a = .call e ∧ P e := by
  obtain ⟨evs, hevs, hP⟩ := hgrows.trace
  obtain ⟨e, he, rfl⟩ := List.mem_map.1 ha
  rw [htrace, hevs, List.drop_left] at he
  exact ⟨e, rfl, hP e he⟩

/-- A way through calls only. -/
theorem adds_grows {P : Event → Prop} {w : World} (hgrows : World.Grows P v.world w)
    (hP : ∀ e, P e → Allowed env.config (.call e)) : Adds env v (v.after w) nothing := by
  have hcounts : newCounts v.world w = [] := newCounts_of_stats hgrows.stats
  refine ⟨newCalls v.world w ++ newCounts v.world w, rfl, ?_, ?_⟩
  · rw [hcounts, List.append_nil]
    intro a ha
    obtain ⟨e, rfl, he⟩ := mem_newCalls hgrows rfl ha
    exact hP e he
  · intro _ path type
    rw [hcounts, List.append_nil, counted_newCalls]
    rfl

/-- A way through calls that is counted at its end. -/
theorem adds_count {P : Event → Prop} {w w' : World} {path : Path} {type : IoType} {n : ℕ}
    (hgrows : World.Grows P v.world w) (hP : ∀ e, P e → Allowed env.config (.call e))
    (hpath : ∀ n, Allowed env.config (.count path type n))
    (hw' : w' = w.addStats env.config fun st => st.add path type n) :
    Adds env v (v.after w') (single path type n) := by
  have htrace : w'.trace = w.trace := by rw [hw', World.addStats_trace]
  have hadd : 1 ≤ env.config.statsLevel → w'.stats = v.world.stats.add path type n := by
    intro hlevel
    rw [hw', World.addStats, if_pos hlevel, hgrows.stats]
  have hsame : ¬ 1 ≤ env.config.statsLevel → w'.stats = v.world.stats := by
    intro hlevel
    rw [hw', World.addStats, if_neg hlevel, hgrows.stats]
  refine ⟨newCalls v.world w' ++ newCounts v.world w', rfl, ?_, ?_⟩
  · intro a ha
    rcases List.mem_append.1 ha with ha | ha
    · obtain ⟨e, rfl, he⟩ := mem_newCalls hgrows htrace ha
      exact hP e he
    · obtain ⟨c, hc, rfl⟩ := List.mem_map.1 ha
      have hne : added v.world w' c.1 c.2 ≠ 0 := by simpa using (List.mem_filter.1 hc).2
      have hlevel : 1 ≤ env.config.statsLevel := by
        by_contra hlevel
        exact hne (added_same (hsame hlevel) c.1 c.2)
      -- only the counter of the backend has changed
      have heq : c.1 = path ∧ c.2 = type := by
        by_contra hother
        rw [added_add (hadd hlevel), single, if_neg hother] at hne
        exact hne rfl
      rw [heq.1, heq.2]
      exact hpath _
  · intro hc path' type'
    rw [List.map_append, List.sum_append, counted_newCalls, counted_newCounts, zero_add,
      added_add (hadd hc.1)]
    exact Nat.mod_modEq _ _

/-- **How a backend serves a request**: what it returns it has counted, and nothing else. -/
def Serves (env : Env) (type : IoType) (v : Served) : Except Exn ℕ × Served → Prop
  | (.ok n, v') => (env.config.fallback = true ∨ env.config.fastpath = true) ∧
      v'.running = v.running ∧ ∃ path, v'.path = some path ∧ Adds env v v' (single path type n)
  | (.error _, v') => (v'.running = true → v.running = true ∨ env.config.fallback = true) ∧
      Adds env v v' nothing

theorem Serves.trans {type : IoType} {r : Except Exn ℕ × Served} (h : Adds env v v₁ nothing)
    (hrunning : v₁.running = v.running) (h' : Serves env type v₁ r) : Serves env type v r := by
  obtain ⟨r, v'⟩ := r
  cases r with
  | ok n =>
    obtain ⟨henabled, hr, path, hpath, hadds⟩ := h'
    exact ⟨henabled, hr.trans hrunning, path, hpath, h.trans hadds⟩
  | error e =>
    obtain ⟨hr, hadds⟩ := h'
    rw [hrunning] at hr
    exact ⟨hr, h.trans hadds⟩

theorem Served.after_self (v : Served) : v.after v.world = v := by
  have hcalls : newCalls v.world v.world = [] := by simp [newCalls]
  have hcounts : newCounts v.world v.world = [] := newCounts_of_stats rfl
  rw [Served.after, hcalls, hcounts, List.append_nil, List.append_nil]

theorem fallback_serves (env : Env) (rounds : ℕ) (type : IoType) (file : IFile) (buffer : IBuffer)
    (size : ℕ) (fileOffset bufferOffset : ℤ) (v : Served) :
    Serves env type v ((Fallback.backend env rounds).io type file buffer size fileOffset
      bufferOffset v) := by
  have hgrows := fallback_grows env rounds type file buffer size fileOffset bufferOffset v.world
  have hposix : env.config.fallback = true → ∀ e, Event.Posix e → Allowed env.config (.call e) :=
    fun hon e he => Or.inl ⟨hon, he⟩
  simp only [Fallback.backend]
  cases hio : Fallback.ioImplDefault env rounds type file buffer size fileOffset bufferOffset
      v.world with
  | inl s =>
    rw [hio] at hgrows
    obtain ⟨hon, hgrows⟩ := hgrows
    exact ⟨fun _ => Or.inr hon, adds_grows hgrows (hposix hon)⟩
  | inr r =>
    obtain ⟨r, w'⟩ := r
    rw [hio] at hgrows
    cases r with
    | ok n =>
      obtain ⟨hon, w₁, hgrows, hw'⟩ := hgrows
      exact ⟨Or.inl hon, rfl, .fallbackPath, rfl,
        adds_count hgrows (hposix hon) (fun _ => hon) hw'⟩
    | error e =>
      rcases hgrows with rfl | ⟨hon, hgrows⟩
      · simp only [Served.after_self]
        exact ⟨Or.inl, Adds.refl env v⟩
      · exact ⟨Or.inl, adds_grows hgrows (hposix hon)⟩

theorem Adds.congr {amount amount' : Path → IoType → ℕ} (h : Adds env v v₁ amount)
    (hamount : ∀ acts, v₁.actions = v.actions ++ acts → Counting env acts →
      ∀ path type, amount path type ≡ amount' path type [MOD wordModulus]) :
    Adds env v v₁ amount' := by
  obtain ⟨acts, hacts, hall, hcount⟩ := h
  refine ⟨acts, hacts, hall, fun hc path type => ?_⟩
  exact (hcount hc path type).trans (hamount acts hacts hc path type)

/-- A count that is returned is the count that the runtime has reported, in `size_t`. -/
theorem toSsizeT_nonneg {n : ℕ} (h : 0 ≤ toSsizeT n) : (toSsizeT n).toNat = n % wordModulus := by
  unfold toSsizeT wordModulus at *
  split at h
  · rename_i hlt
    rw [if_pos hlt]
    omega
  · omega

section

variable {fallbackBackend : Backend Served} {type : IoType} {file : IFile} {buffer : IBuffer}
  {size : ℕ} {fileOffset bufferOffset nbytes : ℤ}

/-- A count that is not negative is returned. -/
theorem fastpath_io_ok
    (h : Fastpath.serve env type file buffer size fileOffset bufferOffset v = (.ok nbytes, v₁))
    (hpos : ¬ nbytes < 0) :
    (Fastpath.backend env fallbackBackend).io type file buffer size fileOffset bufferOffset v =
      (.ok nbytes.toNat, v₁) := by
  have hcount : throwNegative nbytes = .ok nbytes.toNat := if_neg hpos
  have hbind : ((.ok nbytes : Except Exn ℤ) >>= throwNegative) = .ok nbytes.toNat := hcount
  simp only [Fastpath.backend, h, hbind]

/-- A failure is handed over to the fallback, or returned. -/
theorem fastpath_io_error {r : Except Exn ℤ} {e : Exn}
    (h : Fastpath.serve env type file buffer size fileOffset bufferOffset v = (r, v₁))
    (he : (r >>= throwNegative) = .error e) :
    (Fastpath.backend env fallbackBackend).io type file buffer size fileOffset bufferOffset v =
      if Fastpath.isFallbackEligible e = true ∧
          0 ≤ fallbackBackend.score file buffer size fileOffset bufferOffset then
        fallbackBackend.io type file buffer size fileOffset bufferOffset v₁
      else (.error e, v₁) := by
  simp only [Fastpath.backend, h, he]

end

/-- **The fast path**, with a fallback that serves requests. -/
theorem fastpath_serves (env : Env) (fallbackBackend : Backend Served) (type : IoType)
    (file : IFile) (buffer : IBuffer) (size : ℕ) (fileOffset bufferOffset : ℤ)
    (hfallback : ∀ v, Serves env type v
      (fallbackBackend.io type file buffer size fileOffset bufferOffset v)) (v : Served) :
    Serves env type v ((Fastpath.backend env fallbackBackend).io type file buffer size fileOffset
      bufferOffset v) := by
  have hgrows := fastpath_grows env type file buffer size fileOffset bufferOffset v.world
  have hamd : env.config.fastpath = true → ∀ e, Event.Amd e → Allowed env.config (.call e) :=
    fun hon e he => Or.inr ⟨hon, he⟩
  -- a failed attempt, which has counted nothing, is handed over or reported
  have hfail : ∀ (r : Except Exn ℤ) (e : Exn) (v₁ : Served),
      Fastpath.serve env type file buffer size fileOffset bufferOffset v = (r, v₁) →
      (r >>= throwNegative) = .error e → Adds env v v₁ nothing → v₁.running = v.running →
      Serves env type v ((Fastpath.backend env fallbackBackend).io type file buffer size
        fileOffset bufferOffset v) := by
    intro r e v₁ hserve he hadds hrunning
    rw [fastpath_io_error hserve he]
    split
    · exact Serves.trans hadds hrunning (hfallback v₁)
    · exact ⟨fun hr => Or.inl (hrunning ▸ hr), hadds⟩
  rcases hio : Fastpath.ioImpl env type file buffer size fileOffset bufferOffset v.world
    with ⟨r, w'⟩
  rw [hio] at hgrows
  cases r with
  | error e =>
    have hserve : Fastpath.serve env type file buffer size fileOffset bufferOffset v =
        (.error e, v.after w') := by
      simp only [Fastpath.serve, hio]
    refine hfail _ e _ hserve rfl ?_ rfl
    rcases hgrows with rfl | ⟨hon, hgrows⟩
    · rw [Served.after_self]
      exact Adds.refl env v
    · exact adds_grows hgrows (hamd hon)
  | ok nbytes =>
    obtain ⟨hon, w₁, n, hgrows, hn, hbound, hw'⟩ := hgrows
    have hserve : Fastpath.serve env type file buffer size fileOffset bufferOffset v =
        (.ok nbytes, { v.after w' with path := some .fastPath }) := by
      simp only [Fastpath.serve, hio]
    have hadds : Adds env v (v.after w') (single .fastPath type n) :=
      adds_count hgrows (hamd hon) (fun _ => hon) hw'
    by_cases hneg : nbytes < 0
    · refine hfail _ (.systemError (-toInt nbytes)) _ hserve (if_pos hneg) (hadds.congr ?_) rfl
      intro acts hacts hc
      have hmade : newCalls v.world w₁ ⊆ acts := by
        rw [← List.append_cancel_left hacts, newCalls, newCalls, hw', World.addStats_trace]
        exact List.subset_append_left _ _
      have hlt := toSsizeT_of_lt (hbound (hc.2.mono hmade))
      omega
    · rw [fastpath_io_ok hserve hneg]
      refine ⟨Or.inr hon, rfl, .fastPath, rfl, hadds.congr ?_⟩
      intro _ _ _ path' type'
      have htoNat : nbytes.toNat = n % wordModulus := by
        rw [hn] at hneg ⊢
        exact toSsizeT_nonneg (by omega)
      unfold single
      split
      · rw [htoNat]
        exact (Nat.mod_modEq _ _).symm
      · rfl

theorem getBackends_serves (env : Env) (rounds : ℕ) {backend : Backend Served}
    (hmem : backend ∈ getBackends env rounds) (type : IoType) (file : IFile) (buffer : IBuffer)
    (size : ℕ) (fileOffset bufferOffset : ℤ) (v : Served) :
    Serves env type v (backend.io type file buffer size fileOffset bufferOffset v) := by
  have hfallback : ∀ v, Serves env type v ((Fallback.backend env rounds).io type file buffer size
      fileOffset bufferOffset v) := fallback_serves env rounds type file buffer size fileOffset
        bufferOffset
  simp only [getBackends, List.mem_cons, List.not_mem_nil, or_false] at hmem
  rcases hmem with rfl | rfl
  · exact hfallback v
  · exact fastpath_serves env _ type file buffer size fileOffset bufferOffset hfallback v

/-- The selected backend is one of the backends. -/
theorem selectBackend_mem {ω : Type} {backends : List (Backend ω)} {file : IFile}
    {buffer : IBuffer} {size : ℕ} {fileOffset bufferOffset : ℤ} {backend : Backend ω}
    (h : selectBackend backends file buffer size fileOffset bufferOffset = some backend) :
    backend ∈ backends := by
  have hfold : ∀ (bs : List (Backend ω)) (sel : Selection ω),
      (bs.foldl (Selection.consider file buffer size fileOffset bufferOffset) sel).backend =
        some backend → backend ∈ bs ∨ sel.backend = some backend := by
    intro bs
    induction bs with
    | nil => intro sel h; exact Or.inr h
    | cons b bs ih =>
      intro sel h
      rcases ih _ h with hmem | hsel
      · exact Or.inl (List.mem_cons_of_mem _ hmem)
      · unfold Selection.consider at hsel
        simp only at hsel
        split at hsel
        · exact Or.inl (Option.some.inj hsel ▸ List.mem_cons_self)
        · exact Or.inr hsel
  rcases hfold backends _ h with hmem | hnone
  · exact hmem
  · cases hnone

/-- The `try` block of `hipFileIo`, on the backends of the driver. -/
theorem hipFileIoTry_serves (env : Env) (rounds : ℕ) (queries : HipQueries) (s : DriverState)
    (type : IoType) (fh bufferBase size : ℕ) (fileOffset bufferOffset : ℤ) (v : Served) :
    Serves env type v (hipFileIoTry queries s type fh bufferBase size fileOffset bufferOffset
      (getBackends env rounds) v) := by
  unfold hipFileIoTry
  cases (DriverState.getFileAndBuffer queries fh bufferBase s).1 with
  | error e => exact ⟨Or.inl, Adds.refl env v⟩
  | ok found =>
    obtain ⟨file, buffer⟩ := found
    simp only
    cases hsel : selectBackend (getBackends env rounds) file buffer size fileOffset
        bufferOffset with
    | none => exact ⟨Or.inl, Adds.refl env v⟩
    | some backend =>
      exact getBackends_serves env rounds (selectBackend_mem hsel) type file buffer size fileOffset
        bufferOffset v

/-! ## Synchronous requests -/

/-- The bytes that an action reports as transferred by a backend. -/
def reported (path : Path) (type : IoType) : Action → ℕ
  | .returned path' type' ret => if path' = some path ∧ type' = type then ret.toNat else 0
  | .published type' value => if path = .fallbackPath ∧ type' = type then value.toNat else 0
  | _ => 0

theorem reported_allowed {config : Configuration} {a : Action} (h : Allowed config a)
    (path : Path) (type : IoType) : reported path type a = 0 := by
  cases a with
  | returned => cases h
  | published => cases h
  | _ => rfl

/-- What a list of actions reports is what it counts. -/
def Balanced (acts : List Action) : Prop := ∀ path type,
  (acts.map (reported path type)).sum ≡ (acts.map (counted path type)).sum [MOD wordModulus]

namespace SyncRequest

/-- How the request is served, and what it returns. -/
theorem serve_eq (req : SyncRequest) (p : Process) (rounds : ℕ) : ∃ r,
    Serves (req.env p) req.type req.start r ∧
      req.serve p rounds = (matchCuFile (ioResult r.1), r.2) := by
  refine ⟨_, hipFileIoTry_serves (req.env p) rounds req.queries req.driver req.type req.fh
    req.bufferBase req.size req.fileOffset req.bufferOffset req.start, ?_⟩
  unfold serve
  cases req.type <;> rfl

/-- **What a synchronous request does**: allowed actions, and a report at their end, unless
it is still running. -/
theorem actions_allowed (req : SyncRequest) (p : Process) (rounds : ℕ) : ∃ acts,
    (∀ a ∈ acts, Allowed p.config a) ∧
      ((∃ path ret, req.actions p rounds = acts ++ [.returned path req.type ret] ∧
          (p.config.fallback = true ∨ p.config.fastpath = true ∨ ret < 0)) ∨
        req.actions p rounds = acts ∧ p.config.fallback = true) := by
  obtain ⟨⟨r, v'⟩, hserves, heq⟩ := serve_eq req p rounds
  unfold actions
  rw [heq]
  cases r with
  | ok n =>
    obtain ⟨henabled, hrunning, path, hpath, acts, hacts, hall, -⟩ := hserves
    have hoff : v'.running = false := hrunning
    refine ⟨v'.actions, ?_, Or.inl ⟨v'.path, n, ?_, ?_⟩⟩
    · rw [hacts]
      exact hall
    · simp only [hoff, matchCuFile_ok]
      rfl
    · rcases henabled with hon | hon
      · exact Or.inl hon
      · exact Or.inr (Or.inl hon)
  | error e =>
    obtain ⟨hrunning, acts, hacts, hall, -⟩ := hserves
    refine ⟨v'.actions, ?_, ?_⟩
    · rw [hacts]
      exact hall
    · cases hr : v'.running with
      | true =>
        -- only the fallback's loop runs out of rounds
        right
        simp only [hr, if_true, List.append_nil, true_and]
        rcases hrunning hr with hstart | hon
        · cases hstart
        · exact hon
      | false =>
        refine Or.inl ⟨v'.path, (matchCuFile (ioResult (.error e))).ret, ?_, ?_⟩
        · simp only [hr, Bool.false_eq_true, if_false]
        · exact Or.inr (Or.inr (matchCuFile_error_neg e))

/-- **A synchronous request reports what it has counted.** -/
theorem actions_balanced (req : SyncRequest) (p : Process) (rounds : ℕ)
    (hcounting : Counting (req.env p) (req.actions p rounds)) :
    Balanced (req.actions p rounds) := by
  intro path type
  obtain ⟨⟨r, v'⟩, hserves, heq⟩ := serve_eq req p rounds
  have hreported : ∀ acts : List Action, (∀ a ∈ acts, Allowed p.config a) →
      (acts.map (reported path type)).sum = 0 :=
    fun acts hall => Interleaving.sum_weight_eq_zero fun a ha =>
      reported_allowed (hall a ha) path type
  have hmade : v'.actions ⊆ req.actions p rounds := by
    unfold actions
    rw [heq]
    exact List.subset_append_left _ _
  have hserved : Counting (req.env p) v'.actions := ⟨hcounting.1, hcounting.2.mono hmade⟩
  unfold actions
  rw [heq]
  cases r with
  | ok n =>
    obtain ⟨-, hrunning, path', hpath, acts, hacts, hall, hcount⟩ := hserves
    have hoff : v'.running = false := hrunning
    have hv' : v'.actions = acts := hacts
    have hsum := hcount (hv' ▸ hserved) path type
    -- the backend's actions report nothing, and the last action counts nothing
    simp only [hoff, matchCuFile_ok, hv', hpath, Bool.false_eq_true, if_false, List.map_append,
      List.sum_append, List.map_cons, List.map_nil, List.sum_singleton, hreported acts hall,
      zero_add]
    refine Nat.ModEq.trans ?_ hsum.symm
    have hret : reported path type (.returned (some path') req.type n) =
        single path' req.type n path type := by
      unfold reported single
      simp only [Option.some.injEq, eq_comm, Int.toNat_natCast]
    rw [hret]
  | error e =>
    obtain ⟨-, acts, hacts, hall, hcount⟩ := hserves
    have hv' : v'.actions = acts := hacts
    have hneg := matchCuFile_error_neg e
    have hreturned (path' : Option Path) : reported path type
        (.returned path' req.type (matchCuFile (ioResult (.error e))).ret) = 0 := by
      unfold reported
      simp only [Int.toNat_of_nonpos hneg.le, ite_self]
    have hsum := hcount (hv' ▸ hserved) path type
    cases hr : v'.running with
    | true =>
      simp only [hr, hv', if_true, List.append_nil, hreported acts hall]
      exact hsum.symm
    | false =>
      simp only [hr, hv', Bool.false_eq_true, if_false, List.map_append, List.sum_append,
        List.map_cons, List.map_nil, List.sum_singleton, hreported acts hall, hreturned]
      exact hsum.symm

end SyncRequest

end HipFile
