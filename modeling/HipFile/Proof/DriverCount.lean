import HipFile.Model.Driver
import HipFile.Proof.Registration

/-!
# The reference count of the driver

* `driver_safe`: what holds of the driver's state under any threads, and what the
  methods do without references.
* `closes_exact_iff`: when each successful close has released one open.
-/

namespace HipFile

open DriverState

namespace DriverState

variable {s : DriverState}

/-- An implicit initialisation is one increment, or none. -/
theorem implicitInit_refCount (s : DriverState) :
    (implicitInit s).refCount = s.refCount + ((if s.refCount = 0 then 1 else 0 : ℕ) : ℤ) := by
  unfold implicitInit
  split
  · rfl
  · exact (Int.add_zero _).symm

/-- A method that requires an initialised driver and then keeps the count keeps it. -/
theorem requireInit_refCount {α : Type} {x : Method α} (hx : (x s).2.refCount = s.refCount) :
    ((do requireInit; x : Method α) s).2.refCount = s.refCount := by
  rw [requireInit_bind]
  split
  · rfl
  · exact hx

/-- **What a method does to the count**, the decrement apart. -/
theorem Call.apply_refCount {c : Call} (hc : c ≠ .decrRefCount) (s : DriverState) :
    (c.apply s).refCount = s.refCount + c.increments s := by
  cases c with
  | registerBuffer hip buf length flags => exact implicitInit_refCount s
  | deregisterBuffer buf useCount => exact (requireInit_refCount rfl).trans (Int.add_zero _).symm
  | registerFile uf handle => exact implicitInit_refCount s
  | deregisterFile fh useCount => exact (requireInit_refCount rfl).trans (Int.add_zero _).symm
  | registerStream hip hipStream flags => exact (Int.add_zero _).symm
  | deregisterStream hipStream => exact (Int.add_zero _).symm
  | incrRefCount => rfl
  | decrRefCount => exact absurd rfl hc
  | ensureInitialized => exact implicitInit_refCount s

/-- The methods in the log do to the atomic driver what they do to the count. -/
theorem Call.events_run {c : Call} (hc : c ≠ .decrRefCount) (hc' : c ≠ .incrRefCount)
    (s : DriverState) : atomicDriver.run s.refCount c.events = some (c.apply s).refCount := by
  rw [Call.apply_refCount hc]
  have hinit : atomicDriver.run s.refCount [.initialised] =
      some (s.refCount + ((if s.refCount = 0 then 1 else 0 : ℕ) : ℤ)) := by
    simp only [Machine.run, atomicDriver, DriverEvent.apply, Option.bind_some]
    split <;> simp
  cases c with
  | registerBuffer hip buf length flags => exact hinit
  | registerFile uf handle => exact hinit
  | ensureInitialized => exact hinit
  | incrRefCount => exact absurd rfl hc'
  | decrRefCount => exact absurd rfl hc
  | _ => simp [Call.events, Call.increments, Machine.run]

theorem clearAtZero_refCount (s : DriverState) : (clearAtZero s).refCount = s.refCount := by
  unfold clearAtZero; split <;> rfl

/-- The decrement, with references and without. -/
theorem decr_refCount (hI : Inv s) :
    (decrRefCount s).2.refCount = if 0 < s.refCount then s.refCount - 1 else s.refCount := by
  rw [decrRefCount_eq hI]
  simp only [clearAtZero_refCount, dropRef]
  split <;> rfl

end DriverState

namespace DriverSystem

variable {s s' : DriverSystem} {t : ℕ} {a : DriverAction}

/-- What the steps do, the points of the threads apart. -/
inductive Moves (s : DriverSystem) : DriverAction → DriverSystem → Prop
  | stays {a : DriverAction} (p : ℕ → DriverPoint) (ha : a ≠ .closeDecr) :
    Moves s a { s with point := p }
  | method {a : DriverAction} (p : ℕ → DriverPoint) (m : DriverState.Call) (ha : a ≠ .closeDecr)
      (hm : m ≠ .decrRefCount) (hm' : m ≠ .incrRefCount) : Moves s a { s.method m with point := p }
  | opened : Moves s .driverOpen { s with
      driver := (DriverState.incrRefCount s.driver).2
      log := s.log ++ [.opened hipFileSuccess]
      increments := s.increments + 1 }
  | counted : Moves s .useCount { s with log := s.log ++ [.counted s.driver.refCount] }
  | refused (h0 : ¬ 0 < s.driver.refCount) :
    Moves s .closeTest { s with log := s.log ++ [.closed ⟨.driverNotInitialized, none⟩] }
  | closed (p : ℕ → DriverPoint) : Moves s .closeDecr { s with
      driver := (hipFileDriverCloseDecr s.driver).2
      point := p
      log := s.log ++ [.closed (hipFileDriverCloseDecr s.driver).1] }

/-- A method that a public function calls is neither the increment nor the decrement. -/
theorem method_ne {c : PublicCall} {m : DriverState.Call} (h : c.method = some m) :
    m ≠ .decrRefCount ∧ m ≠ .incrRefCount := by
  unfold PublicCall.method at h
  repeat' split at h
  all_goals first | cases h; exact ⟨nofun, nofun⟩ | cases h

/-- The test of a close refuses a driver without references. -/
theorem closeTest_some {s : DriverState} {r : HipFileError}
    (h : hipFileDriverCloseTest s = some r) :
    ¬ 0 < s.refCount ∧ r = ⟨.driverNotInitialized, none⟩ := by
  by_cases h0 : 0 < s.refCount
  · simp [hipFileDriverCloseTest, getRefCount, h0] at h
  · simp only [hipFileDriverCloseTest, getRefCount, h0, if_false, Option.some.injEq] at h
    exact ⟨h0, h.symm⟩

/-- **The steps, by what they do.** -/
theorem step_moves (h : machine.step s (t, a) = some s') : Moves s a s' := by
  cases a with
  | call c =>
    simp only [machine, step] at h
    split at h
    · split at h
      · cases h; exact .stays s.point nofun
      · rename_i m hm
        cases h
        exact .method s.point m nofun (method_ne hm).1 (method_ne hm).2
    · cases h
  | driverOpen =>
    simp only [machine, step] at h
    split at h
    · cases h; exact .opened
    · cases h
  | useCount =>
    simp only [machine, step] at h
    split at h
    · cases h; exact .counted
    · cases h
  | closeTest =>
    simp only [machine, step] at h
    split at h
    · split at h
      · cases h; exact .stays _ nofun
      · rename_i r hr
        obtain ⟨h0, rfl⟩ := closeTest_some hr
        cases h
        exact .refused h0
    · cases h
  | closeDecr =>
    simp only [machine, step] at h
    split at h
    · cases h; exact .closed _
    · cases h
  | asyncTest =>
    simp only [machine, step] at h
    split at h
    · cases h; exact .stays _ nofun
    · cases h
  | asyncInit =>
    simp only [machine, step] at h
    split at h
    · cases h; exact .method _ .ensureInitialized nofun nofun nofun
    · cases h
  | asyncLookup =>
    simp only [machine, step] at h
    split at h
    · cases h; exact .stays _ nofun
    · cases h

/-- The decrement's step, as its method. -/
theorem closeDecr_snd (s : DriverState) :
    (hipFileDriverCloseDecr s).2 = DriverState.Call.apply s .decrRefCount := by
  unfold hipFileDriverCloseDecr
  simp only [DriverState.Call.apply]
  split <;> rename_i h <;> rw [h]

/-- **The system simulates the driver's methods**: a step leaves the driver or calls one. -/
theorem driver_of_moves (h : Moves s a s') :
    s'.driver = s.driver ∨ ∃ c : DriverState.Call, s'.driver = c.apply s.driver := by
  cases h with
  | stays p ha => exact Or.inl rfl
  | method p m ha hm hm' => exact Or.inr ⟨m, rfl⟩
  | opened => exact Or.inr ⟨.incrRefCount, rfl⟩
  | counted => exact Or.inl rfl
  | refused h0 => exact Or.inl rfl
  | closed p => exact Or.inr ⟨.decrRefCount, closeDecr_snd _⟩

theorem inv_of_moves (hI : Inv s.driver) (h : Moves s a s') : Inv s'.driver := by
  rcases driver_of_moves h with heq | ⟨c, heq⟩
  · rw [heq]; exact hI
  · rw [heq]; exact inv_apply hI c

/-- The driver of a reachable system is a reachable driver. -/
theorem driver_reachable (h : machine.Reachable s) : DriverState.machine.Reachable s.driver := by
  refine h.invariant (I := fun s => DriverState.machine.Reachable s.driver) .init ?_
  intro s l s' ih _ hst
  rcases driver_of_moves (step_moves hst) with heq | ⟨c, heq⟩
  · rw [heq]; exact ih
  · rw [heq]; exact .step c ih trivial rfl

/-! ## Safety -/

/-- The methods that find the driver not initialised, and change nothing. -/
structure Refuses (s : DriverState) : Prop where
  deregisterFile : ∀ fh useCount,
    DriverState.deregisterFile fh useCount s = (.error .driverNotInitialized, s)
  getFile : ∀ fh, DriverState.getFile fh s = (.error .driverNotInitialized, s)
  deregisterBuffer : ∀ buf useCount,
    DriverState.deregisterBuffer buf useCount s = (.error .driverNotInitialized, s)
  getRegisteredBuffer : ∀ buf,
    DriverState.getRegisteredBuffer buf s = (.error .driverNotInitialized, s)
  getFileAndBuffer : ∀ hip fh buf,
    DriverState.getFileAndBuffer hip fh buf s = (.error .driverNotInitialized, s)
  getFileBufferAndStream : ∀ hip fh buf hipStream,
    DriverState.getFileBufferAndStream hip fh buf hipStream s = (.error .driverNotInitialized, s)

theorem refuses_of_zero {s : DriverState} (h0 : s.refCount = 0) : Refuses s := by
  have hreq {α : Type} (x : DriverState.Method α) :
      (do requireInit; x : DriverState.Method α) s = (.error .driverNotInitialized, s) := by
    rw [requireInit_bind, if_pos h0]
  exact ⟨fun _ _ => hreq _, fun _ => hreq _, fun _ _ => hreq _, fun _ => hreq _,
    fun _ _ _ => hreq _, fun _ _ _ _ => hreq _⟩

/-- **The driver under any threads**: the count is not negative and the decrement does
not throw; without references there are no files and no buffers, and the methods that
need an initialised driver refuse. -/
theorem driver_safe (s : DriverSystem) (hs : machine.Reachable s) :
    0 ≤ s.driver.refCount ∧
      (s.driver.refCount = 0 → s.driver.fileMap = .empty ∧ s.driver.bufferMap = .empty) ∧
      (s.driver.refCount = 0 → Refuses s.driver) ∧
      (DriverState.decrRefCount s.driver).1 = .ok () := by
  have hI : Inv s.driver := inv_of_reachable (driver_reachable hs)
  refine ⟨hI.nonneg, hI.empty, refuses_of_zero, ?_⟩
  rw [decrRefCount_eq hI]

/-- After an open, a registration that fails and a close, nothing is registered. -/
theorem driver_safe_closed :
    ∃ s, machine.run machine.init [(0, .driverOpen), (1, .call (.bufRegister noHip 0 64 0)),
        (0, .closeTest), (0, .closeDecr)] = some s ∧
      s.driver.refCount = 0 ∧ s.driver.fileMap = .empty ∧ Refuses s.driver := by
  refine ⟨_, rfl, by decide, ?_, ?_⟩
  all_goals have hsafe := driver_safe _ (@Machine.reachable_of_run _ _ machine
    [(0, .driverOpen), (1, .call (.bufRegister noHip 0 64 0)), (0, .closeTest), (0, .closeDecr)]
    _ rfl)
  · exact (hsafe.2.1 (by decide)).1
  · exact hsafe.2.2.1 (by decide)

/-! ## Each close releases one open -/

/-- A close finds the reference that it has seen. -/
def HasReference (s : DriverSystem) (l : ℕ × DriverAction) : Prop :=
  l.2 = .closeDecr → 0 < s.driver.refCount

/-- Each successful close has released one of the opens. -/
def Exact (s : DriverSystem) : Prop := s.driver.refCount = s.increments - s.closes

/-- The calls, in the order in which they took effect, are calls of the atomic driver. -/
def Atomic (s : DriverSystem) : Prop := atomicDriver.run 0 s.log = some s.driver.refCount

theorem closeDecr_fst {s : DriverState} (hI : Inv s) :
    (hipFileDriverCloseDecr s).1 = hipFileSuccess := by
  unfold hipFileDriverCloseDecr; rw [decrRefCount_eq hI]

/-- The count after a decrement. -/
theorem closeDecr_refCount {s : DriverState} (hI : Inv s) :
    (hipFileDriverCloseDecr s).2.refCount =
      if 0 < s.refCount then s.refCount - 1 else s.refCount := by
  rw [closeDecr_snd]; exact decr_refCount hI

theorem closes_method (s : DriverSystem) (m : DriverState.Call) :
    (s.method m).closes = s.closes := by
  have hm : m.events.count (.closed hipFileSuccess) = 0 := by cases m <;> rfl
  simp only [closes, method, List.count_append, hm, Nat.add_zero]

/-- What is left of the increments when the successful closes are taken off. -/
def surplus (s : DriverSystem) : ℤ := s.driver.refCount - (s.increments - s.closes)

/-- **A step leaves the surplus**, or it is a decrement without a reference. -/
theorem surplus_step (hI : Inv s.driver) (h : Moves s a s') :
    s'.surplus = s.surplus ∧ (a = .closeDecr → 0 < s.driver.refCount) ∨
      s'.surplus = s.surplus + 1 ∧ a = .closeDecr ∧ ¬ 0 < s.driver.refCount := by
  cases h with
  | stays p ha => exact Or.inl ⟨rfl, fun h => absurd h ha⟩
  | method p m ha hm hm' =>
    have hrc := Call.apply_refCount hm s.driver
    have hcl := closes_method s m
    refine Or.inl ⟨?_, fun h => absurd h ha⟩
    simp only [surplus, closes, method] at hcl ⊢
    rw [hrc, hcl]
    push_cast
    omega
  | opened =>
    have hrc : (DriverState.incrRefCount s.driver).2.refCount = s.driver.refCount + 1 := rfl
    refine Or.inl ⟨?_, nofun⟩
    simp only [surplus, closes, hrc, List.count_append, List.count_singleton]
    push_cast
    simp
    omega
  | counted =>
    refine Or.inl ⟨?_, nofun⟩
    simp [surplus, closes]
  | refused h0 =>
    refine Or.inl ⟨?_, nofun⟩
    simp [surplus, closes, hipFileSuccess]
  | closed p =>
    have hrc := closeDecr_refCount hI
    have hcl : (s.log ++ [DriverEvent.closed (hipFileDriverCloseDecr s.driver).1]).count
        (DriverEvent.closed hipFileSuccess) = s.closes + 1 := by
      rw [closeDecr_fst hI, List.count_append, List.count_singleton_self]
      rfl
    unfold surplus closes at *
    rw [hrc, hcl]
    -- the log gains a close either way, the count loses one only if it has one
    by_cases h0 : 0 < s.driver.refCount
    · refine Or.inl ⟨?_, fun _ => h0⟩
      rw [if_pos h0]; push_cast; omega
    · refine Or.inr ⟨?_, rfl, h0⟩
      rw [if_neg h0]; push_cast; omega

/-- **A step keeps the log a log of the atomic driver**, if a close finds its reference. -/
theorem atomic_step (hI : Inv s.driver) (h : Moves s a s') (hA : Atomic s)
    (hg : a = .closeDecr → 0 < s.driver.refCount) : Atomic s' := by
  unfold Atomic at hA ⊢
  cases h with
  | stays p ha => exact hA
  | method p m ha hm hm' =>
    simp only [method]
    rw [Machine.run_append, hA]
    exact Call.events_run hm hm' s.driver
  | opened =>
    rw [Machine.run_concat, hA]
    rfl
  | counted =>
    rw [Machine.run_concat, hA]
    simp [atomicDriver, DriverEvent.apply]
  | refused h0 =>
    have h0' : s.driver.refCount = 0 := by have := hI.nonneg; omega
    rw [Machine.run_concat, hA]
    simp [atomicDriver, DriverEvent.apply, h0']
  | closed p =>
    have hpos := hg rfl
    have hne : s.driver.refCount ≠ 0 := by omega
    rw [Machine.run_concat, hA, closeDecr_refCount hI, if_pos hpos, closeDecr_fst hI]
    simp [atomicDriver, DriverEvent.apply, hne]

/-- A successful close without a reference is no call of the atomic driver. -/
theorem not_atomic_step (hI : Inv s.driver) (h : Moves s a s') (hA : Atomic s)
    (ha : a = .closeDecr) (h0 : ¬ 0 < s.driver.refCount) :
    atomicDriver.run 0 s'.log = none := by
  subst ha
  have h0' : s.driver.refCount = 0 := by have := hI.nonneg; omega
  unfold Atomic at hA
  cases h with
  | stays p ha => exact absurd rfl ha
  | method p m ha => exact absurd rfl ha
  | closed p =>
    rw [Machine.run_concat, hA, closeDecr_fst hI]
    simp [atomicDriver, DriverEvent.apply, h0', hipFileSuccess]

/-- A log that is none of the atomic driver stays none. -/
theorem log_none_step (h : Moves s a s') (hn : atomicDriver.run 0 s.log = none) :
    atomicDriver.run 0 s'.log = none := by
  have happend (es : List DriverEvent) : atomicDriver.run 0 (s.log ++ es) = none := by
    rw [Machine.run_append, hn]; rfl
  cases h with
  | stays p ha => exact hn
  | _ => exact happend _

variable {ls : List (ℕ × DriverAction)}

theorem exact_iff_runMeets (hs : machine.run machine.init ls = some s) :
    Exact s ↔ machine.RunMeets HasReference machine.init ls := by
  have hzero : ∀ s : DriverSystem, Exact s ↔ s.surplus = 0 := fun s => by
    unfold Exact surplus; omega
  rw [hzero]
  refine Machine.runMeets_iff (I := fun s => Inv s.driver) (P := fun s => s.surplus = 0)
    (Q := fun s => 0 < s.surplus) ?_ ?_ ?_ ?_ ?_ Inv.init rfl hs
  · intro s l s' hI hst
    exact inv_of_moves hI (step_moves hst)
  · intro s l s' hI hp hg hst
    rcases surplus_step hI (step_moves hst) with ⟨hsur, -⟩ | ⟨-, hbad⟩
    · exact hsur.trans hp
    · exact absurd (hg hbad.1) hbad.2
  · intro s l s' hI hp hg hst
    rcases surplus_step hI (step_moves hst) with ⟨-, hok⟩ | ⟨hsur, -⟩
    · exact absurd hok hg
    · omega
  · intro s l s' hI hq hst
    rcases surplus_step hI (step_moves hst) with ⟨hsur, -⟩ | ⟨hsur, -⟩ <;> omega
  · intro s hq hp
    omega

theorem atomic_iff_runMeets (hs : machine.run machine.init ls = some s) :
    Atomic s ↔ machine.RunMeets HasReference machine.init ls := by
  refine Machine.runMeets_iff (I := fun s => Inv s.driver) (P := Atomic)
    (Q := fun s => atomicDriver.run 0 s.log = none) ?_ ?_ ?_ ?_ ?_ Inv.init rfl hs
  · intro s l s' hI hst
    exact inv_of_moves hI (step_moves hst)
  · intro s l s' hI hp hg hst
    exact atomic_step hI (step_moves hst) hp hg
  · intro s l s' hI hp hg hst
    have hg' := Classical.not_imp.1 hg
    exact not_atomic_step hI (step_moves hst) hp hg'.1 hg'.2
  · intro s l s' hI hq hst
    exact log_none_step (step_moves hst) hq
  · intro s hq hp
    unfold Atomic at hp
    rw [hq] at hp
    cases hp

/-- **When each successful close has released one open**, and the calls have taken
effect at once: when no close has come to its decrement after the last reference. -/
theorem closes_exact_iff (ls : List (ℕ × DriverAction)) (s : DriverSystem)
    (hs : machine.run machine.init ls = some s) :
    (Exact s ↔ machine.RunMeets HasReference machine.init ls) ∧
      (Atomic s ↔ machine.RunMeets HasReference machine.init ls) :=
  ⟨exact_iff_runMeets hs, atomic_iff_runMeets hs⟩

/-- Two opens, and two closes whose tests both come before the decrements. -/
def twoOpens : List (ℕ × DriverAction) :=
  [(0, .driverOpen), (1, .driverOpen), (0, .closeTest), (1, .closeTest), (1, .closeDecr),
    (0, .closeDecr)]

/-- The same with one open. -/
def oneOpen : List (ℕ × DriverAction) :=
  [(0, .driverOpen), (0, .closeTest), (1, .closeTest), (1, .closeDecr), (0, .closeDecr)]

theorem twoOpens_meets : machine.RunMeets HasReference machine.init twoOpens := by
  refine And.intro nofun (And.intro nofun (And.intro nofun (And.intro nofun ?_)))
  exact And.intro (fun _ => by decide) (And.intro (fun _ => by decide) trivial)

theorem closes_exact_twoOpens :
    ∃ s, machine.run machine.init twoOpens = some s ∧ s.closes = 2 ∧ Exact s ∧ Atomic s :=
  ⟨_, rfl, by decide, (closes_exact_iff twoOpens _ rfl).1.2 twoOpens_meets,
    (closes_exact_iff twoOpens _ rfl).2.2 twoOpens_meets⟩

/-- **Two closes of one open both succeed.** -/
theorem not_closes_exact_oneOpen :
    ∃ s, machine.run machine.init oneOpen = some s ∧ (∀ t, s.point t = .idle) ∧
      s.increments = 1 ∧ s.closes = 2 ∧ ¬ Exact s ∧ ¬ Atomic s := by
  refine ⟨_, rfl, ?_, by decide, by decide, ?_, ?_⟩
  · intro t
    by_cases h0 : t = 0 <;> by_cases h1 : t = 1 <;>
      simp [goto, machine, init, h0, h1]
  · unfold Exact; decide
  · unfold Atomic; decide

end DriverSystem

end HipFile
