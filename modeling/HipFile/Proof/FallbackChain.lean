import Mathlib.Data.List.Nodup
import HipFile.Lib.Links
import HipFile.Model.FallbackChain
import HipFile.Proof.Failover

/-!
# Retrying along the registered backends

* `io_cases`: a call of `io` ends the request, or hands it to the registered backend.
* `io_retried`: with one plain fallback, `io` is that of `BackendWithFallback`.
* `EndsOnce`: a request ends, and calls each `_io_impl` at most once, whatever the virtual
  functions do.
* `endsOnce_iff`: that is the case exactly if every chain of registered backends ends.
* `endsOnce_run_iff`: it is so in every state of a run of registrations exactly if none of
  them registers a backend from which the chain leads back.
-/

namespace HipFile.BackendObjects

open Links

variable {ω ι : Type} {objects : BackendObjects ι ω} {fallbackBackend : ι → Option ι}
  {args : BackendArgs} {this backend : ι}

/-- The catch clause ends the request, or hands it to the registered backend. -/
theorem failover_cases (objects : BackendObjects ι ω) (next : Option ι) (args : BackendArgs)
    (this : ι) (e : Exn) (nbytes : ℤ) (w : ω) (tried : List ι) :
    (∃ out w', ∀ io, objects.failover next args this e nbytes io (w, tried) =
      some (out, w', tried)) ∨
    ∃ backend w', next = some backend ∧
      ∀ io, objects.failover next args this e nbytes io (w, tried) = io backend (w', tried) := by
  unfold failover
  cases next with
  | none => exact Or.inl ⟨_, _, fun _ => rfl⟩
  | some backend =>
    simp only
    split
    · exact Or.inl ⟨_, _, fun _ => rfl⟩
    · exact Or.inl ⟨_, _, fun _ => rfl⟩
    · split
      · exact Or.inl ⟨_, _, fun _ => rfl⟩
      · split
        · exact Or.inr ⟨backend, _, rfl, fun _ => rfl⟩
        · exact Or.inl ⟨_, _, fun _ => rfl⟩

/-- **A call of `io`** ends the request, or hands it to the registered backend. -/
theorem io_cases (objects : BackendObjects ι ω) (fallbackBackend : ι → Option ι)
    (args : BackendArgs)
    (this : ι) (w : ω) (tried : List ι) :
    (∃ out w', ∀ depth, objects.io fallbackBackend args (depth + 1) this (w, tried) =
      some (out, w', tried ++ [this])) ∨
    ∃ backend w', fallbackBackend this = some backend ∧
      ∀ depth, objects.io fallbackBackend args (depth + 1) this (w, tried) =
        objects.io fallbackBackend args depth backend (w', tried ++ [this]) := by
  simp only [io]
  split
  · split
    · exact Or.inl ⟨_, _, fun _ => rfl⟩
    · rename_i e _
      rcases failover_cases objects (fallbackBackend this) args this e
          (((objects.methods this).ioImpl args.type args.file args.buffer args.size
            args.fileOffset args.bufferOffset w).1.toOption.getD 0) _ (tried ++ [this]) with
        ⟨out, w', h⟩ | ⟨backend, w', hlink, h⟩
      · exact Or.inl ⟨out, w', fun depth => h _⟩
      · exact Or.inr ⟨backend, w', hlink, fun depth => h _⟩
  · exact Or.inl ⟨_, _, fun _ => rfl⟩

/-- A backend as an object that is no `BackendWithFallback`. -/
def plain (backend : Backend ω) : BackendMethods ω where
  ioImpl type file buffer size fileOffset bufferOffset w :=
    let r := backend.io type file buffer size fileOffset bufferOffset w
    (r.1.map Nat.cast, r.2)
  score file buffer size fileOffset bufferOffset w :=
    (.ok (backend.score file buffer size fileOffset bufferOffset), w)
  isFallbackEligible _ _ w := (.ok false, w)

/-- A `BackendWithFallback` as an object. -/
def retried (this : BackendWithFallback ω) : BackendMethods ω where
  ioImpl := this.ioImpl
  score file buffer size fileOffset bufferOffset w :=
    (.ok (this.score file buffer size fileOffset bufferOffset), w)
  isFallbackEligible e _ w := (.ok (this.isFallbackEligible e), w)

/-- **With one plain fallback** `io` is that of the backend with a fallback. -/
theorem io_retried (this : BackendWithFallback ω) (backend : Backend ω) (args : BackendArgs)
    (w : ω) :
    let objects : BackendObjects Attempt ω := ⟨fun a => a = .primary, fun
      | .primary => retried this
      | .fallback => plain backend⟩
    let out := ({ this with fallbackBackend := some backend } : BackendWithFallback ω).io args.type
      args.file args.buffer args.size args.fileOffset args.bufferOffset w
    ∃ tried, objects.io (fun
      | .primary => some .fallback
      | .fallback => none) args 2 .primary (w, []) = some (out.1.map Nat.cast, out.2, tried) := by
  intro objects out
  simp only [io, objects, out, retried, plain, failover, BackendWithFallback.io,
    BackendWithFallback.failover]
  generalize this.ioImpl args.type args.file args.buffer args.size args.fileOffset
    args.bufferOffset w = r
  rcases r with ⟨r, w'⟩
  simp only
  cases h : r >>= throwNegative with
  | ok n => exact ⟨_, rfl⟩
  | error e =>
    simp only [decide_true, if_true]
    by_cases heligible : this.isFallbackEligible e = true
    · simp only [heligible, true_and]
      split <;> exact ⟨_, rfl⟩
    · simp only [Bool.not_eq_true] at heligible
      simp only [heligible, Bool.false_eq_true, false_and, if_false]
      exact ⟨_, rfl⟩

/-! ## Chains that end, and others -/

/-- **Along a chain that ends** the request ends, and each object is tried at most once. -/
theorem io_ends (objects : BackendObjects ι ω) (args : BackendArgs)
    (h : Ends fallbackBackend this) : ∀ w tried, ∃ depth out w' visited,
      objects.io fallbackBackend args depth this (w, tried) =
        some (out, w', tried ++ visited) ∧
      visited.Nodup ∧ ∀ x ∈ visited, Leads fallbackBackend this x := by
  induction h with
  | intro this hthis ih =>
    intro w tried
    have hself : ∀ x ∈ [this], Leads fallbackBackend this x := by
      intro x hx
      rw [List.mem_singleton.1 hx]
      exact .refl
    rcases io_cases objects fallbackBackend args this w tried with
      ⟨out, w', h⟩ | ⟨backend, w', hlink, h⟩
    · exact ⟨1, out, w', [this], h 0, List.nodup_singleton this, hself⟩
    · obtain ⟨depth, out, w'', visited, hio, hnodup, hleads⟩ :=
        ih backend hlink w' (tried ++ [this])
      refine ⟨depth + 1, out, w'', this :: visited, ?_, ?_, ?_⟩
      · rw [h depth, hio, List.append_assoc]
        rfl
      · -- the chain does not come back to `this`
        have hends : Ends fallbackBackend this := Acc.intro this hthis
        refine List.nodup_cons.2 ⟨fun hmem => ?_, hnodup⟩
        exact hends.not_leads backend hlink (hleads this hmem)
      · intro x hx
        rcases List.mem_cons.1 hx with rfl | hx
        · exact .refl
        · exact (hleads x hx).head hlink

/-- Objects that always fail, and are always retried. -/
def failing (withFallback : ι → Bool) : BackendObjects ι Unit where
  withFallback := withFallback
  methods _ :=
    { ioImpl := fun _ _ _ _ _ _ w => (.error (.systemError ENODEV), w)
      score := fun _ _ _ _ _ w => (.ok 0, w)
      isFallbackEligible := fun _ _ w => (.ok true, w) }

/-- Only a `BackendWithFallback` has a registered backend. -/
def Typed (withFallback : ι → Bool) (fallbackBackend : ι → Option ι) : Prop :=
  ∀ i backend, fallbackBackend i = some backend → withFallback i = true

/-- **Along a chain that does not end** there is a request that never ends. -/
theorem io_failing {withFallback : ι → Bool} (htyped : Typed withFallback fallbackBackend)
    (args : BackendArgs) : ∀ depth this tried, ¬ Ends fallbackBackend this →
      (failing withFallback).io fallbackBackend args depth this ((), tried) = none := by
  intro depth
  induction depth with
  | zero =>
    intro this tried _
    rfl
  | succ depth ih =>
    intro this tried hthis
    obtain ⟨backend, hlink, hbackend⟩ := exists_next_of_not_ends hthis
    have hkind : (failing withFallback).withFallback this = true := htyped this backend hlink
    have hhanded : (failing withFallback).io fallbackBackend args (depth + 1) this ((), tried) =
        (failing withFallback).io fallbackBackend args depth backend ((), tried ++ [this]) := by
      simp only [io]
      rw [if_pos hkind, hlink]
      rfl
    rw [hhanded]
    exact ih backend (tried ++ [this]) hbackend

/-! ## Requests that end -/

/-- **Retrying ends**: whatever the virtual functions do, a request to any of the objects ends,
and has called each `_io_impl` at most once. -/
def EndsOnce (withFallback : ι → Bool) (fallbackBackend : ι → Option ι) : Prop :=
  ∀ (ω : Type) (methods : ι → BackendMethods ω) (args : BackendArgs) (this : ι) (w : ω),
    ∃ depth out w' tried,
      io ⟨withFallback, methods⟩ fallbackBackend args depth this (w, []) =
        some (out, w', tried) ∧ tried.Nodup

/-- Some arguments. -/
def someArgs : BackendArgs :=
  ⟨.read, ⟨0, 0, 0, none, 0, 0, false, false, false, false⟩, ⟨0, 0, 0, .device, 0⟩, 0, 0, 0⟩

theorem endsOnce_iff {withFallback : ι → Bool} (htyped : Typed withFallback fallbackBackend) :
    EndsOnce withFallback fallbackBackend ↔ AllEnd fallbackBackend := by
  constructor
  · intro h this
    by_contra hthis
    obtain ⟨depth, out, w', tried, hio, -⟩ :=
      h Unit (failing withFallback).methods someArgs this ()
    have hnone := io_failing htyped someArgs depth this [] hthis
    cases hnone.symm.trans hio
  · intro h ω methods args this w
    obtain ⟨depth, out, w', visited, hio, hnodup, -⟩ :=
      io_ends ⟨withFallback, methods⟩ args (h this) w []
    exact ⟨depth, out, w', visited, hio, hnodup⟩

/-! ## Registrations -/

variable [DecidableEq ι] {withFallback : ι → Bool} {fallbackBackend' : ι → Option ι}
  {r : Registration ι}

/-- A registration is refused, or links two different objects. -/
theorem step_cases (h : (machine withFallback).step fallbackBackend r = some fallbackBackend') :
    withFallback r.this = true ∧
      ((fallbackBackend' = fallbackBackend ∧ ∀ backend, r.backend = some backend →
          backend = r.this) ∨
        ∃ backend, r.backend = some backend ∧ backend ≠ r.this ∧
          fallbackBackend' = Function.update fallbackBackend r.this (some backend)) := by
  simp only [machine, Option.ite_none_right_eq_some] at h
  obtain ⟨hkind, h⟩ := h
  refine ⟨hkind, ?_⟩
  unfold registerFallbackBackend at h
  cases hr : r.backend with
  | none =>
    rw [hr] at h
    exact Or.inl ⟨(Option.some.inj h).symm, fun _ => nofun⟩
  | some backend =>
    rw [hr] at h
    by_cases hself : backend = r.this
    · simp only [if_pos hself] at h
      refine Or.inl ⟨(Option.some.inj h).symm, fun b hb => ?_⟩
      obtain rfl := Option.some.inj hb
      exact hself
    · simp only [if_neg hself] at h
      exact Or.inr ⟨backend, rfl, hself, (Option.some.inj h).symm⟩

theorem typed_step (htyped : Typed withFallback fallbackBackend)
    (h : (machine withFallback).step fallbackBackend r = some fallbackBackend') :
    Typed withFallback fallbackBackend' := by
  obtain ⟨hkind, ⟨rfl, -⟩ | ⟨backend, -, -, rfl⟩⟩ := step_cases h
  · exact htyped
  · intro i b hb
    by_cases hi : i = r.this
    · rw [hi]
      exact hkind
    · rw [Function.update_of_ne hi] at hb
      exact htyped i b hb

/-- **The registration closes no circle**: if it is accepted, the chain of registered backends
does not lead from the new fallback to the object that gets it. -/
def ClosesNoCircle (fallbackBackend : ι → Option ι) (r : Registration ι) : Prop :=
  ∀ backend, r.backend = some backend → backend ≠ r.this →
    ¬ Leads fallbackBackend backend r.this

/-- What a registration does to the chains. -/
theorem allEnd_step (hall : AllEnd fallbackBackend)
    (h : (machine withFallback).step fallbackBackend r = some fallbackBackend') :
    AllEnd fallbackBackend' ↔ ClosesNoCircle fallbackBackend r := by
  obtain ⟨-, ⟨rfl, hself⟩ | ⟨backend, hr, hne, rfl⟩⟩ := step_cases h
  · exact iff_of_true hall fun backend hb hne => absurd (hself backend hb) hne
  · rw [allEnd_update_iff hall]
    constructor
    · intro hlead b hb _
      obtain rfl := Option.some.inj (hr.symm.trans hb)
      exact hlead
    · intro hcircle
      exact hcircle backend hr hne

/-- **When retrying ends**: in every state of a run of registrations requests end, and call each
`_io_impl` at most once, exactly if no accepted registration closes a circle. -/
theorem endsOnce_run_iff (withFallback : ι → Bool) (rs : List (Registration ι))
    (fallbackBackend : ι → Option ι)
    (hrun : (machine withFallback).run (machine withFallback).init rs = some fallbackBackend) :
    (machine withFallback).RunKeeps (EndsOnce withFallback) (machine withFallback).init rs ↔
      (machine withFallback).RunMeets ClosesNoCircle (machine withFallback).init rs := by
  have htyped : Typed withFallback (machine withFallback).init := fun _ _ => nofun
  have hinit : AllEnd (machine withFallback).init := fun _ => Ends.of_none rfl
  refine Machine.runKeeps_iff (fun _ _ _ => typed_step) ?_ htyped
    ((endsOnce_iff htyped).2 hinit) hrun
  intro s r s' hs hends hst
  rw [endsOnce_iff (typed_step hs hst)]
  exact allEnd_step ((endsOnce_iff hs).1 hends) hst

/-- The fast path gets the fallback, as in `DriverState::getBackends`. -/
theorem endsOnce_run_getBackends : (machine fun path : Path => path = .fastPath).RunKeeps
    (EndsOnce fun path : Path => path = .fastPath) (fun _ => none)
    [⟨Path.fastPath, some Path.fallbackPath⟩] := by
  refine (endsOnce_run_iff _ [⟨Path.fastPath, some Path.fallbackPath⟩] _ rfl).2 ⟨?_, trivial⟩
  rintro backend ⟨⟩ - hlead
  rcases Relation.ReflTransGen.cases_head hlead with h | ⟨c, hc, -⟩
  · cases h
  · cases hc

/-- Two backends that are registered with each other: both registrations are accepted, and a
request that both fail is retried for ever. -/
theorem not_endsOnce_mutual : ∃ fallbackBackend : Bool → Option Bool,
    (machine fun _ : Bool => true).run (fun _ => none)
        [⟨true, some false⟩, ⟨false, some true⟩] = some fallbackBackend ∧
      ¬ EndsOnce (fun _ => true) fallbackBackend := by
  refine ⟨_, rfl, fun h => ?_⟩
  have hall := (endsOnce_iff fun _ _ _ => rfl).1 h
  exact (hall true).not_leads false rfl (.single rfl)

end HipFile.BackendObjects
