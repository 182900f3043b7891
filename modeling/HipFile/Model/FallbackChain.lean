import HipFile.Lib.Machine
import HipFile.Model.BackendWithFallback

/-!
# Backends that are registered with each other

A `BackendWithFallback` can be given any other backend as its fallback, one with a fallback
of its own included, and can be given another one later. The objects go by names, and
`fallbackBackend` has the registered backend of each.

* `BackendObjects.io`: `io` of an object, with at most so many calls inside each other. It
  keeps a list of the objects whose `_io_impl` has been called.
* `BackendObjects.machine`: the registrations.
-/

namespace HipFile

variable {ω ι : Type}

/-- The arguments of a backend's `io`. -/
structure BackendArgs where
  type : IoType
  file : IFile
  buffer : IBuffer
  size : ℕ
  fileOffset : ℤ
  bufferOffset : ℤ
  deriving DecidableEq, Repr

/-- The virtual functions of a backend: any of them may throw. -/
structure BackendMethods (ω : Type) where
  ioImpl : IoImpl ω ℤ
  score : IFile → IBuffer → ℕ → ℤ → ℤ → Prog Exn ω ℤ
  isFallbackEligible : Exn → ℤ → Prog Exn ω Bool

/-- Objects, some of which are a `BackendWithFallback`. -/
structure BackendObjects (ι ω : Type) where
  withFallback : ι → Bool
  methods : ι → BackendMethods ω

namespace BackendObjects

/-- A call of `io`, on a world and the list of the objects tried. It gives nothing where it
takes more calls inside each other than allowed. -/
abbrev Io (ι ω : Type) := ω × List ι → Option (Except Exn ℤ × (ω × List ι))

/-- The `catch` clause of `BackendWithFallback::io`, where `io` is that of the backends. -/
def failover (objects : BackendObjects ι ω) (fallbackBackend : Option ι) (args : BackendArgs)
    (this : ι) (e : Exn) (nbytes : ℤ) (io : ι → Io ι ω) : Io ι ω := fun (w, tried) =>
  match fallbackBackend with
  | none => some (.error e, w, tried)
  | some backend =>
    match (objects.methods this).isFallbackEligible e nbytes w with
    | (.error e', w) => some (.error e', w, tried)
    | (.ok false, w) => some (.error e, w, tried)
    | (.ok true, w) =>
      match (objects.methods backend).score args.file args.buffer args.size args.fileOffset
          args.bufferOffset w with
      | (.error e', w) => some (.error e', w, tried)
      | (.ok score, w) => if 0 ≤ score then io backend (w, tried) else some (.error e, w, tried)

/-- `Backend::io` and `BackendWithFallback::io` of the object `this`. -/
def io (objects : BackendObjects ι ω) (fallbackBackend : ι → Option ι) (args : BackendArgs) :
    ℕ → ι → Io ι ω
  | 0, _ => fun _ => none
  | depth + 1, this => fun (w, tried) =>
    let r := (objects.methods this).ioImpl args.type args.file args.buffer args.size
      args.fileOffset args.bufferOffset w
    let tried := tried ++ [this]
    if objects.withFallback this then
      match r.1 >>= throwNegative with
      | .ok nbytes => some (.ok nbytes, r.2, tried)
      -- `nbytes` is still 0 where `_io_impl` has thrown
      | .error e => objects.failover (fallbackBackend this) args this e (r.1.toOption.getD 0)
          (objects.io fallbackBackend args depth) (r.2, tried)
    else some (r.1, r.2, tried)

/-! ## Registrations -/

/-- A call of `register_fallback_backend` on `this`, of a null pointer or of a backend. -/
structure Registration (ι : Type) where
  this : ι
  backend : Option ι
  deriving DecidableEq, Repr

variable [DecidableEq ι]

/-- `BackendWithFallback::register_fallback_backend` -/
def registerFallbackBackend (fallbackBackend : ι → Option ι) (r : Registration ι) :
    Except Exn (ι → Option ι) :=
  match r.backend with
  | none => .error (.invalidArgument "Cannot register a nullptr as a fallback backend.")
  | some backend =>
    if backend = r.this then
      .error (.invalidArgument "Cannot register a backend as it's own fallback.")
    else .ok (Function.update fallbackBackend r.this (some backend))

/-- **The registrations**, of those objects that have the method. -/
def machine (withFallback : ι → Bool) : Machine (ι → Option ι) (Registration ι) where
  init := fun _ => none
  step fallbackBackend r :=
    if withFallback r.this then
      match registerFallbackBackend fallbackBackend r with
      | .error _ => some fallbackBackend
      | .ok fallbackBackend => some fallbackBackend
    else none

end BackendObjects

end HipFile
