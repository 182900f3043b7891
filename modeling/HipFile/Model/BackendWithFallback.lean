import HipFile.Model.Backend

/-!
# Backends that record their calls, and the backend with a fallback

`BackendWithFallback.io` is `BackendWithFallback::io`, for any `_io_impl`: the fast path is one
(`Fastpath.backend_eq`).

A backend that records keeps, beside its world, the list of the `io` calls made.
-/

namespace HipFile

variable {ω ι : Type}

/-! ## Recorded calls -/

/-- A call of a backend's `io` or `_io_impl`, by the name of what is called. -/
structure IoCall (ι : Type) where
  name : ι
  type : IoType
  file : IFile
  buffer : IBuffer
  size : ℕ
  fileOffset : ℤ
  bufferOffset : ℤ
  deriving DecidableEq, Repr

/-- The arguments and the result of `io` and `_io_impl`. -/
abbrev IoImpl (ω α : Type) :=
  IoType → IFile → IBuffer → ℕ → ℤ → ℤ → Prog Exn ω α

/-- The call is added to the record before it is made. -/
def IoImpl.recorded {α : Type} (name : ι) (impl : IoImpl ω α) :
    IoImpl (ω × List (IoCall ι)) α := fun type file buffer size fileOffset bufferOffset s =>
  let r := impl type file buffer size fileOffset bufferOffset s.1
  (r.1, r.2, s.2 ++ [⟨name, type, file, buffer, size, fileOffset, bufferOffset⟩])

/-- A backend that records. -/
def Backend.recorded (name : ι) (backend : Backend ω) : Backend (ω × List (IoCall ι)) where
  score := backend.score
  io := IoImpl.recorded name backend.io

/-! ## The backend with a fallback -/

/-- `BackendWithFallback` -/
structure BackendWithFallback (ω : Type) where
  score : IFile → IBuffer → ℕ → ℤ → ℤ → ℤ
  ioImpl : IoImpl ω ℤ
  isFallbackEligible : Exn → Bool
  fallbackBackend : Option (Backend ω)

namespace BackendWithFallback

/-- `BackendWithFallback::register_fallback_backend`, of a null pointer, of the backend itself,
or of another. -/
def registerFallbackBackend (this : BackendWithFallback ω) (isThis : Bool)
    (backend : Option (Backend ω)) : Except Exn (BackendWithFallback ω) :=
  match backend with
  | none => .error (.invalidArgument "Cannot register a nullptr as a fallback backend.")
  | some backend =>
    if isThis then
      .error (.invalidArgument "Cannot register a backend as it's own fallback.")
    else .ok { this with fallbackBackend := some backend }

/-- The `catch` clause of `BackendWithFallback::io`. -/
def failover (this : BackendWithFallback ω) (e : Exn) : IoImpl ω ℕ :=
  fun type file buffer size fileOffset bufferOffset w =>
    match this.fallbackBackend with
    | none => (.error e, w)
    | some backend =>
      if this.isFallbackEligible e = true ∧
          0 ≤ backend.score file buffer size fileOffset bufferOffset then
        backend.io type file buffer size fileOffset bufferOffset w
      else (.error e, w)

/-- `BackendWithFallback::io` -/
def io (this : BackendWithFallback ω) : IoImpl ω ℕ :=
  fun type file buffer size fileOffset bufferOffset w =>
    let r := this.ioImpl type file buffer size fileOffset bufferOffset w
    match r.1 >>= throwNegative with
    | .ok n => (.ok n, r.2)
    | .error e => this.failover e type file buffer size fileOffset bufferOffset r.2

/-- The backend that the selection sees. -/
def toBackend (this : BackendWithFallback ω) : Backend ω := ⟨this.score, this.io⟩

end BackendWithFallback

/-- `Fastpath`, before a fallback is registered. -/
def Fastpath.withoutFallback (env : Env) : BackendWithFallback Served where
  score := Fastpath.score env
  ioImpl := Fastpath.serve env
  isFallbackEligible := Fastpath.isFallbackEligible
  fallbackBackend := none

/-- **The fast path is the backend with a fallback**, once one has been registered. -/
theorem Fastpath.backend_eq (env : Env) (fallbackBackend : Backend Served) :
    ((Fastpath.withoutFallback env).registerFallbackBackend false (some fallbackBackend)).map
      BackendWithFallback.toBackend = .ok (Fastpath.backend env fallbackBackend) := rfl

end HipFile
