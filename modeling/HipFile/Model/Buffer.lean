import Mathlib.Logic.Function.Basic
import HipFile.Lib.Prog
import HipFile.Model.Io

/-!
# Buffers and the buffer map

The HIP runtime's answers about pointers are parameters. A buffer is constructed
for registration, with the client's length, or as a temporary, with the rest of
the allocation as its length.
-/

namespace HipFile

/-- `hipPointerAttribute_t` -/
structure HipPointerAttribute where
  type : HipMemoryType
  device : ℤ
  deriving DecidableEq, Repr

/-- `HipMemAddressRange` -/
structure HipMemAddressRange where
  base : ℕ
  size : ℕ
  deriving DecidableEq, Repr

/-- The HIP runtime's answers about pointers and streams. -/
structure HipQueries where
  hipPointerGetAttributes : ℕ → Except HipError HipPointerAttribute
  hipMemGetAddressRange : ℕ → Except HipError HipMemAddressRange
  hipStreamGetDevice : ℕ → Except HipError ℤ

/-- `isValidBufferRegion` -/
def isValidBufferRegion (hip : HipQueries) (ptr length : ℕ) : Except Exn Bool :=
  match hip.hipMemGetAddressRange ptr with
  | .error e =>
    if e = .notFound then .error (.invalidArgument "Buffer pointer not found.")
    else .error (.hipRuntimeError e)
  | .ok range =>
    -- `ptr + length` would wrap
    if wordModulus - 1 - ptr < length then .ok false
    else if (range.base + range.size) % wordModulus < ptr + length then .ok false
    else .ok true

namespace Buffer

/-- What the two constructors of `Buffer` begin with: the pointer is not null and
points to device memory. -/
def deviceAttributes (hip : HipQueries) (buffer : ℕ) : Except Exn HipPointerAttribute :=
  if buffer = 0 then .error (.invalidArgument "Buffer pointer cannot be null.")
  else
    match hip.hipPointerGetAttributes buffer with
    | .error e => .error (.hipRuntimeError e)
    | .ok attrs => if attrs.type ≠ .device then .error .invalidMemoryType else .ok attrs

/-- `Buffer::Buffer(buffer, length, flags)`, a buffer to register. -/
def registered (hip : HipQueries) (buffer length : ℕ) (flags : ℤ) : Except Exn IBuffer :=
  match deviceAttributes hip buffer with
  | .error e => .error e
  | .ok attrs =>
    match isValidBufferRegion hip buffer length with
    | .error e => .error e
    | .ok false => .error .invalidPointerRange
    | .ok true => .ok ⟨buffer, length, flags, attrs.type, attrs.device⟩

/-- `Buffer::Buffer(buffer)`, a temporary buffer: the rest of the allocation. -/
def temporary (hip : HipQueries) (buffer : ℕ) : Except Exn IBuffer :=
  match deviceAttributes hip buffer with
  | .error e => .error e
  | .ok attrs =>
    match hip.hipMemGetAddressRange buffer with
    | .error e => .error (.hipRuntimeError e)
    | .ok range =>
      .ok ⟨buffer, toSizeT (range.size - (buffer - range.base)), 0, attrs.type, attrs.device⟩

end Buffer

/-- `BufferMap` -/
structure BufferMap where
  fromPtr : ℕ → Option IBuffer

namespace BufferMap

/-- The map without buffers, as constructed and as `clear` leaves it. -/
def empty : BufferMap := ⟨fun _ => none⟩

/-- `BufferMap::registerBuffer` -/
def registerBuffer (hip : HipQueries) (buf length : ℕ) (flags : ℤ) : Prog Exn BufferMap Unit :=
  fun m =>
    if (m.fromPtr buf).isSome then (.error .bufferAlreadyRegistered, m)
    else
      match Buffer.registered hip buf length flags with
      | .error e => (.error e, m)
      | .ok buffer => (.ok (), ⟨Function.update m.fromPtr buf (some buffer)⟩)

/-- `BufferMap::deregisterBuffer`, of a buffer with `useCount` references. -/
def deregisterBuffer (buf useCount : ℕ) : Prog Exn BufferMap Unit := fun m =>
  match m.fromPtr buf with
  | none => (.error .bufferNotRegistered, m)
  | some _ =>
    -- the map holds one reference
    if 1 < useCount then (.error .bufferOperationsOutstanding, m)
    else (.ok (), ⟨Function.update m.fromPtr buf none⟩)

/-- `BufferMap::getRegisteredBuffer` -/
def getRegisteredBuffer (buf : ℕ) : Prog Exn BufferMap IBuffer := fun m =>
  match m.fromPtr buf with
  | none => (.error .bufferNotRegistered, m)
  | some buffer => (.ok buffer, m)

/-- `BufferMap::getBuffer` -/
def getBuffer (hip : HipQueries) (buf : ℕ) : Prog Exn BufferMap IBuffer := fun m =>
  match m.fromPtr buf with
  -- a temporary buffer is not put into the map
  | none => (Buffer.temporary hip buf, m)
  | some buffer => (.ok buffer, m)

/-- A failed registration leaves the map as it was. -/
theorem registerBuffer_error {hip : HipQueries} {buf length : ℕ} {flags : ℤ} {m m' : BufferMap}
    {e : Exn} (h : registerBuffer hip buf length flags m = (.error e, m')) : m' = m := by
  unfold registerBuffer at h
  split at h
  · cases h; rfl
  · split at h <;> cases h
    rfl

end BufferMap

end HipFile
