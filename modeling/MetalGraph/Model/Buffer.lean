import MetalGraph.Model.Machine

set_option autoImplicit false

/- Creation and destruction of buffers and events. -/
namespace MetalGraph

open Eff

def deviceImpl (device : Option MgDevice) : Option Nat := device.bind MgDevice.impl

/-- `newBufferWithLength` with shared storage; nil when refused. -/
def newBufferWithLength (device : Nat) (length : UInt64) (hasContents : Bool) :
    Run (Option MetalBuffer) := do
  let granted ← attempt
  if granted then
    let id ← newMetalObject
    pure (some ⟨id, device, length, hasContents⟩)
  else pure none

def mgBufferCreateShared (device : Option MgDevice) (length : UInt64) : Run MgBuffer := do
  let missing := mgSetError .invalidArgument .create mgNodeIdInvalid
    "device, nonzero length, and out_buffer are required"
  let metalDevice ← orFail (deviceImpl device) missing
  require (length ≠ 0) missing
  let created ← newBufferWithLength metalDevice length true
  let metalBuffer ← orFail created
    (mgSetError .backendError .create mgNodeIdInvalid "failed to create Metal buffer")
  attemptOr (mgSetOom .create)
  attemptOr (mgSetOom .create)
  placeObject (fun address =>
    { address := address
      impl := metalBuffer
      deviceImpl := some metalDevice
      length := metalBuffer.length
      byteOffset := 0
      originKind := .libraryOwned
      isZeroCopy := false
      isExternal := false
      isHostVisible := true
      isMutable := true
      sourceFramework := "Metal Graph"
      window := by simp })
    (Object.buffer · none)

inductive MgMetalBufferAccess where
  | read | write | readWrite
  | other (value : Nat)
deriving DecidableEq, Repr

def mgMetalBufferAccessValid : MgMetalBufferAccess → Bool
  | .read | .write | .readWrite => true
  | .other _ => false

def mgMetalBufferAccessWrites : MgMetalBufferAccess → Bool
  | .write | .readWrite => true
  | .read | .other _ => false

def wrapRetainBuffer : UInt32 := (1 : UInt32) <<< 0
def wrapRetainOwner : UInt32 := (1 : UInt32) <<< 1
def wrapHostVisible : UInt32 := (1 : UInt32) <<< 2
def wrapMutable : UInt32 := (1 : UInt32) <<< 3

/-- `ownerRetain` and `ownerRelease` say whether the callbacks are given. -/
structure MgMetalBufferWrapDesc where
  size : UInt64
  buffer : Option MetalBuffer
  byteOffset : UInt64
  byteLength : UInt64
  access : MgMetalBufferAccess
  flags : UInt32
  ownerContext : Option Nat
  ownerRetain : Bool
  ownerRelease : Bool
deriving DecidableEq, Repr

def sizeofMgMetalBufferWrapDesc : UInt64 := 72

def MgMetalBufferWrapDesc.has (desc : MgMetalBufferWrapDesc) (flag : UInt32) : Bool :=
  desc.flags &&& flag != 0

/-- The context of an owner that the wrapper keeps alive. -/
def MgMetalBufferWrapDesc.retainedOwner (desc : MgMetalBufferWrapDesc) : Option Nat :=
  if desc.has wrapRetainOwner then desc.ownerContext else none

def wrapFault (message : String) : Fault :=
  mgSetError .invalidArgument .create mgNodeIdInvalid message

/-- The checks of a wrap descriptor that come before its range. -/
def wrapDescValidateShape (desc : MgMetalBufferWrapDesc) : Except Fault MetalBuffer := do
  demand (desc.size = sizeofMgMetalBufferWrapDesc)
    (wrapFault "Metal buffer wrap descriptor size is invalid")
  match desc.buffer with
  | none => .error (wrapFault "Metal buffer wrap requires a buffer")
  | some metalBuffer => pure metalBuffer

/-- The checks of a wrap descriptor that come between its range and its buffer. -/
def wrapDescValidateFlags (desc : MgMetalBufferWrapDesc) : Except Fault Unit := do
  demand (mgMetalBufferAccessValid desc.access = true)
    (wrapFault "Metal buffer wrap access is invalid")
  demand
    (desc.flags &&& ~~~(wrapRetainBuffer ||| wrapRetainOwner ||| wrapHostVisible ||| wrapMutable)
      = 0)
    (wrapFault "Metal buffer wrap flags are invalid")
  demand (desc.has wrapRetainBuffer = true ∨ desc.has wrapRetainOwner = true)
    (wrapFault "Metal buffer wrap requires retained buffer or owner lifetime")
  demand
    (desc.has wrapRetainOwner = true →
      desc.ownerContext.isSome = true ∧ desc.ownerRetain = true ∧ desc.ownerRelease = true)
    (wrapFault "Metal buffer wrap owner retention is invalid")
  demand
    (desc.has wrapRetainOwner = false →
      desc.ownerContext.isSome = false ∧ desc.ownerRetain = false ∧ desc.ownerRelease = false)
    (wrapFault "Metal buffer wrap owner callbacks require RETAIN_OWNER")
  demand (mgMetalBufferAccessWrites desc.access = true → desc.has wrapMutable = true)
    (wrapFault "Metal buffer wrap write access requires MUTABLE flag")

theorem window_of_wrap_checks {byteOffset byteLength limit : UInt64}
    (bounded : ¬ byteOffset > sizeMax - byteLength) (fits : ¬ byteOffset + byteLength > limit) :
    byteOffset.toNat + byteLength.toNat ≤ limit.toNat := by
  have sum := UInt64.le_iff_toNat_le.mp (UInt64.not_lt.mp fits)
  rwa [toNat_add_of_not_gt bounded] at sum

/-- Calls the retain callback for the wrapper about to be placed. -/
def ownerRetain : Option Nat → Run Unit
  | none => pure ()
  | some context => update fun env =>
    { env with ownerCalls := env.ownerCalls ++ [.retain env.heap.cells.size context] }

def mgMetalBufferWrap (device : Option MgDevice) (desc : Option MgMetalBufferWrapDesc) :
    Run MgBuffer := do
  let missing := wrapFault "device, desc, and out_buffer are required"
  let metalDevice ← orFail (deviceImpl device) missing
  let desc ← orFail desc missing
  let metalBuffer ← ofExcept (wrapDescValidateShape desc)
  let badRange := wrapFault "Metal buffer wrap range is invalid"
  require (desc.byteLength ≠ 0) badRange
  if bounded : desc.byteOffset > sizeMax - desc.byteLength then fail badRange
  else
    ofExcept (wrapDescValidateFlags desc)
    require (metalBuffer.device = metalDevice)
      (wrapFault "Metal buffer belongs to a different device")
    if fits : desc.byteOffset + desc.byteLength > metalBuffer.length then
      fail (wrapFault "Metal buffer wrap range exceeds buffer length")
    else
      require (desc.has wrapHostVisible = true → metalBuffer.hasContents = true)
        (mgSetError .unsupported .create mgNodeIdInvalid
          "Metal buffer wrap requested host visibility for non-host-visible storage")
      attemptOr (mgSetOom .create)
      attemptOr (mgSetOom .create)
      ownerRetain desc.retainedOwner
      placeObject (fun address =>
        { address := address
          impl := metalBuffer
          deviceImpl := some metalDevice
          length := desc.byteLength
          byteOffset := desc.byteOffset
          originKind := .externalMetal
          isZeroCopy := true
          isExternal := true
          isHostVisible := desc.has wrapHostVisible
          isMutable := desc.has wrapMutable
          sourceFramework := "Metal"
          window := window_of_wrap_checks bounded fits })
        (Object.buffer · desc.retainedOwner)

def mgEventCreate (device : Option MgDevice) : Run MgEvent := do
  let _ ← orFail (deviceImpl device) (mgSetError .invalidArgument .create mgNodeIdInvalid
    "device and out_event are required")
  attemptOr (mgSetError .unsupported .create mgNodeIdInvalid "MTLSharedEvent is not available")
  attemptOr (mgSetError .backendError .create mgNodeIdInvalid
    "failed to create Metal shared event")
  attemptOr (mgSetOom .create)
  let sharedEvent ← newMetalObject
  placeObject (⟨·, sharedEvent⟩) .event

def mgBufferLength (buffer : Option MgBuffer) : UInt64 := buffer.elim 0 MgBuffer.length

/-- The Metal buffer and the position in it that the pointer stands for; null when the host
cannot see the buffer. -/
def mgBufferContents (buffer : Option MgBuffer) : Option (MetalBuffer × Nat) :=
  buffer.bind fun buffer =>
    if buffer.impl.hasContents then some (buffer.impl, buffer.byteOffset.toNat) else none

structure MgBufferOriginInfo where
  size : UInt64
  originKind : MgBufferOriginKind
  isZeroCopy : Bool
  isExternal : Bool
  isHostVisible : Bool
  isMutable : Bool
  byteOffset : UInt64
  byteLength : UInt64
  sourceFramework : String
deriving DecidableEq, Repr

def sizeofMgBufferOriginInfo : UInt64 := 48

/-- `outSize` is the size field of the caller's structure. -/
def mgBufferGetOriginInfo (buffer : Option MgBuffer) (outSize : UInt64) :
    Except Fault MgBufferOriginInfo :=
  match buffer with
  | none => .error (mgSetError .invalidArgument .create mgNodeIdInvalid
      "buffer and origin info output are required")
  | some buffer =>
    if outSize < sizeofMgBufferOriginInfo then
      .error (mgSetError .invalidArgument .create mgNodeIdInvalid
        "buffer and origin info output are required")
    else
      .ok ⟨sizeofMgBufferOriginInfo, buffer.originKind, buffer.isZeroCopy, buffer.isExternal,
        buffer.isHostVisible, buffer.isMutable, buffer.byteOffset, buffer.length,
        buffer.sourceFramework⟩

end MetalGraph
