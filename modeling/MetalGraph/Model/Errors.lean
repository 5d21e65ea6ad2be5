import MetalGraph.Base.Blocks
import MetalGraph.Model.Types

set_option autoImplicit false

/- Error objects, and the devices and streams that callers hold: blocks without a reference
count, which whoever was given them destroys. -/
namespace MetalGraph

open Eff

/-- An error object keeps its two texts in blocks of their own. -/
structure ErrorBlock where
  status : MgStatus
  stage : MgErrorStage
  nodeId : MgNodeId
  message : Option Nat
  backendMessage : Option Nat
deriving DecidableEq, Repr

inductive HeapBlock where
  | error (error : ErrorBlock)
  | text (value : String)
  | device (device : MgDevice)
  | stream (stream : MgStream)
deriving DecidableEq, Repr

abbrev BlockHeap := Blocks HeapBlock

abbrev OnBlocks (α : Type) := Eff BlockHeap Fault α

def mgStatusString : MgStatus → String
  | .ok => "ok"
  | .invalidArgument => "invalid argument"
  | .invalidTopology => "invalid topology"
  | .unsupported => "unsupported"
  | .outOfMemory => "out of memory"
  | .backendError => "backend error"
  | .internalError => "internal error"

/-- The error object at an address. -/
def errorAt (address : Nat) : OnBlocks ErrorBlock := do
  let block ← Blocks.load .undefined address
  match block with
  | .error error => pure error
  | _ => fail .undefined

def textAt (address : Nat) : OnBlocks String := do
  let block ← Blocks.load .undefined address
  match block with
  | .text value => pure value
  | _ => fail .undefined

def mgStrdup : Option String → OnBlocks (Option Nat)
  | none => pure none
  | some value => Blocks.malloc (.text value)

def mgErrorDestroy : Option Nat → OnBlocks Unit
  | none => pure ()
  | some address => do
    let error ← errorAt address
    Blocks.free .undefined error.message
    Blocks.free .undefined error.backendMessage
    Blocks.free .undefined (some address)

/-- What a report leaves behind: the status it returns and the error object in `out_error`. -/
structure Report where
  status : MgStatus
  error : Option Nat
deriving DecidableEq, Repr

/-- The report of an error; `wanted` says that `out_error` is not null. -/
def mgSetErrorOut (wanted : Bool) (status : MgStatus) (stage : MgErrorStage) (nodeId : MgNodeId)
    (message backendMessage : Option String) : OnBlocks Report :=
  if wanted = false then pure ⟨status, none⟩
  else do
    let created ← Blocks.malloc (.error ⟨.ok, .none, 0, none, none⟩)
    match created with
    | none => pure ⟨status, none⟩
    | some address => do
      let text ← mgStrdup (some (message.getD (mgStatusString status)))
      let backendText ← mgStrdup backendMessage
      Blocks.store .undefined address (.error ⟨status, stage, nodeId, text, backendText⟩)
      if text = none ∨ (backendMessage ≠ none ∧ backendText = none) then do
        mgErrorDestroy (some address)
        pure ⟨status, none⟩
      else pure ⟨status, some address⟩

/-- Reads a null error as `missing`. -/
def readError {α : Type} (missing : α) (view : ErrorBlock → OnBlocks α) : Option Nat → OnBlocks α
  | none => pure missing
  | some address => do
    let error ← errorAt address
    view error

def mgErrorStatus : Option Nat → OnBlocks MgStatus :=
  readError .ok fun error => pure error.status

def mgErrorStage : Option Nat → OnBlocks MgErrorStage :=
  readError .none fun error => pure error.stage

def mgErrorNodeId : Option Nat → OnBlocks MgNodeId :=
  readError mgNodeIdInvalid fun error => pure error.nodeId

/-- The message of an error that has none is a null string. -/
def mgErrorMessage : Option Nat → OnBlocks (Option String) :=
  readError (some "") fun error =>
    match error.message with
    | none => pure none
    | some address => do
      let text ← textAt address
      pure (some text)

def mgErrorBackendMessage : Option Nat → OnBlocks String :=
  readError "" fun error => error.backendMessage.elim (pure "") textAt

/-! ### Devices and streams -/

def deviceAt : Option Nat → OnBlocks (Option MgDevice)
  | none => pure none
  | some address => do
    let block ← Blocks.load .undefined address
    match block with
    | .device device => pure (some device)
    | _ => fail .undefined

def streamAt : Option Nat → OnBlocks (Option MgStream)
  | none => pure none
  | some address => do
    let block ← Blocks.load .undefined address
    match block with
    | .stream stream => pure (some stream)
    | _ => fail .undefined

/-- `systemDefault` is the Metal device that the machine has, if it has one. -/
def mgDeviceCreateSystemDefault (systemDefault : Option Nat) : OnBlocks Nat := do
  let metalDevice ← orFail systemDefault (mgSetError .unsupported .create mgNodeIdInvalid
    "no system default Metal device is available")
  let created ← Blocks.malloc (.device ⟨some metalDevice⟩)
  orFail created (mgSetOom .create)

def mgDeviceDestroy : Option Nat → OnBlocks Unit
  | none => pure ()
  | some address => do
    let _ ← deviceAt (some address)
    Blocks.free .undefined (some address)

/-- The queue of a stream is known by the address of the stream. -/
def mgStreamCreate (device : Option Nat) : OnBlocks Nat := do
  let object ← deviceAt device
  let _ ← orFail (object.bind MgDevice.impl) (mgSetError .invalidArgument .create mgNodeIdInvalid
    "device and out_stream are required")
  let queued ← Blocks.ask
  require (queued = true) (mgSetError .backendError .create mgNodeIdInvalid
    "failed to create Metal command queue")
  let created ← Blocks.malloc (.stream ⟨none⟩)
  let address ← orFail created (mgSetOom .create)
  Blocks.store .undefined address (.stream ⟨some address⟩)
  pure address

def mgStreamDestroy : Option Nat → OnBlocks Unit
  | none => pure ()
  | some address => do
    let _ ← streamAt (some address)
    Blocks.free .undefined (some address)

end MetalGraph
