import MetalGraph.Base.Effect
import MetalGraph.Base.References
import MetalGraph.Model.Types

set_option autoImplicit false

/- What the code runs on: the allocator, the reference-counted heap and Metal.
Every allocation and every request to Metal asks the oracle once; blocks that
hold no reference are not tracked. -/
namespace MetalGraph

open Eff

/-- One binding call on a compute encoder. -/
inductive ArgumentWrite where
  | setBuffer (buffer : MetalBuffer) (offset : UInt64) (index : UInt32)
  | setBytes (data : List UInt8) (index : UInt32)
deriving DecidableEq

structure TensorData where
  buffer : MetalBuffer
  shape : List UInt64
  dataType : MgTensorDataType
deriving DecidableEq

/-- Work encoded into a command buffer. -/
inductive Command where
  | compute (pipeline : Option Pipeline) (arguments : List ArgumentWrite) (grid : Dims)
      (threadsPerThreadgroup : Dims)
  | copy (src : Option MetalBuffer) (srcOffset : UInt64) (dst : Option MetalBuffer)
      (dstOffset : UInt64) (size : UInt64)
  | fill (buffer : Option MetalBuffer) (offset : UInt64) (size : UInt64) (value : UInt8)
  | waitForEvent (event : Nat) (value : UInt64)
  | signalEvent (event : Nat) (value : UInt64)
  | mpsgraph (executable : Option String) (inputs results : List TensorData)
  | executeCommands (icb : IndirectCommandBuffer) (count : Nat)
deriving DecidableEq

/-- What happens at the boundary with Metal and the allocator, in order. A wait
records whether the command buffer had failed. -/
inductive MetalEvent where
  | encode (commandBuffer : Nat) (command : Command)
  | commit (commandBuffer : Nat)
  | wait (commandBuffer : Nat) (failed : Bool)
  | refused
deriving DecidableEq

/-- A call of a client's owner callback on behalf of one wrapper. -/
inductive OwnerCall where
  | retain (buffer : Nat) (context : Nat)
  | release (buffer : Nat) (context : Nat)
deriving DecidableEq, Repr

/-- A reference-counted object; `owner` is the context of a retained owner. -/
inductive Object where
  | buffer (buffer : MgBuffer) (owner : Option Nat)
  | event (event : MgEvent)
  | arena (arena : MgArena)
deriving DecidableEq

def Object.owner : Object → Option Nat
  | .buffer _ owner => owner
  | .event _ => none
  | .arena _ => none

structure Env where
  heap : RefHeap Object
  ownerCalls : List OwnerCall
  trace : List MetalEvent
  nextCommandBuffer : Nat
  nextMetalObject : Nat
  oracle : Nat → Bool
  clock : Nat
  commandBufferFails : Nat → Bool
  mpsgraphEnabled : Bool

/-- An empty heap under a given pattern of refusals and failures. -/
def Env.initial (oracle commandBufferFails : Nat → Bool) (mpsgraphEnabled : Bool) : Env where
  heap := .empty
  ownerCalls := []
  trace := []
  nextCommandBuffer := 0
  nextMetalObject := 0
  oracle := oracle
  clock := 0
  commandBufferFails := commandBufferFails
  mpsgraphEnabled := mpsgraphEnabled

abbrev Run (α : Type) := Eff Env Fault α

/-- A function that fills an out parameter: a failure says what is `held` then. -/
abbrev Fills (held α : Type) := Eff Env (Fault × held) α

def emit (event : MetalEvent) : Run Unit :=
  update fun env => { env with trace := env.trace ++ [event] }

/-- Asks the allocator or Metal for one thing. -/
def attempt {ε : Type} : Eff Env ε Bool := fun env =>
  if env.oracle env.clock then (.ok true, { env with clock := env.clock + 1 })
  else (.ok false, { env with clock := env.clock + 1, trace := env.trace ++ [.refused] })

def attemptOr {ε : Type} (reason : ε) : Eff Env ε Unit := do
  let granted ← attempt
  require (granted = true) reason

/-- Asks for two blocks; both are asked for before either is checked. -/
def attemptBoth {ε : Type} (reason : ε) : Eff Env ε Unit := do
  let first ← attempt
  let second ← attempt
  require (first = true ∧ second = true) reason

/-- Keeps the failure of `body` after running `cleanup`. -/
def cleaning {α : Type} (body : Run α) (cleanup : Run Unit) : Run α :=
  catching body fun reason => do
    cleanup
    fail reason

/-- Adds to a failure of `body` what the out parameter holds by then. -/
def holding {α β : Type} (body : Run α) (held : β) : Fills β α :=
  catching body fun reason => fail (reason, held)

/-! ### Reference counts -/

def retainObject (address : Nat) : Run Unit :=
  update fun env => { env with heap := env.heap.retain address }

/-- The last release calls the owner's callback, if the object has one. -/
def Env.release (env : Env) (address : Nat) : Env :=
  { env with
    heap := env.heap.release address
    ownerCalls := env.ownerCalls ++
      (((env.heap.lastReference address).bind Object.owner).map
        (OwnerCall.release address)).toList }

def releaseObject (address : Nat) : Run Unit := update fun env => env.release address

def mgBufferRetain (buffer : MgBuffer) : Run Unit := retainObject buffer.address
def mgBufferRelease (buffer : MgBuffer) : Run Unit := releaseObject buffer.address
def mgEventRetain (event : MgEvent) : Run Unit := retainObject event.address
def mgEventRelease (event : MgEvent) : Run Unit := releaseObject event.address
def mgArenaRetain (arena : MgArena) : Run Unit := retainObject arena.address

/-- A null arena is ignored. -/
def mgArenaRelease : Option MgArena → Run Unit
  | none => pure ()
  | some arena => releaseObject arena.address

/-- Places a new object in the heap with a count of one. -/
def placeObject {α : Type} (build : Nat → α) (object : α → Object) : Run α := fun env =>
  let value := build env.heap.cells.size
  (.ok value, { env with heap := env.heap.alloc (object value) })

/-! ### Metal -/

/-- `commandBuffer` of a queue; nil when refused. -/
def newCommandBuffer : Run (Option Nat) := do
  let granted ← attempt
  if granted then
    fun env => (.ok (some env.nextCommandBuffer),
      { env with nextCommandBuffer := env.nextCommandBuffer + 1 })
  else pure none

/-- `waitUntilCompleted`; returns whether the status is then an error. -/
def waitUntilCompleted (commandBuffer : Nat) : Run Bool := fun env =>
  let failed := env.commandBufferFails commandBuffer
  (.ok failed, { env with trace := env.trace ++ [.wait commandBuffer failed] })

def newMetalObject : Run Nat := fun env =>
  (.ok env.nextMetalObject, { env with nextMetalObject := env.nextMetalObject + 1 })

/-- An object together with the machine, for code that updates it in place. -/
structure Focus (τ : Type) where
  object : τ
  env : Env

abbrev Over (τ α : Type) := Eff (Focus τ) Fault α

variable {τ α : Type}

def onEnv (body : Run α) : Over τ α :=
  zoom Focus.env (fun env focus => { focus with env := env }) body

def self : Over τ τ := fun focus => (.ok focus.object, focus)

def modifySelf (change : τ → τ) : Over τ Unit :=
  update fun focus => { focus with object := change focus.object }

/-- Runs `body` on a local object, and after a failure `cleanup` on what the object
has become. -/
def withLocal (object : τ) (body : Over τ α) (cleanup : τ → Run Unit) : Run (α × τ) := fun env =>
  match body ⟨object, env⟩ with
  | (.ok value, focus) => (.ok (value, focus.object), focus.env)
  | (.error reason, focus) => (do cleanup focus.object; fail reason : Run (α × τ)) focus.env

end MetalGraph
