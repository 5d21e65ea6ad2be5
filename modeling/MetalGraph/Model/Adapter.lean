import MetalGraph.Model.Errors
import MetalGraph.Model.Interop
import MetalGraph.Model.Queues
import MetalGraph.Model.System

set_option autoImplicit false

/- The Python adapter: objects that hold native handles, and the C calls behind each of
their methods. Objects are known by their positions in the order of their creation. -/
namespace MetalGraph

open Eff

/-- A pointer that the library has given out. -/
inductive Native where
  | device (address : Nat)
  | stream (address : Nat)
  | buffer (buffer : MgBuffer)
  | graph (address : GraphPtr)
  | exec (address : ExecPtr)
  | launch (address : LaunchPtr)
deriving DecidableEq

structure BufferInfo where
  importMode : String
  sharedStorage : Bool
  diagnostic : Option InteropDiagnostic
deriving DecidableEq, Repr

def BufferInfo.default : BufferInfo := ⟨"metal_graph", false, none⟩

/-- An object of the adapter. Its handle is null once it is closed. -/
inductive PyObject where
  | device (handle : Option Nat)
  | stream (handle : Option Nat)
  | buffer (handle : Option MgBuffer) (info : BufferInfo)
  | graph (handle : Option GraphPtr)
  | exec (handle : Option ExecPtr)
  | launch (handle : Option LaunchPtr)
deriving DecidableEq

def PyObject.native : PyObject → Option Native
  | device handle => handle.map .device
  | stream handle => handle.map .stream
  | buffer handle _ => handle.map .buffer
  | graph handle => handle.map .graph
  | exec handle => handle.map .exec
  | launch handle => handle.map .launch

def PyObject.closed : PyObject → PyObject
  | device _ => .device none
  | stream _ => .stream none
  | buffer _ info => .buffer none info
  | graph _ => .graph none
  | exec _ => .exec none
  | launch _ => .launch none

/-- A Python process with the library loaded: what the library and the device hold, and the
objects that have been made. `systemDefault` is the machine's Metal device, and `texts` are
what Metal says of its errors. -/
structure PyProcess where
  system : System
  heap : BlockHeap
  gpu : Gpu
  programs : Programs
  systemDefault : Option Nat
  texts : Nat → Option String
  objects : List PyObject

abbrev Py (α : Type) := Eff PyProcess PyError α

/-! ### Calls of the library -/

/-- What a C function leaves in its status, its `out_error` and its out parameter. -/
structure Answer (α : Type) where
  status : MgStatus
  error : Option Nat
  out : Option α

section Native

variable {α : Type}

def onBlocks (body : OnBlocks α) : Eff PyProcess Fault α :=
  zoom PyProcess.heap (fun heap process => { process with heap := heap }) body

/-- A call on the blocks that cannot be refused. -/
def onHeap (body : OnBlocks α) : Py α := catching (onBlocks body) fun _ => fail .undefined

/-- A call of the library. What it makes Metal do is done on this queue. -/
def native (queue : Option Nat) (call : Call) : Eff PyProcess Fault Response := fun process =>
  let entry := process.system.record call
  (entry.result, { process with
    system := process.system.step call
    gpu := entry.events.foldl
      (Gpu.observe process.programs process.system.world.env.commandBufferFails queue)
      process.gpu })

/-- What Metal adds to an error of its own. -/
def PyProcess.text (process : PyProcess) (error : MgError) : Option String :=
  if error.status = .backendError then process.texts process.heap.clock else none

/-- A failed call leaves its error in `out_error`. -/
def reporting : Fault → Py (Answer α)
  | .undefined => fail .undefined
  | .error error => do
    let process ← read
    let report ← onHeap (mgSetErrorOut true error.status error.stage error.nodeId
      (some error.message) (process.text error))
    pure ⟨report.status, report.error, none⟩

def answering (call : Eff PyProcess Fault α) : Py (Answer α) :=
  catching (do
    let value ← call
    pure ⟨.ok, none, some value⟩) reporting

/-! ### Errors -/

def metalGraphError (status : MgStatus) (stage : MgErrorStage) (nodeId : MgNodeId)
    (message backendMessage : String) : MetalGraphError :=
  let detail := if message = "" then mgStatusString status else message
  ⟨status, stage, nodeId,
    if backendMessage = "" then detail else detail ++ ": " ++ backendMessage, backendMessage⟩

def raiseFromError (status : MgStatus) : Option Nat → Py α
  | none => fail (.metalGraph
      (metalGraphError status .none mgNodeIdInvalid (mgStatusString status) ""))
  | some error => do
    let raised ← onHeap (mgErrorStatus (some error))
    let stage ← onHeap (mgErrorStage (some error))
    let nodeId ← onHeap (mgErrorNodeId (some error))
    let message ← onHeap (mgErrorMessage (some error))
    let backendMessage ← onHeap (mgErrorBackendMessage (some error))
    onHeap (mgErrorDestroy (some error))
    fail (.metalGraph (metalGraphError raised stage nodeId (message.getD "") backendMessage))

def check (answer : Answer α) : Py (Option α) := do
  whenever (answer.status ≠ .ok) (raiseFromError answer.status answer.error)
  whenever (answer.error ≠ none) (onHeap (mgErrorDestroy answer.error))
  pure answer.out

end Native

/-! ### Objects -/

def newObject (object : PyObject) : Py Nat := do
  let process ← read
  update fun process => { process with objects := process.objects ++ [object] }
  pure process.objects.length

def setObject (index : Nat) (object : PyObject) : Py Unit :=
  update fun process => { process with objects := process.objects.set index object }

def objectAt (index : Nat) : Py PyObject := do
  let process ← read
  orFail process.objects[index]? .wrongClass

/-- The `_handle` of an object of one class. -/
def handleOf {τ : Type} (view : PyObject → Option τ) (index : Nat) : Py τ := do
  let object ← objectAt index
  orFail (view object) .wrongClass

def PyObject.asDevice : PyObject → Option (Option Nat)
  | device handle => some handle
  | _ => none

def PyObject.asStream : PyObject → Option (Option Nat)
  | stream handle => some handle
  | _ => none

def PyObject.asBuffer : PyObject → Option (Option MgBuffer)
  | buffer handle _ => some handle
  | _ => none

def PyObject.asGraph : PyObject → Option (Option GraphPtr)
  | graph handle => some handle
  | _ => none

def PyObject.asExec : PyObject → Option (Option ExecPtr)
  | exec handle => some handle
  | _ => none

def PyObject.asLaunch : PyObject → Option (Option LaunchPtr)
  | launch handle => some handle
  | _ => none

def deviceHandle : Nat → Py (Option Nat) := handleOf PyObject.asDevice

def streamHandle : Nat → Py (Option Nat) := handleOf PyObject.asStream

def bufferHandle : Nat → Py (Option MgBuffer) := handleOf PyObject.asBuffer

def graphHandle : Nat → Py (Option GraphPtr) := handleOf PyObject.asGraph

def execHandle : Nat → Py (Option ExecPtr) := handleOf PyObject.asExec

def launchHandle : Nat → Py (Option LaunchPtr) := handleOf PyObject.asLaunch

/-- The function that `_destroy` names, on its handle. -/
def Native.destroy : Native → Py Unit
  | .device address => onHeap (mgDeviceDestroy (some address))
  | .stream address => onHeap (mgStreamDestroy (some address))
  | .buffer handle => released (.counted (.bufferDestroy (some handle)))
  | .graph address => released (.graphDestroy (some address))
  | .exec address => released (.execDestroy (some address))
  | .launch address => released (.launchDestroy (some address))
where
  released (call : Call) : Py Unit := catching (do
    let _ ← native none call
    pure ()) fun _ => fail .undefined

def close (index : Nat) : Py Unit := do
  let object ← objectAt index
  match object.native with
  | none => pure ()
  | some handle => do
    handle.destroy
    setObject index object.closed

/-! ### Numbers

`ctypes` keeps the low bits of a Python integer. -/

def sizeT (value : Int) : UInt64 := UInt64.ofInt value

def uint32 (value : Int) : UInt32 := UInt32.ofInt value

/-- The bytes of a 32-bit word in memory, the lowest first. -/
def uint32Bytes (word : UInt32) : List UInt8 :=
  [word.toUInt8, (word >>> 8).toUInt8, (word >>> 16).toUInt8, (word >>> 24).toUInt8]

def uint32OfBytes (first second third fourth : UInt8) : UInt32 :=
  first.toUInt32 ||| second.toUInt32 <<< 8 ||| third.toUInt32 <<< 16 ||| fourth.toUInt32 <<< 24

/-! ### Devices, streams and buffers -/

def Device.systemDefault : Py Nat := do
  let process ← read
  let answer ← answering (onBlocks (mgDeviceCreateSystemDefault process.systemDefault))
  let out ← check answer
  newObject (.device out)

def Stream.create (device : Nat) : Py Nat := do
  let handle ← deviceHandle device
  let answer ← answering (onBlocks (mgStreamCreate handle))
  let out ← check answer
  newObject (.stream out)

def Response.toBuffer : Response → Option MgBuffer
  | .buffer given => some given
  | _ => none

def Response.toGraph : Response → Option GraphPtr
  | .graph given => some given
  | _ => none

def Response.toNode : Response → Option NodePtr
  | .node given => some given
  | _ => none

def Response.toExec : Response → Option ExecPtr
  | .exec given => some given
  | _ => none

def Response.toLaunch : Response → Option LaunchPtr
  | .launch given => some given
  | _ => none

namespace Buffer

def shared (device : Nat) (length : Int) : Py Nat := do
  let handle ← deviceHandle device
  let answer ← answering do
    let object ← onBlocks (deviceAt handle)
    native none (.counted (.bufferCreateShared object (sizeT length)))
  let out ← check answer
  newObject (.buffer (out.bind Response.toBuffer) .default)

/-- The handle of a buffer, for a read of what it points to. -/
def pointee (index : Nat) : Py (Option MgBuffer) := do
  let handle ← bufferHandle index
  let process ← read
  require (process.system.world.bufferAlive handle = true) .undefined
  pure handle

def length (index : Nat) : Py Nat := do
  let buffer ← pointee index
  pure (mgBufferLength buffer).toNat

def contents (index : Nat) : Py (MetalBuffer × Nat) := do
  let buffer ← pointee index
  orFail (mgBufferContents buffer)
    (.metalGraph (adapterError .unsupported "buffer has no host-visible contents"))

/-- Copies bytes to the start of a buffer that they fit in. -/
def write (index : Nat) (bytes : List UInt8) : Py Unit := do
  let length ← length index
  require (bytes.length ≤ length) (.valueError "values do not fit in buffer")
  let (impl, offset) ← contents index
  update fun process => { process with
    gpu := { process.gpu with
      memory := storeRange impl.id offset bytes.length (fun position => bytes.getD position 0)
        process.gpu.memory } }

def writeUint32s (index : Nat) (values : List Int) : Py Unit :=
  write index (values.flatMap fun value => uint32Bytes (uint32 value))

def writeBytes (index : Nat) (values : List UInt8) : Py Unit := write index values

def readUint32s (index : Nat) (count : Int) : Py (List UInt32) := do
  let length ← length index
  require (4 * count ≤ length) (.valueError "read exceeds buffer length")
  require (0 ≤ count) (.valueError ("Array length must be >= 0, not " ++ toString count))
  let (impl, offset) ← contents index
  let process ← read
  let byte (position : Nat) : UInt8 := process.gpu.memory (.byte impl.id (offset + position))
  pure ((List.range count.toNat).map fun word => uint32OfBytes (byte (4 * word))
    (byte (4 * word + 1)) (byte (4 * word + 2)) (byte (4 * word + 3)))

def setInfo (index : Nat) (info : BufferInfo) : Py Unit := do
  let handle ← bufferHandle index
  setObject index (.buffer handle info)

end Buffer

/-! ### Graphs, plans and launches -/

structure DispatchArguments where
  metallibPath : String
  kernelName : String
  buffer : Nat
  index : Int
  byteCount : Int
  gridSize : Int × Int × Int
  threadsPerThreadgroup : Int × Int × Int
  access : Int
  alignment : Int
  offset : Int

def dims (sizes : Int × Int × Int) : Dims := ⟨uint32 sizes.1, uint32 sizes.2.1, uint32 sizes.2.2⟩

def resourceAccess (access : Int) : MgResourceAccess :=
  match (uint32 access).toNat with
  | 0 => .unknown
  | 1 => .read
  | 2 => .write
  | 3 => .readWrite
  | value => .other value

/-- `os.fsencode(Path(text))`: empty parts and parts that are a single dot go, and so does
every slash at the start but one, unless there are two. -/
def fsencodePath (text : String) : String :=
  let slashes := (text.toList.takeWhile (· == '/')).length
  let root := if slashes = 0 then [] else if slashes = 2 then ['/', '/'] else ['/']
  let parts := (text.toList.splitOn '/').filter fun part => part != [] && part != ['.']
  let path := root ++ ['/'].intercalate parts
  if path = [] then "." else String.ofList path

def DispatchArguments.desc (arguments : DispatchArguments) (buffer : Option MgBuffer) :
    MgDispatchDesc where
  size := sizeofMgDispatchDesc
  metallibPath := some (fsencodePath arguments.metallibPath)
  kernelName := some arguments.kernelName
  gridSize := dims arguments.gridSize
  threadsPerThreadgroup := dims arguments.threadsPerThreadgroup
  buffers := some [⟨uint32 arguments.index, buffer, sizeT arguments.offset⟩]
  scalars := some []
  maxGridSize := ⟨0, 0, 0⟩
  resources := some [⟨sizeofMgDispatchResourceDesc, uint32 arguments.index,
    resourceAccess arguments.access, 0, sizeT arguments.byteCount, sizeT arguments.alignment⟩]

namespace Graph

def create : Py Nat := do
  let answer ← answering (native none .graphCreate)
  let out ← check answer
  newObject (.graph (out.bind Response.toGraph))

/-- Returns the pointer that the new `Node` keeps. -/
def addDispatchNode (graph : Nat) (arguments : DispatchArguments) : Py (Option NodePtr) := do
  let buffer ← bufferHandle arguments.buffer
  let handle ← graphHandle graph
  let answer ← answering (native none
    (.graphEdit handle (.addNode (.dispatch (some (arguments.desc buffer))))))
  let out ← check answer
  pure (out.bind Response.toNode)

def instantiate (graph device : Nat) : Py Nat := do
  let handle ← graphHandle graph
  let deviceHandle ← deviceHandle device
  let answer ← answering do
    let object ← onBlocks (deviceAt deviceHandle)
    native none (.graphInstantiate handle object)
  let out ← check answer
  newObject (.exec (out.bind Response.toExec))

end Graph

namespace GraphExec

def launch (exec stream : Nat) : Py Nat := do
  let handle ← execHandle exec
  let streamHandle ← streamHandle stream
  let answer ← answering do
    let object ← onBlocks (streamAt streamHandle)
    native (object.bind MgStream.impl) (.graphLaunch handle object)
  let out ← check answer
  newObject (.launch (out.bind Response.toLaunch))

def readDiagnostics (exec : Option ExecPtr) : Eff PyProcess Fault MgGraphExecDiagnostics := do
  let address ← orFail exec (patchFault mgNodeIdInvalid "exec and diagnostics are required")
  let process ← read
  let object ← orFail (process.system.world.execs.get? address) .undefined
  ofExcept (mgGraphExecGetDiagnostics object sizeofMgGraphExecDiagnostics)

def diagnostics (exec : Nat) : Py (Option GraphExecDiagnostics) := do
  let handle ← execHandle exec
  let answer ← answering (readDiagnostics handle)
  let out ← check answer
  pure (out.map MgGraphExecDiagnostics.view)

end GraphExec

def Launch.synchronize (launch : Nat) : Py Unit := do
  let handle ← launchHandle launch
  let answer ← answering (native none (.launchSynchronize handle))
  let _ ← check answer
  pure ()

/-! ### Imports -/

/-- Whether Python sees a failure as an exception. -/
def PyError.isException : PyError → Bool
  | .undefined => false
  | _ => true

def importMlxArray (array : PySource) (mode : String) (device : Option Nat) : Py Nat := do
  require (mode ≠ "zero_copy") (.unsupportedWorkflow
    (adapterError .unsupported zeroCopyUnsupportedReason) mlxZeroCopyDiagnostic)
  require (mode = "copy") badMode
  let device ← orFail device (.valueError
    "mode='copy' requires device=Device.system_default() or another Device")
  let source ← ofExcept (memoryviewForExplicitCopy array)
  let buffer ← Buffer.shared device source.length
  catching (Buffer.writeBytes buffer source) fun reason => do
    whenever (reason.isException = true) (close buffer)
    fail reason
  Buffer.setInfo buffer ⟨"copy", false, some (explicitCopyDiagnostic source.length)⟩
  pure buffer

/-! ### Processes -/

/-- A call of a client of the adapter; `close` is also what `__exit__` and `__del__` do. -/
inductive PyCall where
  | systemDefault
  | streamCreate (device : Nat)
  | bufferShared (device : Nat) (length : Int)
  | writeUint32s (buffer : Nat) (values : List Int)
  | writeBytes (buffer : Nat) (values : List UInt8)
  | readUint32s (buffer : Nat) (count : Int)
  | graphCreate
  | addDispatchNode (graph : Nat) (arguments : DispatchArguments)
  | instantiate (graph device : Nat)
  | launch (exec stream : Nat)
  | diagnostics (exec : Nat)
  | synchronize (launch : Nat)
  | importMlxArray (array : PySource) (mode : String) (device : Option Nat)
  | close (object : Nat)

inductive PyValue where
  | nothing
  | object (index : Nat)
  | words (words : List UInt32)
  | node (pointer : Option NodePtr)
  | diagnostics (shown : Option GraphExecDiagnostics)
deriving DecidableEq

def PyCall.run : PyCall → Py PyValue
  | systemDefault => do pure (.object (← Device.systemDefault))
  | streamCreate device => do pure (.object (← Stream.create device))
  | bufferShared device length => do pure (.object (← Buffer.shared device length))
  | writeUint32s buffer values => do
    Buffer.writeUint32s buffer values
    pure .nothing
  | writeBytes buffer values => do
    Buffer.writeBytes buffer values
    pure .nothing
  | readUint32s buffer count => do pure (.words (← Buffer.readUint32s buffer count))
  | graphCreate => do pure (.object (← Graph.create))
  | addDispatchNode graph arguments => do
    pure (.node (← Graph.addDispatchNode graph arguments))
  | instantiate graph device => do pure (.object (← Graph.instantiate graph device))
  | launch exec stream => do pure (.object (← GraphExec.launch exec stream))
  | diagnostics exec => do pure (.diagnostics (← GraphExec.diagnostics exec))
  | synchronize index => do
    Launch.synchronize index
    pure .nothing
  | importMlxArray array mode device => do
    pure (.object (← MetalGraph.importMlxArray array mode device))
  | close object => do
    MetalGraph.close object
    pure .nothing

/-- A process that has just loaded the library. -/
def PyProcess.initial (oracle commandBufferFails requests : Nat → Bool) (mpsgraphEnabled : Bool)
    (programs : Programs) (systemDefault : Option Nat) (texts : Nat → Option String) :
    PyProcess where
  system := System.initial oracle commandBufferFails mpsgraphEnabled
  heap := ⟨.empty, requests, 0⟩
  gpu := .idle blankMemory
  programs := programs
  systemDefault := systemDefault
  texts := texts
  objects := []

def PyProcess.after (process : PyProcess) (call : PyCall) : PyProcess := (call.run process).2

/-- The one thing that a client has to see to: a plan is closed only when each of its open
launches has been synchronized. -/
def PyProcess.permits (process : PyProcess) : PyCall → Bool
  | .close index =>
    match process.objects[index]? with
    | some (.exec (some exec)) => !process.system.world.busy exec
    | _ => true
  | _ => true

/-- The calls of a client, one after the other. -/
def PyProcess.run (process : PyProcess) (calls : List PyCall) : PyProcess :=
  calls.foldl PyProcess.after process

/-- What the client sees of each of them. -/
def PyProcess.answers : PyProcess → List PyCall → List (Except PyError PyValue)
  | _, [] => []
  | process, call :: rest => (call.run process).1 :: (process.after call).answers rest

def PyProcess.permitsAll : PyProcess → List PyCall → Bool
  | _, [] => true
  | process, call :: rest => process.permits call && (process.after call).permitsAll rest

/-- The states of a process in which clients keep to that, while the device goes on with its
work. -/
inductive PyProcess.Reachable : PyProcess → Prop
  | start (oracle commandBufferFails requests : Nat → Bool) (mpsgraphEnabled : Bool)
      (programs : Programs) (systemDefault : Option Nat) (texts : Nat → Option String) :
      Reachable (.initial oracle commandBufferFails requests mpsgraphEnabled programs
        systemDefault texts)
  | call {process : PyProcess} {call : PyCall} : Reachable process →
      process.permits call = true → Reachable (process.after call)
  | progress {process : PyProcess} (queue : Option Nat) : Reachable process →
      Reachable { process with gpu := process.gpu.progress process.programs queue }

end MetalGraph
