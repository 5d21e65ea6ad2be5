import MetalGraph.Model.Patch

set_option autoImplicit false

/- Launches: encoding the nodes of a plan into command buffers, and waiting for them. -/
namespace MetalGraph

open Eff

/-- A launch while its nodes are being encoded. -/
structure Encoder where
  launch : MgLaunch
  commandBuffer : Nat
  hasWork : Bool
deriving DecidableEq

def encodeFault (nodeId : MgNodeId) (message : String) : Fault :=
  mgSetError .backendError .encode nodeId message

/-! ### References of a launch -/

/-- Stores into the array that the counting pass sized. -/
def retainLaunchBuffer (buffer : MgBuffer) : Over Encoder Unit := do
  onEnv (mgBufferRetain buffer)
  let encoder ← self
  require (encoder.launch.retainedBuffers.length < encoder.launch.retainedBufferSlots) .undefined
  modifySelf fun encoder => { encoder with launch := { encoder.launch with
    retainedBuffers := encoder.launch.retainedBuffers ++ [buffer] } }

def retainLaunchEvent (event : MgEvent) : Over Encoder Unit := do
  onEnv (mgEventRetain event)
  let encoder ← self
  require (encoder.launch.retainedEvents.length < encoder.launch.retainedEventSlots) .undefined
  modifySelf fun encoder => { encoder with launch := { encoder.launch with
    retainedEvents := encoder.launch.retainedEvents ++ [event] } }

def mgLaunchDestroy (launch : MgLaunch) : Run Unit := do
  forEach mgBufferRelease launch.retainedBuffers
  forEach mgEventRelease launch.retainedEvents

/-! ### Command buffers -/

def encodeCommand (command : Command) : Over Encoder Unit := do
  let encoder ← self
  onEnv (emit (.encode encoder.commandBuffer command))

def growImpls : Over Encoder Unit := do
  onEnv (attemptOr (mgSetOom .encode))
  modifySelf fun encoder => { encoder with launch := { encoder.launch with
    implCapacity :=
      if encoder.launch.implCapacity = 0 then 4 else encoder.launch.implCapacity * 2 } }

def mgLaunchRetainCommandBuffer : Over Encoder Unit := do
  let encoder ← self
  whenever (encoder.launch.impls.length = encoder.launch.implCapacity) growImpls
  modifySelf fun encoder => { encoder with launch := { encoder.launch with
    impls := encoder.launch.impls ++ [encoder.commandBuffer] } }

/-- Commits the current command buffer and then records it in the launch. -/
def commitCurrent : Over Encoder Unit := do
  let encoder ← self
  onEnv (emit (.commit encoder.commandBuffer))
  mgLaunchRetainCommandBuffer

/-- Starts an empty command buffer for the nodes that follow `nodeId`. -/
def nextCommandBuffer (nodeId : MgNodeId) : Over Encoder Unit := do
  let created ← onEnv newCommandBuffer
  let commandBuffer ← orFail created
    (encodeFault nodeId "failed to create Metal command buffer")
  modifySelf fun encoder => { encoder with commandBuffer := commandBuffer, hasWork := false }

def markWork : Over Encoder Unit := modifySelf fun encoder => { encoder with hasWork := true }

/-! ### Encoding one node -/

/-- The argument table writes of a dispatch, in the order they are made. -/
def dispatchArguments (dispatch : MgDispatchNode) : List ArgumentWrite :=
  dispatch.buffers.map (fun binding =>
    .setBuffer binding.buffer.impl (mgMetalBufferOffset binding.buffer binding.offset)
      binding.index) ++
  dispatch.scalars.map fun scalar => .setBytes scalar.data scalar.index

def dispatchCommand (dispatch : MgExecDispatch) : Command :=
  .compute dispatch.pipelineImpl (dispatchArguments dispatch.toMgDispatchNode) dispatch.gridSize
    dispatch.threadsPerThreadgroup

def encodeDispatch (dispatch : MgExecDispatch) : Over Encoder Unit := do
  onEnv (attemptOr (encodeFault dispatch.id "failed to create Metal compute encoder"))
  encodeCommand (dispatchCommand dispatch)
  forEach (fun binding => retainLaunchBuffer binding.buffer) dispatch.buffers
  markWork

def copyCommand (copy : MgCopyNode) : Command :=
  .copy (some copy.src.impl) (mgMetalBufferOffset copy.src copy.srcOffset)
    (some copy.dst.impl) (mgMetalBufferOffset copy.dst copy.dstOffset) copy.byteCount

def encodeCopy (copy : MgExecCopy) : Over Encoder Unit := do
  onEnv (attemptOr (encodeFault copy.id "failed to create Metal blit encoder"))
  encodeCommand (copyCommand copy.toMgCopyNode)
  retainLaunchBuffer copy.src
  retainLaunchBuffer copy.dst
  markWork

def fillCommand (fill : MgFillNode) : Command :=
  .fill (some fill.dst.impl) (mgMetalBufferOffset fill.dst fill.dstOffset) fill.byteCount
    fill.value

def encodeFill (fill : MgExecFill) : Over Encoder Unit := do
  onEnv (attemptOr (encodeFault fill.id "failed to create Metal blit encoder"))
  encodeCommand (fillCommand fill.toMgFillNode)
  retainLaunchBuffer fill.dst
  markWork

def encodeEvent (command : Command) (event : MgExecEvent) : Over Encoder Unit := do
  encodeCommand command
  retainLaunchEvent event.event
  markWork

/-- Commits the work before an MPSGraph node and waits for it. -/
def flushWork (nodeId : MgNodeId) : Over Encoder Unit := do
  let encoder ← self
  commitCurrent
  let failed ← onEnv (waitUntilCompleted encoder.commandBuffer)
  require (failed = false) (mgSetError .backendError .complete nodeId
    "Metal command buffer failed before MPSGraph encode")
  nextCommandBuffer nodeId

def mgMpsgraphTensorData (tensor : MgMpsgraphTensor) : TensorData :=
  ⟨tensor.buffer.impl, tensor.shape, tensor.dataType⟩

def mpsgraphCommand (mpsgraph : MgExecMpsgraph) : Command :=
  .mpsgraph mpsgraph.executableImpl (mpsgraph.feeds.map mgMpsgraphTensorData)
    (mpsgraph.targets.map mgMpsgraphTensorData)

def mgMpsgraphEncodeNode (mpsgraph : MgExecMpsgraph) : Over Encoder Unit := do
  let env ← onEnv read
  require (env.mpsgraphEnabled = true) (mgSetError .unsupported .encode mpsgraph.id
    "MPSGraph support is not enabled in this build")
  require (mpsgraph.executableImpl.isSome = true)
    (encodeFault mpsgraph.id "MPSGraph executable is not loaded")
  onEnv (forEach (fun _ => attemptOr (encodeFault mpsgraph.id
    "failed to create MPSGraph feed tensor data")) mpsgraph.feeds)
  onEnv (forEach (fun _ => attemptOr (encodeFault mpsgraph.id
    "failed to create MPSGraph target tensor data")) mpsgraph.targets)
  onEnv (attemptOr (encodeFault mpsgraph.id "failed to encode MPSGraph executable"))
  encodeCommand (mpsgraphCommand mpsgraph)

def encodeMpsgraph (mpsgraph : MgExecMpsgraph) : Over Encoder Unit := do
  let encoder ← self
  whenever (encoder.hasWork = true) (flushWork mpsgraph.id)
  mgMpsgraphEncodeNode mpsgraph
  forEach (fun tensor => retainLaunchBuffer tensor.buffer) mpsgraph.feeds
  forEach (fun tensor => retainLaunchBuffer tensor.buffer) mpsgraph.targets
  commitCurrent
  nextCommandBuffer mpsgraph.id

/-- The fill of the workspace and the copy out of it. -/
def workspaceFillCommands (workspace : Option MetalBuffer) (fill : MgExecWorkspaceFill) :
    List Command :=
  [.fill workspace fill.offset fill.size fill.value,
    .copy workspace fill.offset (some fill.dst.impl)
      (mgMetalBufferOffset fill.dst fill.dstOffset) fill.size]

def encodeWorkspaceFill (workspace : Option MetalBuffer) (fill : MgExecWorkspaceFill) :
    Over Encoder Unit := do
  onEnv (attemptOr (encodeFault fill.id "failed to create Metal workspace blit encoder"))
  forEach encodeCommand (workspaceFillCommands workspace fill)
  retainLaunchBuffer fill.dst
  markWork

def encodeNode (workspace : Option MetalBuffer) (node : MgExecNode) : Over Encoder Unit :=
  match node with
  | .dispatch dispatch => encodeDispatch dispatch
  | .copy copy => encodeCopy copy
  | .fill fill => encodeFill fill
  | .eventWait event => encodeEvent (.waitForEvent event.event.impl event.value) event
  | .eventSignal event => encodeEvent (.signalEvent event.event.impl event.value) event
  | .barrier _ => pure ()
  | .mpsgraph mpsgraph => encodeMpsgraph mpsgraph
  | .workspace _ => pure ()
  | .workspaceFill fill => encodeWorkspaceFill workspace fill
  | .unknown _ =>
    fail (mgSetError .internalError .encode mgNodeIdInvalid "unknown executable node kind")

/-! ### Launching -/

/-- The counting pass over one node. -/
def MgExecNode.retainedBufferCount : MgExecNode → Nat
  | .dispatch node => node.buffers.length
  | .copy _ => 2
  | .fill _ => 1
  | .mpsgraph node => node.feeds.length + node.targets.length
  | .workspaceFill _ => 1
  | _ => 0

def MgExecNode.retainedEventCount : MgExecNode → Nat
  | .eventWait _ => 1
  | .eventSignal _ => 1
  | _ => 0

/-- Allocates a launch with room for what its nodes retain. -/
def allocateLaunch (exec : MgGraphExec) : Run MgLaunch := do
  attemptOr (mgSetOom .encode)
  let buffers := (exec.nodes.map MgExecNode.retainedBufferCount).sum
  let events := (exec.nodes.map MgExecNode.retainedEventCount).sum
  whenever (buffers > 0) (attemptOr (mgSetOom .encode))
  whenever (events > 0) (attemptOr (mgSetOom .encode))
  pure { MgLaunch.zero with
    retainedBufferSlots := buffers
    retainedEventSlots := events
    retainedWorkspaceImpl := exec.workspace.backendImpl }

/-- What a launch records in the plan before it encodes anything. -/
def MgIcbPlan.beginLaunch (icb : MgIcbPlan) : MgIcbPlan :=
  if icb.groupsPlanned > 0 then
    if icbEnabled icb = false then
      { icb with
        groupsUsed := 0, groupsFallback := icb.groupsPlanned, lastFallbackReason := .disabled }
    else if icb.backendImpl.isNone then
      { icb with
        groupsUsed := 0
        groupsFallback := icb.groupsPlanned
        lastFallbackReason :=
          if icb.lastFallbackReason = .none then .unsupported else icb.lastFallbackReason }
    else { icb with groupsUsed := 0, groupsFallback := 0 }
  else icb

/-- What a launch records when it executes the indirect command buffer. -/
def MgIcbPlan.recordUse (icb : MgIcbPlan) : MgIcbPlan :=
  { icb with
    groupsUsed := icb.groupsPlanned, groupsFallback := 0, lastFallbackReason := .none }

/-- The recorded commands, when they are present and enabled. -/
def usableIcb (icb : MgIcbPlan) : Option IndirectCommandBuffer :=
  if icbEnabled icb then icb.backendImpl else none

/-- The retention loop of the indirect path, which reads every node as a dispatch. -/
def retainDispatchBuffers (node : MgExecNode) : Over Encoder Unit := do
  let dispatch ← orFail (asDispatch node) .undefined
  forEach (fun binding => retainLaunchBuffer binding.buffer) dispatch.buffers

def encodeIcb (exec : MgGraphExec) (icb : IndirectCommandBuffer) : Over Encoder Unit := do
  onEnv (attemptOr (encodeFault mgNodeIdInvalid "failed to create Metal ICB compute encoder"))
  encodeCommand (.executeCommands icb exec.icb.commandCount)
  forEach retainDispatchBuffers exec.nodes

def encodeDirect (exec : MgGraphExec) : Over Encoder Unit := do
  forEach (encodeNode exec.workspace.backendImpl) exec.nodes
  let encoder ← self
  whenever (encoder.hasWork = true) commitCurrent

/-- `address` names the plan that is the object. -/
def mgGraphLaunch (address : ExecPtr) (stream : Option MgStream) : Over MgGraphExec MgLaunch := do
  let _ ← orFail (stream.bind MgStream.impl) (mgSetError .invalidArgument .encode mgNodeIdInvalid
    "exec, stream, and out_launch are required")
  let created ← onEnv newCommandBuffer
  let commandBuffer ← orFail created
    (encodeFault mgNodeIdInvalid "failed to create Metal command buffer")
  let exec ← self
  let launch ← onEnv (allocateLaunch exec)
  modifySelf fun exec => { exec with icb := exec.icb.beginLaunch }
  let destroy := fun encoder : Encoder => mgLaunchDestroy encoder.launch
  let launched ← match usableIcb exec.icb with
    | some icb => do
      let (_, encoder) ← onEnv (withLocal ⟨launch, commandBuffer, true⟩ (encodeIcb exec icb)
        destroy)
      modifySelf fun exec => { exec with icb := exec.icb.recordUse }
      let (_, encoder) ← onEnv (withLocal encoder commitCurrent destroy)
      pure encoder.launch
    | none => do
      let (_, encoder) ← onEnv (withLocal ⟨launch, commandBuffer, exec.nodes.isEmpty⟩
        (encodeDirect exec) destroy)
      pure encoder.launch
  modifySelf fun exec => { exec with inFlightCount := exec.inFlightCount + 1 }
  pure { launched with exec := some address }

/-! ### Completion -/

/-- A launch and its plan; the plan is `none` once it is destroyed. -/
structure LaunchOf where
  launch : MgLaunch
  exec : Option MgGraphExec
deriving DecidableEq

/-- Waits for every command buffer; returns whether one of them failed. -/
def waitForAll (impls : List Nat) : Run Bool :=
  foldEach
    (fun failed commandBuffer => do
      let now ← waitUntilCompleted commandBuffer
      pure (failed || now))
    false impls

/-- Decrements the plan's counter, unless it is zero already. -/
def MgGraphExec.finishLaunch (exec : MgGraphExec) : MgGraphExec :=
  if exec.inFlightCount > 0 then { exec with inFlightCount := exec.inFlightCount - 1 } else exec

def finishExec : Over LaunchOf Unit := do
  let object ← self
  let exec ← orFail object.exec .undefined
  modifySelf fun object => { object with exec := some exec.finishLaunch }

/-- The first completion of a launch. -/
def completeLaunch : Over LaunchOf Unit := do
  let object ← self
  whenever (object.launch.exec.isSome = true) finishExec
  modifySelf fun object => { object with launch := { object.launch with completed := true } }

def mgLaunchSynchronize : Over LaunchOf Unit := do
  let object ← self
  require (object.launch.impls ≠ [])
    (mgSetError .invalidArgument .sync mgNodeIdInvalid "launch is required")
  let failed ← onEnv (waitForAll object.launch.impls)
  whenever (object.launch.completed = false) completeLaunch
  require (failed = false)
    (mgSetError .backendError .complete mgNodeIdInvalid "Metal command buffer failed")

end MetalGraph
