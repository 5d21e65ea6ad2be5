import MetalGraph.Proofs.DirectLaunch
import MetalGraph.Proofs.IndirectCommands
import MetalGraph.Proofs.LaunchEvents

set_option autoImplicit false

/- What a launch stores in the arrays that its counting pass has sized. -/
namespace MetalGraph

open Eff

/-! ### What nodes and commands use -/

/-- The uses of the workspace by a node. -/
def MgExecNode.workspaceUses (workspace : Option MetalBuffer) :
    MgExecNode → List (Option MetalBuffer)
  | .workspaceFill _ => [workspace, workspace]
  | _ => []

def ArgumentWrite.buffers : ArgumentWrite → List (Option MetalBuffer)
  | .setBuffer buffer _ _ => [some buffer]
  | .setBytes _ _ => []

/-- The Metal buffers that a command names, recorded commands spelled out before. -/
def Command.buffers : Command → List (Option MetalBuffer)
  | .compute _ arguments _ _ => arguments.flatMap ArgumentWrite.buffers
  | .copy src _ dst _ _ => [src, dst]
  | .fill buffer _ _ _ => [buffer]
  | .mpsgraph _ inputs results => (inputs ++ results).map fun data => some data.buffer
  | .waitForEvent _ _ | .signalEvent _ _ | .executeCommands _ _ => []

/-- The Metal events that a command names. -/
def Command.events : Command → List Nat
  | .waitForEvent event _ | .signalEvent event _ => [event]
  | _ => []

theorem dispatchArguments_buffers (dispatch : MgDispatchNode) :
    (dispatchArguments dispatch).flatMap ArgumentWrite.buffers =
      dispatch.buffers.map fun binding => some binding.buffer.impl := by
  have scalars : (dispatch.scalars.map fun scalar =>
      ArgumentWrite.setBytes scalar.data scalar.index).flatMap ArgumentWrite.buffers = [] := by
    simp [ArgumentWrite.buffers, List.flatMap_map]
  rw [dispatchArguments, List.flatMap_append, scalars, List.append_nil, List.flatMap_map,
    List.map_eq_flatMap]
  rfl

/-- The commands of a node name its buffers and, for a workspace fill, the workspace. -/
theorem nodeCommands_buffers (workspace : Option MetalBuffer) (node : MgExecNode) :
    ((nodeCommands workspace node).flatMap Command.buffers).Perm
      (node.buffers.map (fun buffer => some buffer.impl) ++ node.workspaceUses workspace) := by
  cases node with
  | dispatch node =>
      have named : (nodeCommands workspace (.dispatch node)).flatMap Command.buffers =
          (dispatchArguments node.toMgDispatchNode).flatMap ArgumentWrite.buffers :=
        List.append_nil _
      rw [named, dispatchArguments_buffers]
      simp [MgExecNode.buffers, MgExecNode.workspaceUses, Function.comp_def]
  | mpsgraph node =>
      simp [nodeCommands, mpsgraphCommand, Command.buffers, MgExecNode.buffers,
        MgExecNode.workspaceUses, Function.comp_def, mgMpsgraphTensorData]
  | workspaceFill node =>
      -- the copy out names the workspace before the destination
      exact (List.perm_append_comm : ([workspace, workspace] ++ [some node.dst.impl]).Perm _)
  | _ => exact .refl _

theorem nodeCommands_events (workspace : Option MetalBuffer) (node : MgExecNode) :
    (nodeCommands workspace node).flatMap Command.events =
      node.events.map MgEvent.impl := by
  cases node <;> rfl

theorem nodeCommands_work (workspace : Option MetalBuffer) (node : MgExecNode) :
    (nodeCommands workspace node).flatMap Command.work = nodeCommands workspace node := by
  cases node <;> rfl

/-- On either path a launch does the commands of the nodes. -/
theorem launchCommands_work {exec : MgGraphExec} (wf : ExecWf exec) :
    (launchCommands exec).flatMap Command.work =
      exec.nodes.flatMap (nodeCommands exec.workspace.backendImpl) := by
  rcases usable : usableIcb exec.icb with _ | icb
  · rw [launchCommands_direct usable, List.flatMap_assoc]
    simp only [nodeCommands_work]
  · obtain ⟨dispatch, same⟩ := wf.icbMatches (usableIcb_recorded usable)
    rw [launchCommands_icb usable, List.flatMap_singleton, same.work, same.only]
    rfl

/-! ### The arrays on their way -/

/-- What is stored, and what is still to be stored, is what the nodes use, and the arrays
have a slot for each. -/
structure Storing (exec : MgGraphExec) (buffers : List MgBuffer) (events : List MgEvent)
    (launch : MgLaunch) : Prop where
  buffers : launch.retainedBuffers ++ buffers = exec.nodes.flatMap MgExecNode.buffers
  events : launch.retainedEvents ++ events = exec.nodes.flatMap MgExecNode.events
  bufferSlots :
    launch.retainedBufferSlots = (exec.nodes.map MgExecNode.retainedBufferCount).sum
  eventSlots : launch.retainedEventSlots = (exec.nodes.map MgExecNode.retainedEventCount).sum
  workspace : launch.retainedWorkspaceImpl = exec.workspace.backendImpl

/-- The stores that a launch has made are in its arrays. -/
structure WithinArrays (exec : MgGraphExec) (launch : MgLaunch) : Prop where
  bufferSlots :
    launch.retainedBufferSlots = (exec.nodes.map MgExecNode.retainedBufferCount).sum
  eventSlots : launch.retainedEventSlots = (exec.nodes.map MgExecNode.retainedEventCount).sum
  buffers : launch.retainedBuffers.length ≤ launch.retainedBufferSlots
  events : launch.retainedEvents.length ≤ launch.retainedEventSlots
  bufferPrefix : launch.retainedBuffers <+: exec.nodes.flatMap MgExecNode.buffers
  eventPrefix : launch.retainedEvents <+: exec.nodes.flatMap MgExecNode.events

section Storing

variable {exec : MgGraphExec} {buffers : List MgBuffer} {events : List MgEvent}
  {launch : MgLaunch}

theorem Storing.within (storing : Storing exec buffers events launch) :
    WithinArrays exec launch where
  bufferSlots := storing.bufferSlots
  eventSlots := storing.eventSlots
  buffers := by
    have all := congrArg List.length storing.buffers
    rw [List.length_append, ← counted_buffers, ← storing.bufferSlots] at all
    omega
  events := by
    have all := congrArg List.length storing.events
    rw [List.length_append, ← counted_events, ← storing.eventSlots] at all
    omega
  bufferPrefix := ⟨buffers, storing.buffers⟩
  eventPrefix := ⟨events, storing.events⟩

theorem Storing.of_withoutImpls {other : MgLaunch} (storing : Storing exec buffers events launch)
    (same : other.withoutImpls = launch.withoutImpls) : Storing exec buffers events other := by
  obtain ⟨_, _, _, _, bufferSlots, retained, eventSlots, awaited, workspace⟩ :=
    MgLaunch.mk.inj same
  exact
    { buffers := retained ▸ storing.buffers
      events := awaited ▸ storing.events
      bufferSlots := bufferSlots.trans storing.bufferSlots
      eventSlots := eventSlots.trans storing.eventSlots
      workspace := workspace.trans storing.workspace }

/-- A part of the encode loop that stores the first of what is to be stored. -/
def Stores {α : Type} (exec : MgGraphExec) (buffers : List MgBuffer) (events : List MgEvent)
    (buffers' : List MgBuffer) (events' : List MgEvent) (body : Over Encoder α) : Prop :=
  Triple (Has fun encoder => Storing exec buffers events encoder.launch) body
    (fun _ => Has fun encoder => Storing exec buffers' events' encoder.launch)
    fun _ => Has fun encoder => WithinArrays exec encoder.launch

theorem onEnv_stores {α : Type} (body : Run α) :
    Stores exec buffers events buffers events (onEnv body) := by
  apply Triple.of_outcomes
  · intro focus value reached holds ran
    rw [Has, (onEnv_ok.mp ran).2]
    exact holds
  · intro focus reason reached holds ran
    rw [Has, (onEnv_error.mp ran).2]
    exact holds.within

theorem modifySelf_stores {change : Encoder → Encoder}
    (same : ∀ encoder, (change encoder).launch.withoutImpls = encoder.launch.withoutImpls) :
    Stores exec buffers events buffers events (modifySelf change) :=
  fun focus holds => holds.of_withoutImpls (same focus.object)

theorem require_stores {β : Type} {buffers' : List MgBuffer} {events' : List MgEvent}
    {condition : Prop} [Decidable condition] {reason : Fault} {next : Unit → Over Encoder β}
    (rest : Stores exec buffers events buffers' events' (next ())) :
    Stores exec buffers events buffers' events' (Eff.require condition reason >>= next) :=
  .require (fun _ => rest) fun _ _ holds => holds.within

theorem retainLaunchBuffer_stores (buffer : MgBuffer) :
    Stores exec (buffer :: buffers) events buffers events (retainLaunchBuffer buffer) :=
  .bind (onEnv_stores _) fun _ => self_then fun _ => require_stores fun _ holds =>
    { holds with buffers := (List.append_assoc _ _ _).trans holds.buffers }

theorem retainLaunchEvent_stores (event : MgEvent) :
    Stores exec buffers (event :: events) buffers events (retainLaunchEvent event) :=
  .bind (onEnv_stores _) fun _ => self_then fun _ => require_stores fun _ holds =>
    { holds with events := (List.append_assoc _ _ _).trans holds.events }

theorem commitCurrent_stores : Stores exec buffers events buffers events commitCurrent :=
  self_then fun _ => .bind (onEnv_stores _) fun _ => self_then fun _ =>
    .bind (.whenever (fun _ => .bind (onEnv_stores _) fun _ => modifySelf_stores fun _ => rfl)
      fun _ _ holds => holds) fun _ => modifySelf_stores fun _ => rfl

theorem nextCommandBuffer_stores (nodeId : MgNodeId) :
    Stores exec buffers events buffers events (nextCommandBuffer nodeId) :=
  .bind (onEnv_stores _) fun _ => .orFail (fun _ _ => modifySelf_stores fun _ => rfl)
    fun _ _ holds => holds.within

theorem flushWork_stores (nodeId : MgNodeId) :
    Stores exec buffers events buffers events (flushWork nodeId) :=
  self_then fun _ => .bind commitCurrent_stores fun _ => .bind (onEnv_stores _) fun _ =>
    require_stores (nextCommandBuffer_stores nodeId)

theorem encodeCommand_stores (command : Command) :
    Stores exec buffers events buffers events (encodeCommand command) :=
  self_then fun _ => onEnv_stores _

theorem markWork_stores : Stores exec buffers events buffers events markWork :=
  modifySelf_stores fun _ => rfl

theorem mgMpsgraphEncodeNode_stores (mpsgraph : MgExecMpsgraph) :
    Stores exec buffers events buffers events (mgMpsgraphEncodeNode mpsgraph) :=
  .bind (onEnv_stores _) fun _ => require_stores (require_stores
    (.bind (onEnv_stores _) fun _ => .bind (onEnv_stores _) fun _ => .bind (onEnv_stores _)
      fun _ => encodeCommand_stores _))

theorem stores_rules (commands : List Command) :
    EncodeRules
      (fun buffers events => Has fun encoder => Storing exec buffers events encoder.launch)
      (fun _ => Has fun encoder => WithinArrays exec encoder.launch) commands where
  request _ _ _ _ := onEnv_stores _
  command _ _ command _ := encodeCommand_stores command
  buffer buffer _ _ := retainLaunchBuffer_stores buffer
  event event _ _ := retainLaunchEvent_stores event
  mark _ _ := markWork_stores
  commit _ _ := commitCurrent_stores
  next _ _ nodeId := nextCommandBuffer_stores nodeId
  flush _ _ nodeId := flushWork_stores nodeId

theorem stores_node (node : MgExecNode) :
    NodeRules
      (fun buffers events => Has fun encoder => Storing exec buffers events encoder.launch)
      (fun _ => Has fun encoder => WithinArrays exec encoder.launch) node where
  mpsgraph _ _ mpsgraph _ := mgMpsgraphEncodeNode_stores mpsgraph
  unknown _ _ _ _ := .fail fun _ holds => holds.within

/-- Either path stores all that the nodes use. -/
theorem encodeDirect_stores :
    Stores exec (exec.nodes.flatMap MgExecNode.buffers) (exec.nodes.flatMap MgExecNode.events)
      [] [] (encodeDirect exec) :=
  (stores_rules _).direct (fun node _ => stores_node node) fun _ listed => listed

theorem encodeIcb_stores (icb : IndirectCommandBuffer) :
    Stores exec (exec.nodes.flatMap MgExecNode.buffers) (exec.nodes.flatMap MgExecNode.events)
      [] [] (encodeIcb exec icb) :=
  (stores_rules _).indirect (List.mem_singleton_self _) fun _ _ _ _ _ _ holds => holds.within

end Storing

/-! ### Launches -/

/-- How a launch fails: before it has arrays, or by destroying what it has stored. -/
inductive Abandoned (exec : MgGraphExec) (start reached : Env) : Prop
  | unallocated (heap : reached.heap = start.heap)
  | destroyed {launch : MgLaunch} {env : Env} (within : WithinArrays exec launch)
      (released : mgLaunchDestroy launch env = (.ok (), reached))

section Launch

variable {exec : MgGraphExec} {start : Env}

/-- Nothing is retained so far. -/
def Untouched (start : Env) (env : Env) : Prop := env.heap = start.heap

theorem attempt_untouched : Stable (fun _ : Fault => False) (Untouched start) attempt := by
  intro env same
  unfold attempt
  cases env.oracle env.clock <;> exact same

theorem attemptOr_untouched (reason : Fault) :
    Stable (fun _ => False) (Untouched start) (attemptOr reason) :=
  .bind attempt_untouched fun _ => .require

theorem allocateLaunch_untouched :
    Stable (fun _ => False) (Untouched start) (allocateLaunch exec) :=
  .bind (attemptOr_untouched _) fun _ => .bind (.whenever fun _ => attemptOr_untouched _) fun _ =>
    .bind (.whenever fun _ => attemptOr_untouched _) fun _ => .pure _

theorem allocateLaunch_storing {launch : MgLaunch} {env reached : Env}
    (success : allocateLaunch exec env = (.ok launch, reached)) :
    Storing exec (exec.nodes.flatMap MgExecNode.buffers) (exec.nodes.flatMap MgExecNode.events)
      launch := by
  simp only [allocateLaunch, bind_ok, pure_ok] at success
  obtain ⟨_, _, _, _, _, _, _, _, _, rfl, _⟩ := success
  exact ⟨rfl, rfl, rfl, rfl, rfl⟩

/-- A part of a launch that fails destroys what is stored by then. -/
theorem Stores.abandons {encoder : Encoder} {buffers buffers' : List MgBuffer}
    {events events' : List MgEvent} {body : Over Encoder Unit} {env reached : Env}
    {reason : Fault} (stores : Stores exec buffers events buffers' events' body)
    (storing : Storing exec buffers events encoder.launch)
    (stopped : withLocal encoder body (fun encoder => mgLaunchDestroy encoder.launch) env =
      (.error reason, reached)) : Abandoned exec start reached := by
  obtain ⟨focus, ran, released⟩ :=
    withLocal_error (fun _ => (mgLaunchDestroy_total _).fails) stopped
  have entry : Has (fun encoder => Storing exec buffers events encoder.launch) ⟨encoder, env⟩ :=
    storing
  exact .destroyed (stores.error entry ran) released

theorem LaunchStop.abandoned {reason : Fault} {reached : Env}
    (stop : LaunchStop exec start reason reached) : Abandoned exec start reached := by
  cases stop with
  | missing message => exact .unallocated rfl
  | refused created => exact .unallocated (by rw [newCommandBuffer_refused created])
  | unallocated created stopped =>
      obtain ⟨_, made⟩ := newCommandBuffer_ok created
      have kept := congrArg Env.heap made
      exact .unallocated (allocateLaunch_untouched.of_run kept stopped)
  | direct created ready usable stopped =>
      exact encodeDirect_stores.abandons (allocateLaunch_storing ready) stopped
  | indirect created ready usable stopped =>
      exact (encodeIcb_stores _).abandons (allocateLaunch_storing ready) stopped
  | uncommitted created ready usable encoded stopped =>
      have storing := (encodeIcb_stores _).ok (allocateLaunch_storing ready) encoded
      exact commitCurrent_stores.abandons storing stopped

/-- A launch that succeeds has stored what its nodes use. -/
theorem LaunchRun.storing {address : ExecPtr} {launch : MgLaunch} {reached : Focus MgGraphExec}
    (run : LaunchRun address exec start launch reached) : Storing exec [] [] launch := by
  cases run with
  | direct created ready usable encoded =>
      have storing := encodeDirect_stores.ok (allocateLaunch_storing ready) encoded
      exact { storing with }
  | indirect created ready usable encoded committed =>
      have middle := (encodeIcb_stores _).ok (allocateLaunch_storing ready) encoded
      have storing := commitCurrent_stores.ok middle committed
      exact { storing with }

end Launch

/-- The arrays are full, and hold what these commands name, each as often. -/
structure FillsArrays (exec : MgGraphExec) (commands : List Command) (launch : MgLaunch) :
    Prop where
  bufferSlots :
    launch.retainedBufferSlots = (exec.nodes.map MgExecNode.retainedBufferCount).sum
  eventSlots : launch.retainedEventSlots = (exec.nodes.map MgExecNode.retainedEventCount).sum
  buffersFull : launch.retainedBuffers.length = launch.retainedBufferSlots
  eventsFull : launch.retainedEvents.length = launch.retainedEventSlots
  buffers : launch.retainedBuffers = exec.nodes.flatMap MgExecNode.buffers
  events : launch.retainedEvents = exec.nodes.flatMap MgExecNode.events
  namedBuffers : ((commands.flatMap Command.work).flatMap Command.buffers).Perm
    (launch.retainedBuffers.map (fun buffer => some buffer.impl) ++
      exec.nodes.flatMap (MgExecNode.workspaceUses launch.retainedWorkspaceImpl))
  namedEvents : (commands.flatMap Command.work).flatMap Command.events =
    launch.retainedEvents.map MgEvent.impl

theorem Storing.fills {exec : MgGraphExec} {launch : MgLaunch}
    (storing : Storing exec [] [] launch) (wf : ExecWf exec) :
    FillsArrays exec (launchCommands exec) launch := by
  have buffers := storing.buffers
  have events := storing.events
  rw [List.append_nil] at buffers events
  refine ⟨storing.bufferSlots, storing.eventSlots, ?_, ?_, buffers, events, ?_, ?_⟩
  · rw [storing.bufferSlots, counted_buffers, buffers]
  · rw [storing.eventSlots, counted_events, events]
  · rw [launchCommands_work wf, List.flatMap_assoc, buffers, List.map_flatMap, storing.workspace]
    exact (List.Perm.flatMap_left _ fun node _ => nodeCommands_buffers _ node).trans
      (List.flatMap_append_perm _ _ _).symm
  · rw [launchCommands_work wf, List.flatMap_assoc, events, List.map_flatMap]
    simp only [nodeCommands_events]

/-- What becomes of the arrays of a launch, however it ends. A store past the end of its
array is undefined. -/
inductive Retention (exec : MgGraphExec) (start : Env) : Except Fault MgLaunch → Env → Prop
  | failed {reason : Fault} {reached : Env} (defined : reason ≠ .undefined)
      (abandoned : Abandoned exec start reached) : Retention exec start (.error reason) reached
  | returned {launch : MgLaunch} {events : List MetalEvent} {reached : Env}
      (trace : reached.trace = start.trace ++ events)
      (fills : FillsArrays exec (committedCommands events) launch) :
      Retention exec start (.ok launch) reached

/-- No store of a launch goes past an array that the counting pass has sized, wherever
the launch fails; a launch that is returned has filled its arrays with the buffers and
events of the commands it committed, each as often as they name it. -/
theorem launch_stores_within_arrays {system : System} {address : ExecPtr} {exec : MgGraphExec}
    (reachable : Reachable system) (live : system.world.execs.get? address = some exec)
    (stream : Option MgStream) :
    let launched := mgGraphLaunch address stream ⟨exec, system.world.env⟩
    Retention exec system.world.env launched.1 launched.2.env := by
  have wf := reachable.execWf live
  dsimp only
  rcases ran : mgGraphLaunch address stream ⟨exec, system.world.env⟩ with
    ⟨reason | launch, reached⟩
  · exact .failed (mgGraphLaunch_halts wf (reachable.supports address exec live) ran).defined
      (mgGraphLaunch_stop ran).abandoned
  · obtain ⟨events, trace, submitted⟩ := mgGraphLaunch_submits ran
    have storing := (mgGraphLaunch_run ran).storing
    exact .returned trace (submitted.commands ▸ storing.fills wf)

/-- The launch of two fills and an MPSGraph node between them. -/
theorem launch_stores_within_arrays_of_mixed :
    ∃ built, ((grantAll.run mixedCalls).step launchMixed).world.launches.get? 0 = some built ∧
      built.retainedBuffers = [sharedBuffer, sharedBuffer, sharedBuffer, sharedBuffer] ∧
      built.retainedBufferSlots = 4 := by
  obtain ⟨built, focus, ran, first, world⟩ := launch_recorded mixed_instantiated mixed_launched
  have retention :=
    launch_stores_within_arrays mixed_reachable mixed_instantiated (some ⟨some 7⟩)
  rw [ran] at retention
  cases retention with
  | returned trace fills =>
      refine ⟨built, ?_, fills.buffers, fills.bufferSlots⟩
      rw [launchMixed, world, Slots.get?_push, if_pos first]

end MetalGraph
