import MetalGraph.Proofs.MachineRules
import MetalGraph.Proofs.Segmentation

set_option autoImplicit false

/- The encode loop, walked once for all its invariants. -/
namespace MetalGraph

open Eff

/-! ### What the nodes use -/

def MgExecNode.buffers : MgExecNode → List MgBuffer
  | .dispatch node => node.buffers.map MgBufferBinding.buffer
  | .copy node => [node.src, node.dst]
  | .fill node => [node.dst]
  | .mpsgraph node => (node.feeds ++ node.targets).map MgMpsgraphTensor.buffer
  | .workspaceFill node => [node.dst]
  | .eventWait _ | .eventSignal _ | .barrier _ | .workspace _ | .unknown _ => []

def MgExecNode.events : MgExecNode → List MgEvent
  | .eventWait node | .eventSignal node => [node.event]
  | _ => []

theorem retainedBufferCount_eq (node : MgExecNode) :
    node.retainedBufferCount = node.buffers.length := by
  cases node <;> simp [MgExecNode.retainedBufferCount, MgExecNode.buffers]

theorem retainedEventCount_eq (node : MgExecNode) :
    node.retainedEventCount = node.events.length := by
  cases node <;> rfl

/-- The counting pass counts what the nodes use. -/
theorem counted_buffers (nodes : List MgExecNode) :
    (nodes.map MgExecNode.retainedBufferCount).sum =
      (nodes.flatMap MgExecNode.buffers).length := by
  rw [List.length_flatMap, funext retainedBufferCount_eq]

theorem counted_events (nodes : List MgExecNode) :
    (nodes.map MgExecNode.retainedEventCount).sum = (nodes.flatMap MgExecNode.events).length := by
  rw [List.length_flatMap, funext retainedEventCount_eq]

/-! ### The walk -/

/-- The steps that the nodes share keep an invariant, which may speak of the buffers and
the events that are still to be retained. -/
structure EncodeRules (invariant : List MgBuffer → List MgEvent → Focus Encoder → Prop)
    (failed : Fault → Focus Encoder → Prop) (commands : List Command) : Prop where
  request : ∀ buffers events nodeId message, Triple (invariant buffers events)
    (onEnv (attemptOr (encodeFault nodeId message))) (fun _ => invariant buffers events) failed
  command : ∀ buffers events, ∀ command ∈ commands, Triple (invariant buffers events)
    (encodeCommand command) (fun _ => invariant buffers events) failed
  buffer : ∀ buffer buffers events, Triple (invariant (buffer :: buffers) events)
    (retainLaunchBuffer buffer) (fun _ => invariant buffers events) failed
  event : ∀ event buffers events, Triple (invariant buffers (event :: events))
    (retainLaunchEvent event) (fun _ => invariant buffers events) failed
  mark : ∀ buffers events, Triple (invariant buffers events) markWork
    (fun _ => invariant buffers events) failed
  commit : ∀ buffers events, Triple (invariant buffers events) commitCurrent
    (fun _ => invariant buffers events) failed
  next : ∀ buffers events nodeId, Triple (invariant buffers events) (nextCommandBuffer nodeId)
    (fun _ => invariant buffers events) failed
  flush : ∀ buffers events nodeId, Triple (invariant buffers events) (flushWork nodeId)
    (fun _ => invariant buffers events) failed

/-- The steps that the kind of a node decides keep the invariant too. -/
structure NodeRules (invariant : List MgBuffer → List MgEvent → Focus Encoder → Prop)
    (failed : Fault → Focus Encoder → Prop) (node : MgExecNode) : Prop where
  mpsgraph : ∀ buffers events mpsgraph, node = .mpsgraph mpsgraph →
    Triple (invariant buffers events) (mgMpsgraphEncodeNode mpsgraph)
      (fun _ => invariant buffers events) failed
  unknown : ∀ buffers events kind, node = .unknown kind →
    Triple (invariant buffers events) (encodeNode none (.unknown kind))
      (fun _ => invariant buffers events) failed

namespace EncodeRules

variable {invariant : List MgBuffer → List MgEvent → Focus Encoder → Prop}
  {failed : Fault → Focus Encoder → Prop} {commands : List Command} {buffers : List MgBuffer}
  {events : List MgEvent}

theorem retains (rules : EncodeRules invariant failed commands) {γ : Type}
    (buffer : γ → MgBuffer) (values : List γ) :
    Triple (invariant (values.map buffer ++ buffers) events)
      (Eff.forEach (fun value => retainLaunchBuffer (buffer value)) values)
      (fun _ => invariant buffers events) failed := by
  induction values with
  | nil => exact .pure fun _ holds => holds
  | cons value rest ih => exact .bind (rules.buffer (buffer value) _ _) fun _ => ih

/-- A node retains what it uses, on the way of its kind. -/
theorem node (rules : EncodeRules invariant failed commands) {workspace : Option MetalBuffer}
    {node : MgExecNode} (own : NodeRules invariant failed node)
    (listed : ∀ command ∈ nodeCommands workspace node, command ∈ commands) :
    Triple (invariant (node.buffers ++ buffers) (node.events ++ events))
      (encodeNode workspace node) (fun _ => invariant buffers events) failed := by
  cases node with
  | dispatch dispatch =>
      exact .bind (rules.request _ _ _ _) fun _ =>
        .bind (rules.command _ _ _ (listed _ (.head _))) fun _ =>
        .bind (rules.retains _ _) fun _ => rules.mark _ _
  | copy copy =>
      exact .bind (rules.request _ _ _ _) fun _ =>
        .bind (rules.command _ _ _ (listed _ (.head _))) fun _ =>
        .bind (rules.buffer _ _ _) fun _ => .bind (rules.buffer _ _ _) fun _ => rules.mark _ _
  | fill fill =>
      exact .bind (rules.request _ _ _ _) fun _ =>
        .bind (rules.command _ _ _ (listed _ (.head _))) fun _ =>
        .bind (rules.buffer _ _ _) fun _ => rules.mark _ _
  | eventWait event | eventSignal event =>
      exact .bind (rules.command _ _ _ (listed _ (.head _))) fun _ =>
        .bind (rules.event _ _ _) fun _ => rules.mark _ _
  | barrier id | workspace node => exact .pure fun _ holds => holds
  | mpsgraph mpsgraph =>
      rw [MgExecNode.buffers, List.map_append, List.append_assoc]
      exact self_then fun _ =>
        .bind (.whenever (fun _ => rules.flush _ _ _) fun _ _ holds => holds) fun _ =>
        .bind (own.mpsgraph _ _ _ rfl) fun _ => .bind (rules.retains _ _) fun _ =>
        .bind (rules.retains _ _) fun _ => .bind (rules.commit _ _) fun _ => rules.next _ _ _
  | workspaceFill fill =>
      exact .bind (rules.request _ _ _ _) fun _ =>
        .bind (.bind (rules.command _ _ _ (listed _ (.head _))) fun _ =>
          .bind (rules.command _ _ _ (listed _ (.tail _ (.head _)))) fun _ =>
          .pure fun _ holds => holds) fun _ =>
        .bind (rules.buffer _ _ _) fun _ => rules.mark _ _
  | unknown kind => exact own.unknown _ _ _ rfl

theorem nodes (rules : EncodeRules invariant failed commands) {workspace : Option MetalBuffer}
    {nodes : List MgExecNode} (own : ∀ node ∈ nodes, NodeRules invariant failed node)
    (listed : ∀ command ∈ nodes.flatMap (nodeCommands workspace), command ∈ commands) :
    Triple (invariant (nodes.flatMap MgExecNode.buffers) (nodes.flatMap MgExecNode.events))
      (Eff.forEach (encodeNode workspace) nodes) (fun _ => invariant [] []) failed := by
  induction nodes with
  | nil => exact .pure fun _ holds => holds
  | cons node rest ih =>
      rw [List.flatMap_cons, List.flatMap_cons]
      rw [List.flatMap_cons] at listed
      refine .bind (rules.node (own node (by simp)) fun command member =>
        listed command (List.mem_append_left _ member)) fun _ => ?_
      exact ih (fun other member => own other (.tail _ member))
        fun command member => listed command (List.mem_append_right _ member)

/-- A direct launch retains what its nodes use. -/
theorem direct (rules : EncodeRules invariant failed commands) {exec : MgGraphExec}
    (own : ∀ node ∈ exec.nodes, NodeRules invariant failed node)
    (listed : ∀ command ∈ exec.nodes.flatMap (nodeCommands exec.workspace.backendImpl),
      command ∈ commands) :
    Triple (invariant (exec.nodes.flatMap MgExecNode.buffers)
      (exec.nodes.flatMap MgExecNode.events)) (encodeDirect exec) (fun _ => invariant [] [])
      failed :=
  .bind (rules.nodes own listed) fun _ => self_then fun _ =>
    .whenever (fun _ => rules.commit _ _) fun _ _ holds => holds

/-- An indirect launch retains what its nodes use, if it stops at every other node. -/
theorem indirect (rules : EncodeRules invariant failed commands) {exec : MgGraphExec}
    {icb : IndirectCommandBuffer}
    (listed : .executeCommands icb exec.icb.commandCount ∈ commands)
    (missed : ∀ node ∈ exec.nodes, asDispatch node = none →
      ∀ buffers events focus, invariant buffers events focus → failed .undefined focus) :
    Triple (invariant (exec.nodes.flatMap MgExecNode.buffers)
      (exec.nodes.flatMap MgExecNode.events)) (encodeIcb exec icb) (fun _ => invariant [] [])
      failed := by
  have loop : Triple (invariant (exec.nodes.flatMap MgExecNode.buffers)
      (exec.nodes.flatMap MgExecNode.events)) (Eff.forEach retainDispatchBuffers exec.nodes)
      (fun _ => invariant [] []) failed := by
    generalize exec.nodes = nodes at missed
    induction nodes with
    | nil => exact .pure fun _ holds => holds
    | cons node rest ih =>
        rw [List.flatMap_cons, List.flatMap_cons]
        refine .bind ?_ fun _ => ih fun other member => missed other (.tail _ member)
        refine .orFail (fun dispatch given => ?_) fun other => missed node (by simp) other _ _
        cases node with
        | dispatch dispatch =>
            cases given
            exact rules.retains _ _
        | _ => cases given
  exact .bind (rules.request _ _ _ _) fun _ => .bind (rules.command _ _ _ listed) fun _ => loop

end EncodeRules

end MetalGraph
