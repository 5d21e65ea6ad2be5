import MetalGraph.Proofs.Alignment
import MetalGraph.Proofs.DispatchChecks
import MetalGraph.Proofs.PatchFrame

set_option autoImplicit false

/- A patch does what a rebuild would do: adding the node again from its descriptor with
the patched fields replaced, and cloning what is stored. -/
namespace MetalGraph

open Eff

/-- The addition from the node's descriptor with the patched fields replaced. Copies and
fills are patched by a whole descriptor. -/
def ExecPatch.replaced : ExecPatch → MgExecNode → Option NodeAddition
  | .dispatchGrid _ (some grid), .dispatch node =>
    some (.dispatch (some { node.toMgDispatchNode.desc with gridSize := grid }))
  | .dispatchBuffer _ index (some buffer) offset, .dispatch node =>
    (bindingAt node.buffers index).map fun entry =>
      .dispatch (some { node.toMgDispatchNode.desc with
        buffers := some ((node.buffers.map MgBufferBinding.described).set entry.2
          ⟨index, some buffer, offset⟩) })
  | .dispatchScalar _ index (some data), .dispatch node =>
    (scalarAt node.scalars index).map fun entry =>
      .dispatch (some { node.toMgDispatchNode.desc with
        scalars := some ((node.scalars.map MgScalarBinding.described).set entry.2
          ⟨index, some data⟩) })
  | .copyNode _ (some desc), .copy _ => some (.copy (some desc))
  | .fillNode _ (some desc), .fill _ => some (.fill (some desc))
  | .eventValue _ value, .eventWait node => some (.eventWait (some node.event) value)
  | .eventValue _ value, .eventSignal node => some (.eventSignal (some node.event) value)
  | _, _ => none

/-- When allocations succeed, every graph with room accepts the addition, and the node it
stores clones to this one once it has the same id and flags. -/
def NodeAddition.Rebuilds (addition : NodeAddition) (node : MgExecNode) : Prop :=
  ∃ as id flags, ∀ (graph : MgGraph) (env : Env),
    (graph.nodes.length + 1) * sizeofMgNode ≤ 2 ^ 64 → env.Granting →
      (∃ pointer focus, addition.run ⟨graph, env⟩ = (.ok pointer, focus) ∧
        focus.object.nodes = graph.nodes ++ [newNode graph as]) ∧
      ∀ plan, ∃ reached,
        instantiateNode { newNode graph as with id := id, patchFlags := flags } plan env =
          (.ok node, reached)

/-! ### Cloning on a granting machine -/

theorem mgCloneDispatch_yields (id : MgNodeId) (flags : MgPatchFlags) (node : MgDispatchNode) :
    Yields (mgCloneDispatch id flags node) Whatever :=
  (attemptBoth_yields _).bind fun _ _ => (copyBindings_yields _ _).catching.bind fun _ _ =>
    (copyScalarsAndResources_yields _ _ _).catching.bind fun _ _ => .pure trivial

/-- A patchable node clones to a node without an executable to load. -/
theorem mgCloneExecNode_yields {src : MgNode} {plan : MgWorkspacePlan}
    (patchable : src.patchable = true) :
    Yields (mgCloneExecNode src plan) fun node => ∀ mpsgraph, node ≠ .mpsgraph mpsgraph := by
  obtain ⟨graph, id, index, flags, as⟩ := src
  cases as with
  | dispatch node =>
      exact (mgCloneDispatch_yields _ _ _).catching.bind fun _ _ => .pure nofun
  | copy node =>
      exact (retainObject_yields _).catching.bind fun _ _ =>
        (retainObject_yields _).catching.bind fun _ _ => .pure nofun
  | fill node | eventWait node | eventSignal node =>
      exact (retainObject_yields _).catching.bind fun _ _ => .pure nofun
  | barrier => exact .pure nofun
  | mpsgraph | workspace | workspaceFill | unknown => cases patchable

theorem loadNode_yields {node : MgExecNode} (other : ∀ mpsgraph, node ≠ .mpsgraph mpsgraph) :
    Yields (loadNode node) Whatever := by
  cases node with
  | dispatch dispatch =>
      have pipeline : Yields (loadPipeline dispatch) Whatever :=
        (attemptOr_yields _).bind fun _ _ => (attemptOr_yields _).bind fun _ _ =>
          (attemptOr_yields _).bind fun _ _ => .pure trivial
      exact pipeline.bind fun _ _ => .pure trivial
  | mpsgraph mpsgraph => exact absurd rfl (other mpsgraph)
  | copy | fill | eventWait | eventSignal | barrier | workspace | workspaceFill | unknown =>
      exact .pure trivial

theorem instantiateNode_yields {src : MgNode} {plan : MgWorkspacePlan}
    (patchable : src.patchable = true) : Yields (instantiateNode src plan) Whatever :=
  (mgCloneExecNode_yields patchable).bind fun _ other => (loadNode_yields other).catching

theorem instantiated_patchable {src : MgNode} (patchable : src.patchable = true)
    (offset : UInt64) : src.instantiated offset = src.instantiated 0 := by
  obtain ⟨graph, id, index, flags, as⟩ := src
  cases as with
  | dispatch | copy | fill | eventWait | eventSignal | barrier => rfl
  | mpsgraph | workspace | workspaceFill | unknown => cases patchable

/-- A patchable node clones to the same thing whatever the workspace plan. -/
theorem instantiateNode_patchable {src : MgNode} (patchable : src.patchable = true)
    (plan : MgWorkspacePlan) {env : Env} (granting : env.Granting) :
    ∃ reached, instantiateNode src plan env = (.ok (src.instantiated 0), reached) := by
  have ran : Yields (instantiateNode src plan) Whatever := instantiateNode_yields patchable
  have outcome_ok := ran env granting
  rcases outcome : instantiateNode src plan env with ⟨reason | node, reached⟩ <;>
    simp only [outcome] at outcome_ok
  obtain ⟨offset, rfl, _⟩ := instantiateNode_ok outcome
  exact ⟨reached, by rw [instantiated_patchable patchable offset]⟩

/-- An accepted addition rebuilds what its node clones to. -/
theorem rebuilds_of_accepted (addition : NodeAddition) {as : MgNodeAs} {node : MgExecNode}
    (id : MgNodeId) (flags : MgPatchFlags) (accepted : Accepted addition.run as)
    (patchable : ∀ graph index, MgNode.patchable ⟨graph, id, index, flags, as⟩ = true)
    (copies : ∀ graph index, MgNode.instantiated ⟨graph, id, index, flags, as⟩ 0 = node) :
    addition.Rebuilds node := by
  refine ⟨as, id, flags, fun graph env room granting => ⟨?_, fun plan => ?_⟩⟩
  · obtain ⟨pointer, focus, ran, added⟩ := accepted.added granting room
    exact ⟨pointer, focus, ran, added.nodes⟩
  · have cloned := instantiateNode_patchable (patchable graph.address graph.nodes.length) plan
      granting
    rw [copies] at cloned
    exact cloned

/-! ### Pipelines -/

/-- Every dispatch has the pipeline of its kernel. -/
def PipelinesLoaded (exec : MgGraphExec) : Prop :=
  ∀ dispatch, .dispatch dispatch ∈ exec.nodes →
    dispatch.pipelineImpl = some ⟨dispatch.metallibPath, dispatch.kernelName⟩

theorem Instantiates.pipelinesLoaded {graph : MgGraph} {order : List Nat} {exec : MgGraphExec}
    (made : Instantiates graph order exec) : PipelinesLoaded exec := by
  intro dispatch member
  obtain ⟨index, _, src, offset, present, same, _⟩ := mem_of_forall₂' made.nodes member
  obtain ⟨graph, id, place, flags, as⟩ := src
  cases as with
  | dispatch node =>
      cases same
      rfl
  | _ => cases same

theorem Frozen.pipelinesLoaded {before after : MgGraphExec} (frozen : Frozen before after)
    (loaded : PipelinesLoaded before) : PipelinesLoaded after := by
  intro dispatch member
  obtain ⟨old, listed, kept⟩ := mem_of_forall₂' frozen.nodes member
  cases kept with
  | same => exact loaded dispatch listed
  | dispatch kept =>
      rw [kept.pipelineImpl, kept.metallibPath, kept.kernelName]
      exact loaded _ listed

theorem Reachable.pipelinesLoaded {system : System} (reachable : Reachable system)
    {address : ExecPtr} {exec : MgGraphExec}
    (live : system.world.execs.get? address = some exec) : PipelinesLoaded exec := by
  refine reachable.exec_invariant (fun _ _ _ _ _ made => made.pipelinesLoaded)
    (fun _ _ _ _ loaded step => step.frozen.pipelinesLoaded loaded) ?_ address exec live
  intro before after loaded same dispatch member
  rw [same.nodes] at member
  exact loaded dispatch member

/-! ### Successful patches -/

/-- A dispatch of a plan clones from its own descriptor. -/
theorem DispatchValid.rebuilds {dispatch : MgExecDispatch}
    (valid : DispatchValid dispatch.toMgDispatchNode)
    (loaded : dispatch.pipelineImpl = some ⟨dispatch.metallibPath, dispatch.kernelName⟩) :
    NodeAddition.Rebuilds (.dispatch (some dispatch.toMgDispatchNode.desc))
      (.dispatch dispatch) := by
  obtain ⟨node, id, flags, pipeline⟩ := dispatch
  obtain rfl : pipeline = some ⟨node.metallibPath, node.kernelName⟩ := loaded
  exact rebuilds_of_accepted (.dispatch (some node.desc)) id flags valid.accepted
    (fun _ _ => rfl) fun _ _ => rfl

/-- What the patched node was rebuilt from, beside the place it is stored at. -/
def RebuiltAt (exec : MgGraphExec) (patch : ExecPatch) (after : MgGraphExec) : Prop :=
  ∃ position node fresh addition, patch.Addresses exec position ∧
    exec.nodes[position]? = some node ∧ patch.replaced node = some addition ∧
    after = exec.stored position fresh ∧ addition.Rebuilds fresh

section Success

variable {exec : MgGraphExec} {env : Env} {patch : ExecPatch} {reached : Focus MgGraphExec}

theorem described_bindings_set {buffers : List MgBufferBinding} {index : UInt32}
    {binding : MgBufferBinding} {slot : Nat}
    (found : bindingAt buffers index = some (binding, slot)) (buffer : MgBuffer)
    (offset : UInt64) :
    (buffers.map MgBufferBinding.described).set slot ⟨index, some buffer, offset⟩ =
      (buffers.set slot { binding with buffer := buffer, offset := offset }).map
        MgBufferBinding.described := by
  obtain ⟨_, named⟩ := bindingAt_eq found
  rw [List.map_set, ← named]
  rfl

theorem described_scalars_set {scalars : List MgScalarBinding} {index : UInt32}
    {scalar : MgScalarBinding} {slot : Nat}
    (found : scalarAt scalars index = some (scalar, slot)) (data : List UInt8) :
    (scalars.map MgScalarBinding.described).set slot ⟨index, some data⟩ =
      (scalars.set slot { scalar with data := data }).map MgScalarBinding.described := by
  obtain ⟨_, named⟩ := scalarAt_eq found
  rw [List.map_set, ← named]
  rfl

theorem stored_mem {position : Nat} {old : MgExecNode} (present : exec.nodes[position]? = some old)
    (fresh : MgExecNode) : fresh ∈ (exec.stored position fresh).nodes :=
  List.mem_set (List.getElem?_eq_some_iff.mp present).1 fresh

/-- A patched dispatch is what its node is rebuilt to from the replaced descriptor. -/
theorem DispatchTarget.rebuilt {nodeId : MgNodeId} {flag : MgPatchFlags} {position : Nat}
    {dispatch fresh : MgExecDispatch} (target : DispatchTarget exec nodeId flag position dispatch)
    (named : patch.nodeId = some nodeId)
    (replaced : patch.replaced (.dispatch dispatch) =
      some (.dispatch (some fresh.toMgDispatchNode.desc)))
    (wf : ExecWf (exec.stored position (.dispatch fresh)))
    (loaded : PipelinesLoaded (exec.stored position (.dispatch fresh))) :
    RebuiltAt exec patch (exec.stored position (.dispatch fresh)) := by
  have present := target.target.present
  have member := stored_mem present (.dispatch fresh)
  have valid : DispatchValid fresh.toMgDispatchNode := wf.nodes _ member
  exact ⟨position, _, _, _, target.target.addresses named, present, replaced, rfl,
    valid.rebuilds (loaded fresh member)⟩

/-- A patch that addresses a node does to it what a rebuild would do. -/
theorem PatchStep.rebuilt (wf : ExecWf exec) (loaded : PipelinesLoaded exec)
    (step : PatchStep exec env patch reached) (addressing : patch.nodeId ≠ none) :
    RebuiltAt exec patch reached.object := by
  have stillWf := wf.patched step
  have stillLoaded := step.frozen.pipelinesLoaded loaded
  cases step with
  | dispatchGrid target valid within => exact target.rebuilt rfl rfl stillWf stillLoaded
  | dispatchBuffer target fits bound valid device =>
      refine target.rebuilt rfl ?_ stillWf stillLoaded
      simp only [ExecPatch.replaced, bound, Option.map_some, described_bindings_set bound]
      rfl
  | dispatchScalar target filled bound same =>
      refine target.rebuilt rfl ?_ stillWf stillLoaded
      simp only [ExecPatch.replaced, bound, Option.map_some, described_scalars_set bound]
      rfl
  | @copyNode nodeId position copy desc new target given buffers ranges =>
      refine ⟨position, _, _, _, target.addresses rfl, target.present, rfl, rfl, ?_⟩
      exact rebuilds_of_accepted (.copy (some desc)) copy.id copy.patchFlags
        (mgGraphAddCopyNode_accepted given) (fun _ _ => rfl) fun _ _ => rfl
  | @fillNode nodeId position fill desc new target given buffers ranges values =>
      refine ⟨position, _, _, _, target.addresses rfl, target.present, rfl, rfl, ?_⟩
      exact rebuilds_of_accepted (.fill (some desc)) fill.id fill.patchFlags
        (mgGraphAddFillNode_accepted given) (fun _ _ => rfl) fun _ _ => rfl
  | @eventValue nodeId position node event value target given declared =>
      have present := target.present
      have addressed : ExecPatch.Addresses (.eventValue nodeId value) exec position :=
        target.addresses rfl
      cases node with
      | eventWait node =>
          cases given
          refine ⟨position, _, _, _, addressed, present, rfl, rfl, ?_⟩
          exact rebuilds_of_accepted (.eventWait (some event.event) value) event.id event.patchFlags
            (mgGraphAddEventNode_accepted .eventWait event.event value) (fun _ _ => rfl)
            fun _ _ => rfl
      | eventSignal node =>
          cases given
          refine ⟨position, _, _, _, addressed, present, rfl, rfl, ?_⟩
          exact rebuilds_of_accepted (.eventSignal (some event.event) value) event.id
            event.patchFlags (mgGraphAddEventNode_accepted .eventSignal event.event value)
            (fun _ _ => rfl) fun _ _ => rfl
      | _ => cases given
  | optimizationFlags => exact absurd rfl addressing

end Success

end MetalGraph
