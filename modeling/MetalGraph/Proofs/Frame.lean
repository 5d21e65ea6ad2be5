import MetalGraph.Proofs.CallSteps

set_option autoImplicit false

/- No call takes anything back from the logs or changes what the build and the device
are like. -/
namespace MetalGraph

open Eff

/-- What stays as it was while the machine runs. -/
structure Env.Extends (before after : Env) : Prop where
  trace : before.trace <+: after.trace
  oracle : after.oracle = before.oracle
  enabled : after.mpsgraphEnabled = before.mpsgraphEnabled
  fails : after.commandBufferFails = before.commandBufferFails
  calls : before.ownerCalls <+: after.ownerCalls
  overflowed : before.heap.overflowed = true → after.heap.overflowed = true
  heap : before.heap.Keeps after.heap

instance : Preorder Env where
  le := Env.Extends
  le_refl env := ⟨List.prefix_rfl, rfl, rfl, rfl, List.prefix_rfl, id, .refl env.heap⟩
  le_trans _ _ _ first last := ⟨first.trace.trans last.trace,
    last.oracle.trans first.oracle, last.enabled.trans first.enabled,
    last.fails.trans first.fails, first.calls.trans last.calls, last.overflowed ∘ first.overflowed,
    first.heap.trans last.heap⟩

instance {τ : Type} : Preorder (Focus τ) := Preorder.lift Focus.env

section Primitives

variable {τ α β ε : Type}

theorem attempt_grows : Grows (attempt : Eff Env ε Bool) := by
  intro env
  unfold attempt
  split
  · exact ⟨List.prefix_rfl, rfl, rfl, rfl, List.prefix_rfl, id, .refl _⟩
  · exact ⟨List.prefix_append _ _, rfl, rfl, rfl, List.prefix_rfl, id, .refl _⟩

theorem attemptOr_grows (reason : ε) : Grows (attemptOr reason) :=
  .bind attempt_grows fun _ => .require

theorem attemptBoth_grows (reason : ε) : Grows (attemptBoth reason) :=
  .bind attempt_grows fun _ => .bind attempt_grows fun _ => .require

theorem emit_grows (event : MetalEvent) : Grows (emit event) :=
  .update fun _ => ⟨List.prefix_append _ _, rfl, rfl, rfl, List.prefix_rfl, id, .refl _⟩

theorem waitUntilCompleted_grows (commandBuffer : Nat) : Grows (waitUntilCompleted commandBuffer) :=
  fun _ => ⟨List.prefix_append _ _, rfl, rfl, rfl, List.prefix_rfl, id, .refl _⟩

theorem newCommandBuffer_grows : Grows newCommandBuffer := by
  refine .bind attempt_grows fun granted => ?_
  cases granted
  · exact .pure _
  · exact fun _ => ⟨List.prefix_rfl, rfl, rfl, rfl, List.prefix_rfl, id, .refl _⟩

theorem newMetalObject_grows : Grows newMetalObject :=
  fun _ => ⟨List.prefix_rfl, rfl, rfl, rfl, List.prefix_rfl, id, .refl _⟩

theorem newBufferWithLength_grows (device : Nat) (length : UInt64) (hasContents : Bool) :
    Grows (newBufferWithLength device length hasContents) := by
  refine .bind attempt_grows fun granted => ?_
  cases granted
  · exact .pure _
  · exact .bind newMetalObject_grows fun _ => .pure _

theorem retainObject_grows (address : Nat) : Grows (retainObject address) :=
  fun env => ⟨List.prefix_rfl, rfl, rfl, rfl, List.prefix_rfl, env.heap.retain_overflowed address,
    .retain env.heap address⟩

theorem releaseObject_grows (address : Nat) : Grows (releaseObject address) :=
  fun env => ⟨List.prefix_rfl, rfl, rfl, rfl, List.prefix_append _ _,
    (env.heap.release_overflowed address).trans, .release env.heap address⟩

theorem placeObject_grows (build : Nat → α) (object : α → Object) :
    Grows (placeObject build object) :=
  fun _ => ⟨List.prefix_rfl, rfl, rfl, rfl, List.prefix_rfl, id, .alloc _⟩

theorem mgArenaRelease_grows (arena : Option MgArena) : Grows (mgArenaRelease arena) := by
  cases arena
  · exact .pure ()
  · exact releaseObject_grows _

theorem cleaning_grows {body : Run α} {cleanup : Run Unit} (inner : Grows body)
    (cleans : Grows cleanup) : Grows (cleaning body cleanup) :=
  .catching inner fun _ => .bind cleans fun _ => .fail _

theorem holding_grows {body : Run α} {held : β} (inner : Grows body) :
    Grows (holding body held) := .catching inner fun _ => .fail _

theorem onEnv_grows {body : Run α} (inner : Grows body) : Grows (onEnv body : Over τ α) :=
  fun focus => inner focus.env

theorem self_grows : Grows (self : Over τ τ) := fun _ => le_rfl

theorem modifySelf_grows (change : τ → τ) : Grows (modifySelf change) :=
  fun focus => le_refl focus.env

theorem withLocal_grows {object : τ} {body : Over τ α} {cleanup : τ → Run Unit}
    (inner : Grows body) (cleans : ∀ object, Grows (cleanup object)) :
    Grows (withLocal object body cleanup) := by
  intro env
  have start : env ≤ (body ⟨object, env⟩).2.env := inner ⟨object, env⟩
  unfold withLocal
  rcases outcome : body ⟨object, env⟩ with ⟨reason | value, focus⟩ <;> rw [outcome] at start
  · exact start.trans ((Grows.bind (cleans focus.object) fun _ => .fail reason) focus.env)
  · exact start

end Primitives

/-! ### Objects and graphs -/

theorem ObjectCall.run_grows (call : ObjectCall) : Grows call.run := by
  cases call with
  | bufferCreateShared device length =>
      exact .bind (.bind .orFail fun _ => .bind .require fun _ =>
        .bind (newBufferWithLength_grows _ _ _) fun _ => .bind .orFail fun _ =>
        .bind (attemptOr_grows _) fun _ => .bind (attemptOr_grows _) fun _ =>
        placeObject_grows _ _) fun _ => .pure _
  | metalBufferWrap device desc =>
      refine .bind (.bind .orFail fun _ => .bind .orFail fun desc => .bind .ofExcept fun _ =>
        .bind .require fun _ => ?_) fun _ => .pure _
      split
      · exact .fail _
      · refine .bind .ofExcept fun _ => .bind .require fun _ => ?_
        split
        · exact .fail _
        · refine .bind .require fun _ => .bind (attemptOr_grows _) fun _ =>
            .bind (attemptOr_grows _) fun _ => .bind ?_ fun _ => placeObject_grows _ _
          cases desc.retainedOwner
          · exact .pure ()
          · exact fun _ => ⟨List.prefix_rfl, rfl, rfl, rfl, List.prefix_append _ _, id, .refl _⟩
  | eventCreate device =>
      exact .bind (.bind .orFail fun _ => .bind (attemptOr_grows _) fun _ =>
        .bind (attemptOr_grows _) fun _ => .bind (attemptOr_grows _) fun _ =>
        .bind newMetalObject_grows fun _ => placeObject_grows _ _) fun _ => .pure _
  | arenaCreate device desc =>
      exact .bind (.bind .orFail fun _ => .bind .ofExcept fun _ =>
        .bind (attemptOr_grows _) fun _ => placeObject_grows _ _) fun _ => .pure _
  | bufferDestroy buffer =>
      exact .bind (.forEach (fun _ => releaseObject_grows _) _) fun _ => .pure _
  | eventDestroy event =>
      exact .bind (.forEach (fun _ => releaseObject_grows _) _) fun _ => .pure _
  | arenaDestroy arena => exact .bind (mgArenaRelease_grows _) fun _ => .pure _

theorem bindingsClear_grows (buffers : List MgBufferBinding) :
    Grows (mgDispatchNodeClear buffers) := .forEach (fun _ => releaseObject_grows _) buffers

theorem tensorsClear_grows (tensors : List MgMpsgraphTensor) :
    Grows (mgMpsgraphTensorArrayClear tensors) := .forEach (fun _ => releaseObject_grows _) tensors

theorem mgNodeClear_grows (as : MgNodeAs) : Grows (mgNodeClear as) := by
  cases as with
  | dispatch node => exact bindingsClear_grows _
  | copy node => exact .bind (releaseObject_grows _) fun _ => releaseObject_grows _
  | fill node => exact releaseObject_grows _
  | eventWait node => exact releaseObject_grows _
  | eventSignal node => exact releaseObject_grows _
  | barrier => exact .pure ()
  | mpsgraph node => exact .bind (tensorsClear_grows _) fun _ => tensorsClear_grows _
  | workspace node => exact .pure ()
  | workspaceFill node => exact releaseObject_grows _
  | unknown kind => exact .pure ()

theorem mgGraphCreate_grows (address : GraphPtr) : Grows (mgGraphCreate address) :=
  .bind (attemptOr_grows _) fun _ => .pure _

theorem mgGraphDestroy_grows (graph : MgGraph) : Grows (mgGraphDestroy graph) :=
  .bind (.forEach (fun _ => mgNodeClear_grows _) _) fun _ => mgArenaRelease_grows _

theorem reserve_grows (required : Nat) : Grows (mgGraphReserveNodes required) := by
  refine .bind self_grows fun graph => ?_
  split
  · exact .pure ()
  · exact .bind (onEnv_grows (attemptOr_grows _)) fun _ => modifySelf_grows _

theorem reserveEdges_grows (required : Nat) : Grows (mgGraphReserveEdges required) := by
  refine .bind self_grows fun graph => ?_
  split
  · exact .pure ()
  · exact .bind (onEnv_grows (attemptOr_grows _)) fun _ => modifySelf_grows _

theorem mgGraphAllocNode_grows : Grows mgGraphAllocNode :=
  .bind self_grows fun _ => .bind (reserve_grows _) fun _ =>
    .bind (onEnv_grows (attemptOr_grows _)) fun _ => .require

theorem mgGraphCommitNode_grows (as : MgNodeAs) : Grows (mgGraphCommitNode as) :=
  .bind self_grows fun _ => .bind (modifySelf_grows _) fun _ => .pure _

theorem copyBindings_grows (stage : MgErrorStage) (buffers : List MgBufferBinding) :
    Grows (copyBindings stage buffers) :=
  .bind (.whenever (attemptOr_grows _)) fun _ => .forEach (fun _ => retainObject_grows _) _

theorem copyScalarsAndResources_grows (stage : MgErrorStage) (scalars : List MgScalarBinding)
    (resources : List MgDispatchResourceDesc) :
    Grows (copyScalarsAndResources stage scalars resources) :=
  .bind (.whenever (attemptOr_grows _)) fun _ =>
    .bind (.forEach (fun _ => attemptOr_grows _) _) fun _ => .whenever (attemptOr_grows _)

theorem mgMpsgraphTensorArrayClone_grows (src : List TensorSource) :
    Grows (mgMpsgraphTensorArrayClone src) := by
  unfold mgMpsgraphTensorArrayClone
  split
  · exact .pure _
  · exact .bind (attemptOr_grows _) fun _ => .foldEach (fun _ _ =>
      .bind (cleaning_grows (.bind .orFail fun _ => .bind (attemptOr_grows _) fun _ =>
        .bind (retainObject_grows _) fun _ => .pure _) (tensorsClear_grows _))
        fun _ => .pure _) _ _

theorem NodeAddition.run_grows (addition : NodeAddition) : Grows addition.run := by
  cases addition with
  | dispatch desc =>
      exact .bind .orFail fun _ => .bind .ofExcept fun _ => .bind mgGraphAllocNode_grows fun _ =>
        .bind (onEnv_grows (attemptBoth_grows _)) fun _ => .bind .ofExcept fun _ =>
        .bind (onEnv_grows (copyBindings_grows _ _)) fun _ =>
        .bind (onEnv_grows (cleaning_grows (copyScalarsAndResources_grows _ _ _)
          (bindingsClear_grows _))) fun _ => mgGraphCommitNode_grows _
  | copy desc =>
      exact .bind .orFail fun _ => .bind .orFail fun _ => .bind mgGraphAllocNode_grows fun _ =>
        .bind (onEnv_grows (retainObject_grows _)) fun _ =>
        .bind (onEnv_grows (retainObject_grows _)) fun _ => mgGraphCommitNode_grows _
  | fill desc =>
      exact .bind .orFail fun _ => .bind .orFail fun _ => .bind mgGraphAllocNode_grows fun _ =>
        .bind (onEnv_grows (retainObject_grows _)) fun _ => mgGraphCommitNode_grows _
  | eventWait event value =>
      exact .bind .orFail fun _ => .bind mgGraphAllocNode_grows fun _ =>
        .bind (onEnv_grows (retainObject_grows _)) fun _ => mgGraphCommitNode_grows _
  | eventSignal event value =>
      exact .bind .orFail fun _ => .bind mgGraphAllocNode_grows fun _ =>
        .bind (onEnv_grows (retainObject_grows _)) fun _ => mgGraphCommitNode_grows _
  | barrier => exact .bind mgGraphAllocNode_grows fun _ => mgGraphCommitNode_grows _
  | mpsgraph desc =>
      exact .bind .orFail fun _ => .bind .orFail fun _ => .bind .ofExcept fun _ =>
        .bind .ofExcept fun _ => .bind mgGraphAllocNode_grows fun _ =>
        .bind (onEnv_grows (attemptOr_grows _)) fun _ =>
        .bind (onEnv_grows (mgMpsgraphTensorArrayClone_grows _)) fun _ =>
        .bind (onEnv_grows (cleaning_grows (mgMpsgraphTensorArrayClone_grows _)
          (.bind (tensorsClear_grows _) fun _ => tensorsClear_grows _))) fun _ =>
        mgGraphCommitNode_grows _
  | workspace desc =>
      exact .bind .ofExcept fun _ => .bind mgGraphAllocNode_grows fun _ => mgGraphCommitNode_grows _
  | workspaceFill desc value dst dstOffset =>
      exact .bind .orFail fun _ => .bind .ofExcept fun _ => .bind .require fun _ =>
        .bind mgGraphAllocNode_grows fun _ => .bind (onEnv_grows (retainObject_grows _)) fun _ =>
        mgGraphCommitNode_grows _

theorem GraphEdit.run_grows (edit : GraphEdit) : Grows edit.run := by
  cases edit with
  | addNode addition => exact .bind addition.run_grows fun _ => .pure _
  | addDependency before after =>
      refine .bind (.bind self_grows fun _ => .bind .orFail fun _ => .bind .orFail fun _ =>
        .bind .require fun _ => .bind .require fun _ => ?_) fun _ => .pure _
      split
      · exact .pure ()
      · exact .bind (reserveEdges_grows _) fun _ => modifySelf_grows _
  | setArena arena =>
      refine .bind (.bind .orFail fun _ => .bind self_grows fun _ => ?_) fun _ => .pure _
      split
      · exact .pure ()
      · exact .bind (onEnv_grows (retainObject_grows _)) fun _ =>
          .bind (onEnv_grows (mgArenaRelease_grows _)) fun _ => modifySelf_grows _
  | setNodePatchFlags node flags =>
      exact .bind (.bind self_grows fun _ => .bind .orFail fun _ => .bind .require fun _ =>
        .bind .orFail fun _ => .bind .require fun _ => .bind .require fun _ =>
        modifySelf_grows _) fun _ => .pure _

theorem mgGraphTopologicalOrder_grows (graph : MgGraph) :
    Grows (mgGraphTopologicalOrder graph) := by
  unfold mgGraphTopologicalOrder
  split
  · exact .pure _
  · exact .bind (attemptBoth_grows _) fun _ => .ofExcept

theorem mgGraphValidate_grows (graph : MgGraph) : Grows (mgGraphValidate graph) := by
  unfold mgGraphValidate
  split
  · exact .pure _
  · exact .bind (attemptOr_grows _) fun _ =>
      .bind (mgGraphTopologicalOrder_grows _) fun _ => .pure _

/-! ### Plans -/

theorem mgExecNodeClear_grows (node : MgExecNode) : Grows (mgExecNodeClear node) := by
  cases node with
  | dispatch node => exact bindingsClear_grows _
  | copy node => exact .bind (releaseObject_grows _) fun _ => releaseObject_grows _
  | fill node => exact releaseObject_grows _
  | eventWait node => exact releaseObject_grows _
  | eventSignal node => exact releaseObject_grows _
  | barrier id => exact .pure ()
  | mpsgraph node => exact .bind (tensorsClear_grows _) fun _ => tensorsClear_grows _
  | workspace node => exact .pure ()
  | workspaceFill node => exact releaseObject_grows _
  | unknown kind => exact .pure ()

theorem mgGraphExecDestroy_grows (exec : MgGraphExec) : Grows (mgGraphExecDestroy exec) :=
  .bind (.forEach mgExecNodeClear_grows _) fun _ => mgArenaRelease_grows _

theorem planWorkspaceNode_grows (plan : MgWorkspacePlan) (node : MgNode) :
    Grows (planWorkspaceNode plan node) := by
  unfold planWorkspaceNode
  split
  · exact .pure _
  · exact cleaning_grows (.bind .ofExcept fun _ => .bind .orFail fun _ => .bind .require fun _ =>
      .bind .require fun _ => .bind (attemptOr_grows _) fun _ => .pure _) (mgArenaRelease_grows _)

theorem mgGraphPlanWorkspace_grows (graph : MgGraph) (order : List Nat) :
    Grows (mgGraphPlanWorkspace graph order) := by
  refine .bind (.foldEach (fun _ _ => .bind .orFail fun _ => planWorkspaceNode_grows _ _) _ _)
    fun plan => ?_
  split
  · exact .pure _
  · exact cleaning_grows (.bind .require fun _ => .bind .require fun _ =>
      .bind (retainObject_grows _) fun _ => .pure _) (mgArenaRelease_grows _)

theorem mgWorkspaceAllocate_grows (plan : MgWorkspacePlan) (device : Nat) :
    Grows (mgWorkspaceAllocate plan device) := by
  unfold mgWorkspaceAllocate
  split
  · exact .pure _
  · exact .bind (newBufferWithLength_grows _ _ _) fun _ => .bind .orFail fun _ => .pure _

theorem mgCloneMpsgraphTensors_grows (src : List MgMpsgraphTensor) :
    Grows (mgCloneMpsgraphTensors src) := by
  unfold mgCloneMpsgraphTensors
  split
  · exact .pure _
  · exact .bind (attemptOr_grows _) fun _ => .foldEach (fun _ _ =>
      .bind (.whenever (cleaning_grows (attemptOr_grows _) (tensorsClear_grows _))) fun _ =>
      .bind (retainObject_grows _) fun _ => .pure _) _ _

theorem wrapped_grows {α β : Type} {wrap : α → β} {body : Fills α α} (inner : Grows body) :
    Grows (wrapped wrap body) := .bind (.catching inner fun _ => .fail _) fun _ => .pure _

theorem mgCloneExecNode_grows (src : MgNode) (plan : MgWorkspacePlan) :
    Grows (mgCloneExecNode src plan) := by
  obtain ⟨graph, id, index, flags, as⟩ := src
  cases as with
  | dispatch node =>
      exact wrapped_grows (.bind (attemptBoth_grows _) fun _ =>
        .bind (holding_grows (copyBindings_grows _ _)) fun _ =>
        .bind (holding_grows (copyScalarsAndResources_grows _ _ _)) fun _ => .pure _)
  | copy node =>
      exact .bind (holding_grows (retainObject_grows _)) fun _ =>
        .bind (holding_grows (retainObject_grows _)) fun _ => .pure _
  | fill node => exact .bind (holding_grows (retainObject_grows _)) fun _ => .pure _
  | eventWait node => exact .bind (holding_grows (retainObject_grows _)) fun _ => .pure _
  | eventSignal node => exact .bind (holding_grows (retainObject_grows _)) fun _ => .pure _
  | barrier => exact .pure _
  | mpsgraph node =>
      exact wrapped_grows (.bind (attemptOr_grows _) fun _ =>
        .bind (holding_grows (mgCloneMpsgraphTensors_grows _)) fun _ =>
        .bind (holding_grows (mgCloneMpsgraphTensors_grows _)) fun _ => .pure _)
  | workspace node => exact .bind (holding_grows .ofExcept) fun _ => .pure _
  | workspaceFill node =>
      exact .bind (holding_grows (retainObject_grows _)) fun _ =>
        .bind (holding_grows .ofExcept) fun _ => .pure _
  | unknown kind => exact .fail _

theorem loadNode_grows (node : MgExecNode) : Grows (loadNode node) := by
  cases node with
  | mpsgraph mpsgraph =>
      exact .bind (.bind .read fun _ => .bind .require fun _ => .bind (attemptOr_grows _) fun _ =>
        .bind (attemptOr_grows _) fun _ => .bind (attemptOr_grows _) fun _ => .pure _)
        fun _ => .pure _
  | dispatch dispatch =>
      exact .bind (.bind (attemptOr_grows _) fun _ => .bind (attemptOr_grows _) fun _ =>
        .bind (attemptOr_grows _) fun _ => .pure _) fun _ => .pure _
  | copy | fill | eventWait | eventSignal | barrier | workspace | workspaceFill | unknown =>
      exact .pure _

theorem mgIcbPlanBuild_grows (nodes : List MgExecNode) : Grows (mgIcbPlanBuild nodes) := by
  refine .bind attempt_grows fun available => ?_
  split
  · exact .pure _
  · split
    · exact .pure _
    · split
      · dsimp only
        split
        · exact .pure _
        · refine .bind attempt_grows fun granted => ?_
          cases granted <;> exact .pure _
      · exact .pure _
  · exact .pure _

theorem instantiateOrder_grows (graph : MgGraph) : Grows (instantiateOrder graph) := by
  unfold instantiateOrder
  split
  · exact .pure _
  · exact .bind (attemptOr_grows _) fun _ => mgGraphTopologicalOrder_grows _

theorem instantiateStep_grows (graph : MgGraph) (plan : MgWorkspacePlan) (nodes : List MgExecNode)
    (index : Nat) : Grows (instantiateStep graph plan nodes index) :=
  .bind .orFail fun _ => .bind (.catching (.bind (mgCloneExecNode_grows _ _) fun _ =>
    holding_grows (loadNode_grows _)) fun _ =>
    .bind (mgGraphExecDestroy_grows _) fun _ => .fail _) fun _ => .pure _

theorem mgGraphInstantiate_grows (graph : MgGraph) (device : Option MgDevice) :
    Grows (mgGraphInstantiate graph device) :=
  .bind .orFail fun _ => .bind (mgGraphValidate_grows _) fun _ =>
    .bind (instantiateOrder_grows _) fun _ => .bind (attemptOr_grows _) fun _ =>
    .bind (mgGraphPlanWorkspace_grows _ _) fun _ =>
    .bind (.whenever (cleaning_grows (attemptOr_grows _) (mgArenaRelease_grows _))) fun _ =>
    .bind (cleaning_grows (mgWorkspaceAllocate_grows _ _) (mgGraphExecDestroy_grows _)) fun _ =>
    .bind (.foldEach (instantiateStep_grows _ _) _ _) fun _ =>
    .bind (mgIcbPlanBuild_grows _) fun _ => .pure _

theorem patchTarget_grows (nodeId : MgNodeId) : Grows (patchTarget nodeId) :=
  .bind (.bind self_grows fun _ => .require) fun _ => .bind self_grows fun _ => .ofExcept

theorem dispatchTarget_grows (nodeId : MgNodeId) (flag : MgPatchFlags) :
    Grows (dispatchTarget nodeId flag) :=
  .bind (patchTarget_grows _) fun _ => .bind .orFail fun _ => .bind .require fun _ => .pure _

theorem requireFlagIf_grows (changes : Bool) (flags required : MgPatchFlags) (nodeId : MgNodeId) :
    Grows (requireFlagIf changes flags required nodeId : Over MgGraphExec Unit) := by
  cases changes
  · exact .pure ()
  · exact .require

theorem ExecPatch.run_grows (patch : ExecPatch) : Grows patch.run := by
  cases patch with
  | dispatchGrid nodeId gridSize =>
      exact .bind (dispatchTarget_grows _ _) fun _ => .bind .require fun _ =>
        .bind .orFail fun _ => .bind .require fun _ => modifySelf_grows _
  | dispatchBuffer nodeId index buffer offset =>
      refine .bind (dispatchTarget_grows _ _) fun _ => .bind .orFail fun _ =>
        .bind .require fun _ => .bind self_grows fun _ => .bind .require fun _ => ?_
      split
      · exact .fail _
      · exact .bind .ofExcept fun _ => .bind (onEnv_grows (retainObject_grows _)) fun _ =>
          .bind (onEnv_grows (releaseObject_grows _)) fun _ => modifySelf_grows _
  | dispatchScalar nodeId index data =>
      refine .bind (dispatchTarget_grows _ _) fun _ => .bind .orFail fun _ => ?_
      split
      · exact .fail _
      · exact .bind .require fun _ => modifySelf_grows _
  | copyNode nodeId desc =>
      exact .bind (patchTarget_grows _) fun _ => .bind .orFail fun _ => .bind .orFail fun _ =>
        .bind (requireFlagIf_grows _ _ _ _) fun _ => .bind (requireFlagIf_grows _ _ _ _) fun _ =>
        .bind (onEnv_grows (retainObject_grows _)) fun _ =>
        .bind (onEnv_grows (retainObject_grows _)) fun _ =>
        .bind (onEnv_grows (releaseObject_grows _)) fun _ =>
        .bind (onEnv_grows (releaseObject_grows _)) fun _ => modifySelf_grows _
  | fillNode nodeId desc =>
      exact .bind (patchTarget_grows _) fun _ => .bind .orFail fun _ => .bind .orFail fun _ =>
        .bind (requireFlagIf_grows _ _ _ _) fun _ => .bind (requireFlagIf_grows _ _ _ _) fun _ =>
        .bind (requireFlagIf_grows _ _ _ _) fun _ =>
        .bind (onEnv_grows (retainObject_grows _)) fun _ =>
        .bind (onEnv_grows (releaseObject_grows _)) fun _ => modifySelf_grows _
  | eventValue nodeId value =>
      exact .bind (patchTarget_grows _) fun _ => .bind .orFail fun _ => .bind .require fun _ =>
        modifySelf_grows _
  | optimizationFlags flags =>
      exact .bind (.bind self_grows fun _ => .require) fun _ => .bind .require fun _ =>
        modifySelf_grows _

/-! ### Launches -/

theorem mgLaunchDestroy_grows (launch : MgLaunch) : Grows (mgLaunchDestroy launch) :=
  .bind (.forEach (fun _ => releaseObject_grows _) _) fun _ =>
    .forEach (fun _ => releaseObject_grows _) _

theorem retainLaunchBuffer_grows (buffer : MgBuffer) : Grows (retainLaunchBuffer buffer) :=
  .bind (onEnv_grows (retainObject_grows _)) fun _ => .bind self_grows fun _ =>
    .bind .require fun _ => modifySelf_grows _

theorem retainLaunchEvent_grows (event : MgEvent) : Grows (retainLaunchEvent event) :=
  .bind (onEnv_grows (retainObject_grows _)) fun _ => .bind self_grows fun _ =>
    .bind .require fun _ => modifySelf_grows _

theorem encodeCommand_grows (command : Command) : Grows (encodeCommand command) :=
  .bind self_grows fun _ => onEnv_grows (emit_grows _)

theorem commitCurrent_grows : Grows commitCurrent :=
  .bind self_grows fun _ => .bind (onEnv_grows (emit_grows _)) fun _ =>
    .bind self_grows fun _ => .bind (.whenever (.bind (onEnv_grows (attemptOr_grows _)) fun _ =>
      modifySelf_grows _)) fun _ => modifySelf_grows _

theorem nextCommandBuffer_grows (nodeId : MgNodeId) : Grows (nextCommandBuffer nodeId) :=
  .bind (onEnv_grows newCommandBuffer_grows) fun _ => .bind .orFail fun _ => modifySelf_grows _

theorem flushWork_grows (nodeId : MgNodeId) : Grows (flushWork nodeId) :=
  .bind self_grows fun _ => .bind commitCurrent_grows fun _ =>
    .bind (onEnv_grows (waitUntilCompleted_grows _)) fun _ => .bind .require fun _ =>
    nextCommandBuffer_grows _

theorem retains_grows {γ : Type} (buffer : γ → MgBuffer) (values : List γ) :
    Grows (forEach (fun value => retainLaunchBuffer (buffer value)) values) :=
  .forEach (fun _ => retainLaunchBuffer_grows _) _

theorem mgMpsgraphEncodeNode_grows (mpsgraph : MgExecMpsgraph) :
    Grows (mgMpsgraphEncodeNode mpsgraph) :=
  .bind (onEnv_grows .read) fun _ => .bind .require fun _ => .bind .require fun _ =>
    .bind (onEnv_grows (.forEach (fun _ => attemptOr_grows _) _)) fun _ =>
    .bind (onEnv_grows (.forEach (fun _ => attemptOr_grows _) _)) fun _ =>
    .bind (onEnv_grows (attemptOr_grows _)) fun _ => encodeCommand_grows _

theorem encodeNode_grows (workspace : Option MetalBuffer) (node : MgExecNode) :
    Grows (encodeNode workspace node) := by
  cases node with
  | dispatch dispatch =>
      exact .bind (onEnv_grows (attemptOr_grows _)) fun _ => .bind (encodeCommand_grows _) fun _ =>
        .bind (retains_grows _ _) fun _ => modifySelf_grows _
  | copy copy =>
      exact .bind (onEnv_grows (attemptOr_grows _)) fun _ => .bind (encodeCommand_grows _) fun _ =>
        .bind (retainLaunchBuffer_grows _) fun _ => .bind (retainLaunchBuffer_grows _) fun _ =>
        modifySelf_grows _
  | fill fill =>
      exact .bind (onEnv_grows (attemptOr_grows _)) fun _ => .bind (encodeCommand_grows _) fun _ =>
        .bind (retainLaunchBuffer_grows _) fun _ => modifySelf_grows _
  | eventWait event =>
      exact .bind (encodeCommand_grows _) fun _ => .bind (retainLaunchEvent_grows _) fun _ =>
        modifySelf_grows _
  | eventSignal event =>
      exact .bind (encodeCommand_grows _) fun _ => .bind (retainLaunchEvent_grows _) fun _ =>
        modifySelf_grows _
  | barrier id => exact .pure ()
  | mpsgraph mpsgraph =>
      exact .bind self_grows fun _ => .bind (.whenever (flushWork_grows _)) fun _ =>
        .bind (mgMpsgraphEncodeNode_grows _) fun _ => .bind (retains_grows _ _) fun _ =>
        .bind (retains_grows _ _) fun _ => .bind commitCurrent_grows fun _ =>
        nextCommandBuffer_grows _
  | workspace node => exact .pure ()
  | workspaceFill fill =>
      exact .bind (onEnv_grows (attemptOr_grows _)) fun _ =>
        .bind (.forEach encodeCommand_grows _) fun _ => .bind (retainLaunchBuffer_grows _) fun _ =>
        modifySelf_grows _
  | unknown kind => exact .fail _

theorem mgGraphLaunch_grows (address : ExecPtr) (stream : Option MgStream) :
    Grows (mgGraphLaunch address stream) := by
  have destroys : ∀ encoder : Encoder, Grows (mgLaunchDestroy encoder.launch) :=
    fun _ => mgLaunchDestroy_grows _
  refine .bind .orFail fun _ => .bind (onEnv_grows newCommandBuffer_grows) fun _ =>
    .bind .orFail fun _ => .bind self_grows fun exec => .bind (onEnv_grows ?_) fun _ =>
    .bind (modifySelf_grows _) fun _ => ?_
  · exact .bind (attemptOr_grows _) fun _ => .bind (.whenever (attemptOr_grows _)) fun _ =>
      .bind (.whenever (attemptOr_grows _)) fun _ => .pure _
  · dsimp only
    split
    · refine .bind (onEnv_grows (withLocal_grows ?_ destroys)) fun _ =>
        .bind (modifySelf_grows _) fun _ =>
        .bind (onEnv_grows (withLocal_grows commitCurrent_grows destroys)) fun _ =>
        .bind (.pure _) fun _ => .bind (modifySelf_grows _) fun _ => .pure _
      exact .bind (onEnv_grows (attemptOr_grows _)) fun _ => .bind (encodeCommand_grows _) fun _ =>
        .forEach (fun _ => .bind .orFail fun _ => retains_grows _ _) _
    · refine .bind (onEnv_grows (withLocal_grows ?_ destroys)) fun _ =>
        .bind (.pure _) fun _ => .bind (modifySelf_grows _) fun _ => .pure _
      exact .bind (.forEach (encodeNode_grows _) _) fun _ => .bind self_grows fun _ =>
        .whenever commitCurrent_grows

theorem mgLaunchSynchronize_grows : Grows mgLaunchSynchronize :=
  .bind self_grows fun _ => .bind .require fun _ =>
    .bind (onEnv_grows (.foldEach (fun _ _ => .bind (waitUntilCompleted_grows _) fun _ => .pure _)
      _ _)) fun _ =>
    .bind (.whenever (.bind self_grows fun _ =>
      .bind (.whenever (.bind self_grows fun _ => .bind .orFail fun _ => modifySelf_grows _))
        fun _ => modifySelf_grows _)) fun _ => .require

/-! ### Calls -/

/-- Every call leaves the log it found at the front of the log. -/
theorem CallStep.env_le {world world' : World} {call : Call} {result : Except Fault Response}
    (step : CallStep world call result world') : world.env ≤ world'.env := by
  cases step with
  | refused | nothing => exact le_rfl
  | counted call ran => exact call.run_grows.of_run ran
  | graphCreate ran | graphNotCreated ran => exact (mgGraphCreate_grows _).of_run ran
  | graphDestroy live ran => exact (mgGraphDestroy_grows _).of_run ran
  | graphEdit live ran => exact (GraphEdit.run_grows _).of_run ran
  | graphValidate live ran => exact (mgGraphValidate_grows _).of_run ran
  | graphInstantiate live ran | graphNotInstantiated live ran =>
      exact (mgGraphInstantiate_grows _ _).of_run ran
  | execDestroy live ran => exact (mgGraphExecDestroy_grows _).of_run ran
  | execPatch live ran => exact (ExecPatch.run_grows _).of_run ran
  | graphLaunch live ran | graphNotLaunched live ran =>
      exact (mgGraphLaunch_grows _ _).of_run ran
  | launchSynchronize live ran => exact mgLaunchSynchronize_grows.of_run ran
  | launchDestroy live ran => exact (mgLaunchDestroy_grows _).of_run ran

end MetalGraph
