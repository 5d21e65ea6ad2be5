import MetalGraph.Proofs.Ownership
import MetalGraph.Proofs.Progress

set_option autoImplicit false

/- What a call of the library can fail with. A caller that keeps to the rules is never told
of an internal error, and never makes the library touch what is not there. -/
namespace MetalGraph

open Eff

section Objects

variable {τ α : Type} {expected : Fault → Prop}

theorem onEnv_fails {body : Run α} (inner : FailsOnly expected body) :
    FailsOnly expected (onEnv body : Over τ α) := by
  intro focus reason reached stopped
  exact inner _ _ _ (onEnv_error.mp stopped).1

theorem self_fails : FailsOnly expected (self : Over τ τ) := by
  intro focus reason reached stopped
  cases stopped

theorem createFault_ordinary (message : String) : (createFault message).Ordinary :=
  ordinary_of_ne (by decide)

theorem patchFault_ordinary (nodeId : MgNodeId) (message : String) :
    (patchFault nodeId message).Ordinary := ordinary_of_ne (by decide)

end Objects

/-! ### Descriptors -/

/-- A check that is refused for the caller's own mistake. -/
def Checks {α : Type} (result : Except Fault α) : Prop :=
  ∀ reason, result = .error reason → reason.Ordinary

namespace Checks

variable {α β : Type}

theorem ok (value : α) : Checks (.ok value) := by
  intro reason failed
  cases failed

theorem refused (message : String) : Checks (.error (createFault message) : Except Fault α) := by
  intro reason failed
  cases failed
  exact createFault_ordinary message

theorem demand (condition : Prop) [Decidable condition] (message : String) :
    Checks (MetalGraph.demand condition (createFault message)) := by
  intro reason failed
  obtain ⟨_, rfl⟩ := demand_error.mp failed
  exact createFault_ordinary message

theorem bind {first : Except Fault α} {next : α → Except Fault β} (head : Checks first)
    (tail : ∀ value, Checks (next value)) : Checks (first >>= next) := by
  intro reason failed
  rcases except_bind_error.mp failed with early | ⟨value, _, late⟩
  · exact head reason early
  · exact tail value reason late

end Checks

theorem validateBindings_checks (bindings : List MgBufferBindingDesc) :
    Checks (validateBindings bindings) := by
  induction bindings with
  | nil => exact .ok _
  | cons binding rest ih =>
      unfold validateBindings
      split
      · exact .refused _
      · exact .bind (.demand _ _) fun _ => .bind (.demand _ _) fun _ => .bind ih fun _ => .ok _

theorem validateScalars_checks (scalars : List MgScalarBindingDesc) :
    Checks (validateScalars scalars) := by
  induction scalars with
  | nil => exact .ok _
  | cons scalar rest ih =>
      unfold validateScalars
      split
      · exact .refused _
      · exact .bind (.demand _ _) fun _ => .bind ih fun _ => .ok _

theorem dispatchScalars_checks (desc : MgDispatchDesc) : Checks (dispatchScalars desc) := by
  unfold dispatchScalars
  split
  · exact .refused _
  · exact validateScalars_checks _

theorem validateResource_checks (resource : MgDispatchResourceDesc)
    (bindings : List MgBufferBinding) :
    Checks (mgValidateDispatchResourceDesc resource bindings) := by
  apply Checks.bind (.demand _ _)
  intro _
  split
  · exact .refused _
  · exact .demand _ _

theorem validateResourceList_checks (bindings : List MgBufferBinding)
    (resources : List MgDispatchResourceDesc) :
    Checks (validateResourceList bindings resources) := by
  induction resources with
  | nil => exact .ok _
  | cons resource rest ih =>
      exact .bind (.demand _ _) fun _ => .bind (validateResource_checks _ _) fun _ => ih

theorem validateResources_checks (resources : Option (List MgDispatchResourceDesc))
    (bindings : List MgBufferBinding) :
    Checks (mgValidateDispatchResources resources bindings) := by
  cases resources with
  | none => exact .refused _
  | some resources => exact .bind (validateResourceList_checks _ _) fun _ => .ok _

theorem dispatchPointers_checks (desc : MgDispatchDesc) : Checks (dispatchPointers desc) := by
  apply Checks.bind (.demand _ _)
  intro _
  split
  · apply Checks.bind (.demand _ _)
    intro _
    split
    · exact .refused _
    · exact .ok _
  · exact .refused _

theorem dispatchContents_checks (desc : MgDispatchDesc) (source : DispatchSource) :
    Checks (dispatchContents desc source) :=
  .bind (validateBindings_checks _) fun _ => .bind (dispatchScalars_checks _) fun _ =>
    .bind (validateResources_checks _ _) fun _ => .bind (.demand _ _) fun _ => .ok _

theorem tensorPointers_checks (tensor : MgMpsgraphTensorDesc) : Checks (tensorPointers tensor) := by
  unfold tensorPointers
  dsimp only
  split
  · exact .bind (.demand _ _) fun _ => .ok _
  · exact .refused _

theorem validateTensor_checks (tensor : MgMpsgraphTensorDesc) :
    Checks (mgValidateMpsgraphTensorDesc tensor) := by
  apply Checks.bind (tensorPointers_checks tensor)
  intro source
  split
  · exact .refused _
  · exact .bind (.demand _ _) fun _ => .ok _

theorem validateTensors_checks (tensors : List MgMpsgraphTensorDesc) :
    Checks (validateTensors tensors) := by
  induction tensors with
  | nil => exact .ok _
  | cons tensor rest ih => exact .bind (validateTensor_checks _) fun _ => .bind ih fun _ => .ok _

/-! ### Edits of a graph -/

theorem reserveNodes_fails (required : Nat) :
    FailsOnly Fault.Ordinary (mgGraphReserveNodes required) := by
  refine .bind self_fails fun graph _ _ _ => ?_
  split
  · exact .pure _
  · exact .bind (onEnv_fails (attemptOr_fails (oom_ordinary _))) fun _ _ _ _ => .update _

theorem reserveEdges_fails (required : Nat) :
    FailsOnly Fault.Ordinary (mgGraphReserveEdges required) := by
  refine .bind self_fails fun graph _ _ _ => ?_
  split
  · exact .pure _
  · exact .bind (onEnv_fails (attemptOr_fails (oom_ordinary _))) fun _ _ _ _ => .update _

theorem allocNode_fails : FailsOnly Fault.Ordinary mgGraphAllocNode :=
  .bind self_fails fun _ _ _ _ => .bind (reserveNodes_fails _) fun _ _ _ _ =>
    .bind (onEnv_fails (attemptOr_fails (oom_ordinary _))) fun _ _ _ _ =>
    .require (oom_ordinary _)

theorem commitNode_fails (as : MgNodeAs) : FailsOnly Fault.Ordinary (mgGraphCommitNode as) :=
  .bind self_fails fun _ _ _ _ => .bind (.update _) fun _ _ _ _ => .pure _

theorem tensorClone_fails (source : TensorSource) :
    FailsOnly Fault.Ordinary (mgMpsgraphTensorClone source) :=
  .bind (.orFail fun _ => createFault_ordinary _) fun _ _ _ _ =>
    .bind (attemptOr_fails (oom_ordinary _)) fun _ _ _ _ =>
    .bind (.update _) fun _ _ _ _ => .pure _

theorem tensorArrayClone_fails (sources : List TensorSource) :
    FailsOnly Fault.Ordinary (mgMpsgraphTensorArrayClone sources) := by
  cases sources with
  | nil => exact .pure _
  | cons source rest =>
      exact .bind (attemptOr_fails (oom_ordinary _)) fun _ _ _ _ => .foldEach _ fun tensors _ _ =>
        .bind (cleaning_fails (tensorClone_fails _) (tensorsClear_total tensors).fails)
          fun _ _ _ _ => .pure _

theorem addDispatchNode_fails (desc : Option MgDispatchDesc) :
    FailsOnly Fault.Ordinary (mgGraphAddDispatchNode desc) :=
  .bind (.orFail fun _ => createFault_ordinary _) fun _ _ _ _ =>
    .bind (.ofExcept (dispatchPointers_checks _)) fun _ _ _ _ =>
    .bind allocNode_fails fun _ _ _ _ =>
    .bind (onEnv_fails (attemptBoth_fails (oom_ordinary _))) fun _ _ _ _ =>
    .bind (.ofExcept (dispatchContents_checks _ _)) fun _ _ _ _ =>
    .bind (onEnv_fails (copyBindings_fails _ _)) fun _ _ _ _ =>
    .bind (onEnv_fails (cleaning_fails (copyScalarsAndResources_fails _ _ _)
      (bindingsClear_total _).fails)) fun _ _ _ _ => commitNode_fails _

theorem addMPSGraphNode_fails (desc : Option MgMpsgraphDesc) :
    FailsOnly Fault.Ordinary (mgGraphAddMPSGraphNode desc) :=
  .bind (.orFail fun _ => createFault_ordinary _) fun _ _ _ _ =>
    .bind (.orFail fun _ => createFault_ordinary _) fun _ _ _ _ =>
    .bind (.ofExcept (validateTensors_checks _)) fun _ _ _ _ =>
    .bind (.ofExcept (validateTensors_checks _)) fun _ _ _ _ =>
    .bind allocNode_fails fun _ _ _ _ =>
    .bind (onEnv_fails (attemptOr_fails (oom_ordinary _))) fun _ _ _ _ =>
    .bind (onEnv_fails (tensorArrayClone_fails _)) fun feeds _ _ _ =>
    .bind (onEnv_fails (cleaning_fails (tensorArrayClone_fails _)
      (Total.seq (tensorsClear_total feeds) (tensorsClear_total [])).fails)) fun _ _ _ _ =>
    commitNode_fails _

theorem addEventNode_fails (kind : MgEventNode → MgNodeAs) (event : Option MgEvent)
    (value : UInt64) : FailsOnly Fault.Ordinary (mgGraphAddEventNode kind event value) :=
  .bind (.orFail fun _ => createFault_ordinary _) fun _ _ _ _ =>
    .bind allocNode_fails fun _ _ _ _ =>
    .bind (onEnv_fails (.update _)) fun _ _ _ _ => commitNode_fails _

theorem NodeAddition.run_fails (addition : NodeAddition) :
    FailsOnly Fault.Ordinary addition.run := by
  cases addition with
  | dispatch desc => exact addDispatchNode_fails desc
  | copy desc =>
      exact .bind (.orFail fun _ => createFault_ordinary _) fun _ _ _ _ =>
        .bind (.orFail fun _ => createFault_ordinary _) fun _ _ _ _ =>
        .bind allocNode_fails fun _ _ _ _ => .bind (onEnv_fails (.update _)) fun _ _ _ _ =>
        .bind (onEnv_fails (.update _)) fun _ _ _ _ => commitNode_fails _
  | fill desc =>
      exact .bind (.orFail fun _ => createFault_ordinary _) fun _ _ _ _ =>
        .bind (.orFail fun _ => createFault_ordinary _) fun _ _ _ _ =>
        .bind allocNode_fails fun _ _ _ _ => .bind (onEnv_fails (.update _)) fun _ _ _ _ =>
        commitNode_fails _
  | eventWait event value => exact addEventNode_fails _ event value
  | eventSignal event value => exact addEventNode_fails _ event value
  | barrier => exact .bind allocNode_fails fun _ _ _ _ => commitNode_fails _
  | mpsgraph desc => exact addMPSGraphNode_fails desc
  | workspace desc =>
      exact .bind (.ofExcept mgWorkspaceDescValidate_fails) fun _ _ _ _ =>
        .bind allocNode_fails fun _ _ _ _ => commitNode_fails _
  | workspaceFill desc value dst dstOffset =>
      exact .bind (.orFail fun _ => createFault_ordinary _) fun _ _ _ _ =>
        .bind (.ofExcept mgWorkspaceDescValidate_fails) fun _ _ _ _ =>
        .bind (.require (createFault_ordinary _)) fun _ _ _ _ =>
        .bind allocNode_fails fun _ _ _ _ => .bind (onEnv_fails (.update _)) fun _ _ _ _ =>
        commitNode_fails _

theorem addDependency_fails (before after : Option NodePtr) :
    FailsOnly Fault.Ordinary (mgGraphAddDependency before after) := by
  refine .bind self_fails fun graph _ _ _ =>
    .bind (.orFail fun _ => createFault_ordinary _) fun _ _ _ _ =>
    .bind (.orFail fun _ => createFault_ordinary _) fun _ _ _ _ =>
    .bind (.require (createFault_ordinary _)) fun _ _ _ _ =>
    .bind (.require (ordinary_of_ne (by decide))) fun _ _ _ _ => ?_
  split
  · exact .pure _
  · exact .bind (reserveEdges_fails _) fun _ _ _ _ => .update _

theorem setArena_fails (arena : Option MgArena) :
    FailsOnly Fault.Ordinary (mgGraphSetArena arena) := by
  refine .bind (.orFail fun _ => createFault_ordinary _) fun arena _ _ _ =>
    .bind self_fails fun graph _ _ _ => ?_
  split
  · exact .pure _
  · exact .bind (onEnv_fails (.update _)) fun _ _ _ _ =>
      .bind (onEnv_fails fun state reason reached stopped =>
        ((mgArenaRelease_total _).fails state reason reached stopped).elim) fun _ _ _ _ =>
      .update _

/-- Flags are set on nodes that are there. -/
theorem setNodePatchFlags_ordinary {address : GraphPtr} {graph : MgGraph} {env : Env}
    (here : graph.address = address) {pointer : Option NodePtr} (flags : MgPatchFlags)
    (named : ∀ node, pointer = some node → Names address graph node) {reason : Fault}
    {reached : Focus MgGraph}
    (stopped : mgGraphSetNodePatchFlags pointer flags ⟨graph, env⟩ = (.error reason, reached)) :
    reason.Ordinary := by
  rw [mgGraphSetNodePatchFlags, bind_of_ok _ (self_apply _)] at stopped
  refine FailsOnly.bind (.orFail fun _ => createFault_ordinary _) (fun node _ _ given =>
    .bind (.require (createFault_ordinary _)) fun _ _ _ owned =>
    .bind (.orFail fun missing => ?_) fun _ _ _ _ =>
    .bind (.require (ordinary_of_ne (by decide))) fun _ _ _ _ =>
    .bind (.require (ordinary_of_ne (by decide))) fun _ _ _ _ => .update _) _ _ _ stopped
  obtain ⟨found, present, _⟩ :=
    named node (orFail_ok.mp given).1 ((require_ok.mp owned).1.trans here)
  rw [missing] at present
  cases present

theorem GraphEdit.run_ordinary {address : GraphPtr} {graph : MgGraph} {env : Env}
    (here : graph.address = address) {edit : GraphEdit}
    (named : ∀ pointer flags, edit = .setNodePatchFlags (some pointer) flags →
      Names address graph pointer) {reason : Fault} {reached : Focus MgGraph}
    (stopped : edit.run ⟨graph, env⟩ = (.error reason, reached)) : reason.Ordinary := by
  have answered : ∀ {α : Type} {body : Over MgGraph α} {answer : α → Response},
      (do
        let value ← body
        pure (answer value) : Over MgGraph Response) ⟨graph, env⟩ = (.error reason, reached) →
      body ⟨graph, env⟩ = (.error reason, reached) := by
    intro α body answer failed
    rcases bind_error.mp failed with stopped | ⟨_, _, _, absurdity⟩
    · exact stopped
    · cases absurdity
  cases edit with
  | addNode addition => exact addition.run_fails _ _ _ (answered stopped)
  | addDependency before after => exact addDependency_fails before after _ _ _ (answered stopped)
  | setArena arena => exact setArena_fails arena _ _ _ (answered stopped)
  | setNodePatchFlags pointer flags =>
      apply setNodePatchFlags_ordinary here flags _ (answered stopped)
      rintro node rfl
      exact named node flags rfl

/-! ### Patches -/

theorem patchTarget_fails (nodeId : MgNodeId) :
    FailsOnly Fault.Ordinary (patchTarget nodeId) := by
  refine .bind (.bind self_fails fun _ _ _ _ => .require (patchFault_ordinary _ _)) fun _ _ _ _ =>
    .bind self_fails fun exec _ _ _ => .ofExcept ?_
  intro reason failed
  unfold mgPatchFindNode at failed
  split at failed
  · cases failed
    exact patchFault_ordinary _ _
  · split at failed
    · cases failed
    · cases failed
      exact patchFault_ordinary _ _

theorem dispatchTarget_fails (nodeId : MgNodeId) (flag : MgPatchFlags) :
    FailsOnly Fault.Ordinary (dispatchTarget nodeId flag) :=
  .bind (patchTarget_fails _) fun _ _ _ _ =>
    .bind (.orFail fun _ => patchFault_ordinary _ _) fun _ _ _ _ =>
    .bind (.require (patchFault_ordinary _ _)) fun _ _ _ _ => .pure _

theorem requireFlagIf_fails (changes : Bool) (flags required : MgPatchFlags) (nodeId : MgNodeId) :
    FailsOnly Fault.Ordinary
      (requireFlagIf changes flags required nodeId : Over MgGraphExec Unit) := by
  unfold requireFlagIf
  split
  · exact .require (patchFault_ordinary _ _)
  · exact .pure _

theorem rebindable_fails (dispatch : MgDispatchNode) (nodeId : MgNodeId) (index : UInt32)
    (buffer : MgBuffer) (offset : UInt64) (reason : Fault)
    (failed : rebindable dispatch nodeId index buffer offset = .error reason) :
    reason.Ordinary := by
  rcases except_bind_error.mp failed with early | ⟨_, _, late⟩
  · obtain ⟨_, rfl⟩ := demand_error.mp early
    exact patchFault_ordinary _ _
  · obtain ⟨_, rfl⟩ := demand_error.mp late
    exact patchFault_ordinary _ _

theorem patchDispatchBuffer_fails (nodeId : MgNodeId) (index : UInt32) (buffer : Option MgBuffer)
    (offset : UInt64) :
    FailsOnly Fault.Ordinary (mgGraphExecPatchDispatchBuffer nodeId index buffer offset) := by
  refine .bind (dispatchTarget_fails _ _) fun target _ _ _ =>
    .bind (.orFail fun _ => patchFault_ordinary _ _) fun buffer _ _ _ =>
    .bind (.require (patchFault_ordinary _ _)) fun _ _ _ _ =>
    .bind self_fails fun exec _ _ _ =>
    .bind (.require (patchFault_ordinary _ _)) fun _ _ _ _ => ?_
  split
  · exact .fail (patchFault_ordinary _ _)
  · exact .bind (.ofExcept (rebindable_fails _ _ _ _ _)) fun _ _ _ _ =>
      .bind (onEnv_fails (.update _)) fun _ _ _ _ =>
      .bind (onEnv_fails (.update _)) fun _ _ _ _ => .update _

theorem patchDispatchScalar_fails (nodeId : MgNodeId) (index : UInt32)
    (data : Option (List UInt8)) :
    FailsOnly Fault.Ordinary (mgGraphExecPatchDispatchScalar nodeId index data) := by
  refine .bind (dispatchTarget_fails _ _) fun target _ _ _ =>
    .bind (.orFail fun _ => patchFault_ordinary _ _) fun data _ _ _ => ?_
  split
  · exact .fail (patchFault_ordinary _ _)
  · exact .bind (.require (patchFault_ordinary _ _)) fun _ _ _ _ => .update _

theorem ExecPatch.run_fails (patch : ExecPatch) : FailsOnly Fault.Ordinary patch.run := by
  cases patch with
  | dispatchGrid nodeId gridSize =>
      refine .bind (dispatchTarget_fails _ _) fun _ _ _ _ =>
        .bind (.require (patchFault_ordinary _ _)) fun _ _ _ checked =>
        .bind (.orFail fun absent => ?_) fun _ _ _ _ =>
        .bind (.require (patchFault_ordinary _ _)) fun _ _ _ _ => .update _
      -- the check has refused a null grid
      have valid := (require_ok.mp checked).1
      rw [absent] at valid
      cases valid
  | dispatchBuffer nodeId index buffer offset =>
      exact patchDispatchBuffer_fails nodeId index buffer offset
  | dispatchScalar nodeId index data => exact patchDispatchScalar_fails nodeId index data
  | copyNode nodeId desc =>
      exact .bind (patchTarget_fails _) fun _ _ _ _ =>
        .bind (.orFail fun _ => patchFault_ordinary _ _) fun _ _ _ _ =>
        .bind (.orFail fun _ => patchFault_ordinary _ _) fun _ _ _ _ =>
        .bind (requireFlagIf_fails _ _ _ _) fun _ _ _ _ =>
        .bind (requireFlagIf_fails _ _ _ _) fun _ _ _ _ =>
        .bind (onEnv_fails (.update _)) fun _ _ _ _ =>
        .bind (onEnv_fails (.update _)) fun _ _ _ _ =>
        .bind (onEnv_fails (.update _)) fun _ _ _ _ =>
        .bind (onEnv_fails (.update _)) fun _ _ _ _ => .update _
  | fillNode nodeId desc =>
      exact .bind (patchTarget_fails _) fun _ _ _ _ =>
        .bind (.orFail fun _ => patchFault_ordinary _ _) fun _ _ _ _ =>
        .bind (.orFail fun _ => patchFault_ordinary _ _) fun _ _ _ _ =>
        .bind (requireFlagIf_fails _ _ _ _) fun _ _ _ _ =>
        .bind (requireFlagIf_fails _ _ _ _) fun _ _ _ _ =>
        .bind (requireFlagIf_fails _ _ _ _) fun _ _ _ _ =>
        .bind (onEnv_fails (.update _)) fun _ _ _ _ =>
        .bind (onEnv_fails (.update _)) fun _ _ _ _ => .update _
  | eventValue nodeId value =>
      exact .bind (patchTarget_fails _) fun _ _ _ _ =>
        .bind (.orFail fun _ => patchFault_ordinary _ _) fun _ _ _ _ =>
        .bind (.require (patchFault_ordinary _ _)) fun _ _ _ _ => .update _
  | optimizationFlags flags =>
      exact .bind (.bind self_fails fun _ _ _ _ => .require (patchFault_ordinary _ _))
        fun _ _ _ _ => .bind (.require (patchFault_ordinary _ _)) fun _ _ _ _ => .update _

/-! ### Launches -/

/-- Any answer but an internal error. -/
def Fault.Reported : Fault → Prop
  | .error reported => reported.status ≠ .internalError
  | .undefined => True

theorem Fault.Reported.ordinary {reason : Fault} (reported : reason.Reported)
    (defined : reason ≠ .undefined) : reason.Ordinary := by
  cases reason with
  | error error => exact reported
  | undefined => exact defined rfl

theorem encodeFault_reported (nodeId : MgNodeId) (message : String) :
    (encodeFault nodeId message).Reported := by
  change MgStatus.backendError ≠ .internalError
  decide

theorem oom_reported (stage : MgErrorStage) : (mgSetOom stage).Reported := by
  change MgStatus.outOfMemory ≠ .internalError
  decide

theorem encodeCommand_reports (command : Command) :
    FailsOnly Fault.Reported (encodeCommand command) :=
  .bind self_fails fun _ _ _ _ => onEnv_fails (.update _)

theorem retainLaunchBuffer_reports (buffer : MgBuffer) :
    FailsOnly Fault.Reported (retainLaunchBuffer buffer) :=
  .bind (onEnv_fails (.update _)) fun _ _ _ _ => .bind self_fails fun _ _ _ _ =>
    .bind (.require trivial) fun _ _ _ _ => .update _

theorem retainLaunchEvent_reports (event : MgEvent) :
    FailsOnly Fault.Reported (retainLaunchEvent event) :=
  .bind (onEnv_fails (.update _)) fun _ _ _ _ => .bind self_fails fun _ _ _ _ =>
    .bind (.require trivial) fun _ _ _ _ => .update _

theorem retainAll_reports {γ : Type} (buffer : γ → MgBuffer) (values : List γ) :
    FailsOnly Fault.Reported
      (Eff.forEach (fun value => retainLaunchBuffer (buffer value)) values) :=
  .forEach fun _ _ => retainLaunchBuffer_reports _

theorem commitCurrent_reports : FailsOnly Fault.Reported commitCurrent :=
  .bind self_fails fun _ _ _ _ => .bind (onEnv_fails (.update _)) fun _ _ _ _ =>
    .bind self_fails fun _ _ _ _ =>
    .bind (.whenever (.bind (onEnv_fails (attemptOr_fails (oom_reported _)))
      fun _ _ _ _ => .update _)) fun _ _ _ _ => .update _

theorem nextCommandBuffer_reports (nodeId : MgNodeId) :
    FailsOnly Fault.Reported (nextCommandBuffer nodeId) :=
  .bind (onEnv_fails fun state reason reached stopped =>
      (newCommandBuffer_never state reason reached stopped).elim) fun _ _ _ _ =>
    .bind (.orFail fun _ => encodeFault_reported _ _) fun _ _ _ _ => .update _

theorem flushWork_reports (nodeId : MgNodeId) : FailsOnly Fault.Reported (flushWork nodeId) := by
  refine .bind self_fails fun _ _ _ _ => .bind commitCurrent_reports fun _ _ _ _ =>
    .bind (onEnv_fails fun _ _ _ stopped => by cases stopped) fun _ _ _ _ =>
    .bind (.require ?_) fun _ _ _ _ => nextCommandBuffer_reports _
  change MgStatus.backendError ≠ .internalError
  decide

theorem mpsgraphEncodeNode_reports (mpsgraph : MgExecMpsgraph) :
    FailsOnly Fault.Reported (mgMpsgraphEncodeNode mpsgraph) := by
  refine .bind (onEnv_fails fun _ _ _ stopped => by cases stopped) fun _ _ _ _ =>
    .bind (.require ?_) fun _ _ _ _ =>
    .bind (.require (encodeFault_reported _ _)) fun _ _ _ _ =>
    .bind (onEnv_fails (.forEach fun _ _ => attemptOr_fails (encodeFault_reported _ _)))
      fun _ _ _ _ =>
    .bind (onEnv_fails (.forEach fun _ _ => attemptOr_fails (encodeFault_reported _ _)))
      fun _ _ _ _ =>
    .bind (onEnv_fails (attemptOr_fails (encodeFault_reported _ _))) fun _ _ _ _ =>
    encodeCommand_reports _
  change MgStatus.unsupported ≠ .internalError
  decide

/-- Encoding a node of a known kind. -/
theorem encodeNode_reports {plan : MgWorkspacePlan} {node : MgExecNode}
    (fits : NodeFits plan node) (workspace : Option MetalBuffer) :
    FailsOnly Fault.Reported (encodeNode workspace node) := by
  have encoder : ∀ nodeId message,
      FailsOnly Fault.Reported (onEnv (attemptOr (encodeFault nodeId message)) :
        Over Encoder Unit) :=
    fun _ _ => onEnv_fails (attemptOr_fails (encodeFault_reported _ _))
  cases node with
  | dispatch dispatch =>
      exact .bind (encoder _ _) fun _ _ _ _ => .bind (encodeCommand_reports _) fun _ _ _ _ =>
        .bind (retainAll_reports _ _) fun _ _ _ _ => .update _
  | copy copy =>
      exact .bind (encoder _ _) fun _ _ _ _ => .bind (encodeCommand_reports _) fun _ _ _ _ =>
        .bind (retainLaunchBuffer_reports _) fun _ _ _ _ =>
        .bind (retainLaunchBuffer_reports _) fun _ _ _ _ => .update _
  | fill fill =>
      exact .bind (encoder _ _) fun _ _ _ _ => .bind (encodeCommand_reports _) fun _ _ _ _ =>
        .bind (retainLaunchBuffer_reports _) fun _ _ _ _ => .update _
  | eventWait event | eventSignal event =>
      exact .bind (encodeCommand_reports _) fun _ _ _ _ =>
        .bind (retainLaunchEvent_reports _) fun _ _ _ _ => .update _
  | barrier id | workspace node => exact .pure _
  | mpsgraph mpsgraph =>
      exact .bind self_fails fun _ _ _ _ => .bind (.whenever (flushWork_reports _)) fun _ _ _ _ =>
        .bind (mpsgraphEncodeNode_reports _) fun _ _ _ _ =>
        .bind (retainAll_reports _ _) fun _ _ _ _ => .bind (retainAll_reports _ _) fun _ _ _ _ =>
        .bind commitCurrent_reports fun _ _ _ _ => nextCommandBuffer_reports _
  | workspaceFill fill =>
      exact .bind (encoder _ _) fun _ _ _ _ =>
        .bind (.forEach fun _ _ => encodeCommand_reports _) fun _ _ _ _ =>
        .bind (retainLaunchBuffer_reports _) fun _ _ _ _ => .update _
  | unknown kind => exact fits.elim

theorem encodeDirect_reports {exec : MgGraphExec} (wf : ExecWf exec) :
    FailsOnly Fault.Reported (encodeDirect exec) :=
  .bind (.forEach fun node member => encodeNode_reports (wf.nodes node member) _) fun _ _ _ _ =>
    .bind self_fails fun _ _ _ _ => .whenever commitCurrent_reports

theorem encodeIcb_reports (exec : MgGraphExec) (icb : IndirectCommandBuffer) :
    FailsOnly Fault.Reported (encodeIcb exec icb) :=
  .bind (onEnv_fails (attemptOr_fails (encodeFault_reported _ _))) fun _ _ _ _ =>
    .bind (encodeCommand_reports _) fun _ _ _ _ => .forEach fun _ _ =>
    .bind (.orFail fun _ => trivial) fun _ _ _ _ => retainAll_reports _ _

theorem allocateLaunch_reports (exec : MgGraphExec) :
    FailsOnly Fault.Reported (allocateLaunch exec) :=
  .bind (attemptOr_fails (oom_reported _)) fun _ _ _ _ =>
    .bind (.whenever (attemptOr_fails (oom_reported _))) fun _ _ _ _ =>
    .bind (.whenever (attemptOr_fails (oom_reported _))) fun _ _ _ _ => .pure _

theorem mgGraphLaunch_ordinary {address : ExecPtr} {stream : Option MgStream}
    {exec : MgGraphExec} {env : Env} {reason : Fault} {reached : Focus MgGraphExec}
    (wf : ExecWf exec) (supported : ∀ node ∈ exec.nodes, node.Supported env)
    (stopped : mgGraphLaunch address stream ⟨exec, env⟩ = (.error reason, reached)) :
    reason.Ordinary := by
  have encoding : ∀ {encoder : Encoder} {body : Over Encoder Unit} {middle after : Env},
      FailsOnly Fault.Reported body → withLocal encoder body
        (fun encoder => mgLaunchDestroy encoder.launch) middle = (.error reason, after) →
      reason.Reported := by
    intro encoder body middle after reports failed
    obtain ⟨focus, ran, _⟩ := withLocal_error (fun _ => (mgLaunchDestroy_total _).fails) failed
    exact reports _ _ _ ran
  apply Fault.Reported.ordinary _ (mgGraphLaunch_halts wf supported stopped).defined
  cases mgGraphLaunch_stop stopped with
  | missing message =>
      change MgStatus.invalidArgument ≠ .internalError
      decide
  | refused created => exact encodeFault_reported _ _
  | unallocated created failed => exact allocateLaunch_reports _ _ _ _ failed
  | direct created ready usable failed => exact encoding (encodeDirect_reports wf) failed
  | indirect created ready usable failed => exact encoding (encodeIcb_reports _ _) failed
  | uncommitted created ready usable encoded failed =>
      exact encoding commitCurrent_reports failed

/-! ### Calls -/

theorem placeObject_fails {α : Type} {expected : Fault → Prop} (build : Nat → α)
    (object : α → Object) : FailsOnly expected (placeObject build object) := by
  intro env reason reached stopped
  cases stopped

theorem bufferCreateShared_fails (device : Option MgDevice) (length : UInt64) :
    FailsOnly Fault.Ordinary (mgBufferCreateShared device length) :=
  .bind (.orFail fun _ => createFault_ordinary _) fun _ _ _ _ =>
    .bind (.require (createFault_ordinary _)) fun _ _ _ _ =>
    .bind (newBufferWithLength_fails _ _ _) fun _ _ _ _ =>
    .bind (.orFail fun _ => ordinary_of_ne (by decide)) fun _ _ _ _ =>
    .bind (attemptOr_fails (oom_ordinary _)) fun _ _ _ _ =>
    .bind (attemptOr_fails (oom_ordinary _)) fun _ _ _ _ => placeObject_fails _ _

theorem wrapShape_checks (desc : MgMetalBufferWrapDesc) : Checks (wrapDescValidateShape desc) := by
  apply Checks.bind (.demand _ _)
  intro _
  split
  · exact .refused _
  · exact .ok _

theorem wrapFlags_checks (desc : MgMetalBufferWrapDesc) : Checks (wrapDescValidateFlags desc) :=
  .bind (.demand _ _) fun _ => .bind (.demand _ _) fun _ => .bind (.demand _ _) fun _ =>
    .bind (.demand _ _) fun _ => .bind (.demand _ _) fun _ => .demand _ _

theorem metalBufferWrap_fails (device : Option MgDevice) (desc : Option MgMetalBufferWrapDesc) :
    FailsOnly Fault.Ordinary (mgMetalBufferWrap device desc) := by
  refine .bind (.orFail fun _ => createFault_ordinary _) fun metalDevice _ _ _ =>
    .bind (.orFail fun _ => createFault_ordinary _) fun desc _ _ _ =>
    .bind (.ofExcept (wrapShape_checks _)) fun metalBuffer _ _ _ =>
    .bind (.require (createFault_ordinary _)) fun _ _ _ _ => ?_
  split
  · exact .fail (createFault_ordinary _)
  · refine .bind (.ofExcept (wrapFlags_checks _)) fun _ _ _ _ =>
      .bind (.require (createFault_ordinary _)) fun _ _ _ _ => ?_
    split
    · exact .fail (createFault_ordinary _)
    · refine .bind (.require (ordinary_of_ne (by decide))) fun _ _ _ _ =>
        .bind (attemptOr_fails (oom_ordinary _)) fun _ _ _ _ =>
        .bind (attemptOr_fails (oom_ordinary _)) fun _ _ _ _ =>
        .bind ?_ fun _ _ _ _ => placeObject_fails _ _
      rcases desc.retainedOwner with _ | context
      · exact .pure _
      · exact .update _

theorem arenaDesc_fails {desc : Option MgArenaDesc} {stage : MgErrorStage} (reason : Fault)
    (failed : mgArenaDescValidate desc stage = .error reason) : reason.Ordinary := by
  cases desc with
  | none =>
      cases failed
      exact ordinary_of_ne (by decide)
  | some desc =>
      rcases except_bind_error.mp failed with invalid | ⟨_, _, absurdity⟩
      · simp only [descValidate, except_bind_error, demand_error] at invalid
        rcases invalid with ⟨_, rfl⟩ | ⟨_, _, ⟨_, rfl⟩ | ⟨_, _, _, rfl⟩⟩
        · exact ordinary_of_ne (by decide)
        · exact ordinary_of_ne (by decide)
        · exact ordinary_of_ne (by decide)
      · cases absurdity

theorem ObjectCall.run_fails (call : ObjectCall) : FailsOnly Fault.Ordinary call.run := by
  cases call with
  | bufferCreateShared device length =>
      exact .bind (bufferCreateShared_fails device length) fun _ _ _ _ => .pure _
  | metalBufferWrap device desc =>
      exact .bind (metalBufferWrap_fails device desc) fun _ _ _ _ => .pure _
  | eventCreate device =>
      exact .bind (.bind (.orFail fun _ => createFault_ordinary _) fun _ _ _ _ =>
        .bind (attemptOr_fails (ordinary_of_ne (by decide))) fun _ _ _ _ =>
        .bind (attemptOr_fails (ordinary_of_ne (by decide))) fun _ _ _ _ =>
        .bind (attemptOr_fails (oom_ordinary _)) fun _ _ _ _ =>
        .bind (fun _ _ _ stopped => by cases stopped) fun _ _ _ _ => placeObject_fails _ _)
        fun _ _ _ _ => .pure _
  | arenaCreate device desc =>
      exact .bind (.bind (.orFail fun _ => createFault_ordinary _) fun _ _ _ _ =>
        .bind (.ofExcept arenaDesc_fails) fun _ _ _ _ =>
        .bind (attemptOr_fails (oom_ordinary _)) fun _ _ _ _ => placeObject_fails _ _)
        fun _ _ _ _ => .pure _
  | bufferDestroy buffer =>
      exact .bind (.forEach fun _ _ => .update _) fun _ _ _ _ => .pure _
  | eventDestroy event =>
      exact .bind (.forEach fun _ _ => .update _) fun _ _ _ _ => .pure _
  | arenaDestroy arena =>
      exact .bind (fun state reason reached stopped =>
        ((mgArenaRelease_total arena).fails state reason reached stopped).elim)
        fun _ _ _ _ => .pure _

theorem sync_ordinary {object : LaunchOf} {env : Env} {result : Except Fault Unit}
    {focus : Focus LaunchOf} (step : SyncStep object env result focus)
    (alive : object.launch.completed = false → object.launch.exec.isSome = true →
      object.exec.isSome = true) {reason : Fault} (stopped : result = .error reason) :
    reason.Ordinary := by
  have waited : ∀ failed : Bool, (if failed = true then
      .error (mgSetError .backendError .complete mgNodeIdInvalid "Metal command buffer failed")
      else .ok () : Except Fault Unit) = .error reason → reason.Ordinary := by
    intro failed answer
    cases failed with
    | false => cases answer
    | true =>
        cases answer
        exact ordinary_of_ne (by decide)
  cases step with
  | idle nothing =>
      cases stopped
      exact ordinary_of_ne (by decide)
  | orphaned filled pending named freed =>
      have present := alive pending named
      rw [freed] at present
      cases present
  | again | first => exact waited _ stopped

/-- A call on a null handle is refused for it. -/
theorem missed_ordinary {system : System} {call : Call} (permitted : system.permits call = true)
    (missed : call.misses system.world) {reason : Fault}
    (failed : (system.record call).result = .error reason) : reason.Ordinary := by
  have null : ∀ {τ : Type} {table : Slots τ} {handle : Option Nat},
      handleAlive table handle = true → Misses table handle → handle = none := by
    intro τ table handle alive missed
    cases handle with
    | none => rfl
    | some address => simp [handleAlive, missed address rfl] at alive
  cases call with
  | counted | graphCreate => exact missed.elim
  | graphDestroy handle | launchDestroy handle =>
      cases null permitted missed
      cases failed
  | execDestroy handle =>
      cases null (Bool.and_eq_true_iff.mp permitted).1 missed
      cases failed
  | graphEdit handle =>
      cases null (Bool.and_eq_true_iff.mp permitted).1 missed
      cases failed
      exact createFault_ordinary _
  | execPatch handle =>
      cases null (Bool.and_eq_true_iff.mp permitted).1 missed
      cases failed
      exact patchFault_ordinary _ _
  | graphValidate handle | graphInstantiate handle | graphLaunch handle
  | launchSynchronize handle =>
      cases null permitted missed
      cases failed
      exact ordinary_of_ne (by decide)

/-- What a permitted call fails with. -/
theorem Reachable.fails_ordinary {system : System} (reachable : Reachable system) {call : Call}
    (permitted : system.permits call = true) {reason : Fault}
    (failed : (system.record call).result = .error reason) : reason.Ordinary := by
  have answered : ∀ {result : Except Fault Unit},
      result.map (fun _ => Response.done) = .error reason → result = .error reason := by
    intro result answer
    cases result <;> cases answer
    rfl
  obtain ⟨world, _, step⟩ := recorded_step rfl
  generalize answer : (system.record call).result = result at step failed
  cases step with
  | refused _ missed => exact missed_ordinary permitted missed (answer.trans failed)
  | nothing | graphCreate | graphDestroy | graphInstantiate | execDestroy | graphLaunch
  | launchDestroy => cases failed
  | counted call ran =>
      subst failed
      exact call.run_fails _ _ _ ran
  | graphNotCreated ran =>
      cases failed
      exact FailsOnly.bind (attemptOr_fails (oom_ordinary _)) (fun _ _ _ _ => .pure _) _ _ _ ran
  | graphEdit live ran =>
      subst failed
      apply GraphEdit.run_ordinary (reachable.graphsWf _ _ live).here _ ran
      rintro pointer flags rfl
      exact nodeAlive_names live (Bool.and_eq_true_iff.mp permitted).2
  | graphValidate live ran =>
      rw [answered failed] at ran
      exact mgGraphValidate_fails (reachable.graphsWf _ _ live) _ _ _ ran
  | graphNotInstantiated live ran =>
      cases failed
      exact mgGraphInstantiate_fails (reachable.graphsWf _ _ live) _ _ _ _ ran
  | execPatch live ran =>
      rw [answered failed] at ran
      exact ExecPatch.run_fails _ _ _ _ ran
  | graphNotLaunched live ran =>
      cases failed
      exact mgGraphLaunch_ordinary (reachable.execWf live) (reachable.supports _ _ live) ran
  | @launchSynchronize address launch result focus live ran =>
      have sync := mgLaunchSynchronize_step ⟨launch, system.world.execOf launch⟩ system.world.env
      rw [ran] at sync
      apply sync_ordinary sync _ (answered failed)
      intro pending named
      obtain ⟨pointer, owner⟩ := Option.isSome_iff_exists.mp named
      obtain ⟨exec, alive⟩ :=
        reachable.synchronizable.alive address launch live pending pointer owner
      simp only [execOf_named owner, alive, Option.isSome_some]

theorem Reachable.log_ordinary {system : System} (reachable : Reachable system) :
    ∀ entry ∈ system.log, ∀ reason, entry.result = .error reason → reason.Ordinary := by
  induction reachable with
  | start => simp [System.initial]
  | @step system call earlier permitted ih =>
      intro entry logged reason failed
      rcases List.mem_append.mp logged with old | new
      · exact ih entry old reason failed
      · cases List.mem_singleton.mp new
        exact earlier.fails_ordinary permitted failed

/-- In a run that keeps to the rules, no call uses a freed handle or what lies past an array,
and none is told of an internal error. Unless a count has run over, no buffer, event or
arena is retained or released after it was freed, and each that somebody holds is there. -/
theorem no_call_undefined {system : System} (reachable : Reachable system) :
    (∀ entry ∈ system.log, ∀ reason, entry.result = .error reason → reason.Ordinary) ∧
      (system.world.env.heap.overflowed = false →
        system.world.env.heap.dangling = false ∧
          ∀ address, system.Held address →
            ∃ cell, system.world.env.heap.cells.get? address = some cell) := by
  refine ⟨reachable.log_ordinary, fun bounded => ?_⟩
  have counted := reachable.counted bounded
  exact ⟨counted.sound, fun address held => (counted.alive address).mpr held⟩

/-- The buffer is still there when only the plan holds it, and a patch that takes the fill
for an event is refused for that. -/
theorem no_call_undefined_of_owned :
    (∃ reason, ((grantAll.run ownedCalls).record (.execPatch (some 0) (.eventValue 1 5))).result =
        .error reason ∧ reason.Ordinary) ∧
      ((grantAll.run ownedCalls).step (.execPatch (some 0)
        (.eventValue 1 5))).world.env.heap.dangling = false ∧
      ∃ cell, ((grantAll.run ownedCalls).step (.execPatch (some 0)
        (.eventValue 1 5))).world.env.heap.cells.get? 0 = some cell := by
  have run : Reachable ((grantAll.run ownedCalls).step (.execPatch (some 0) (.eventValue 1 5))) :=
    ((Reachable.start _ _ _).run (by decide +kernel)).step (by decide +kernel)
  have answered : ((grantAll.run ownedCalls).record
      (.execPatch (some 0) (.eventValue 1 5))).result =
        .error (patchFault 1 "node is not an event node") := by decide +kernel
  obtain ⟨defined, counted⟩ := no_call_undefined run
  obtain ⟨sound, alive⟩ := counted (by decide +kernel)
  refine ⟨⟨_, answered, defined _ ?_ _ answered⟩, sound, alive 0 (.inr (by decide +kernel))⟩
  exact List.mem_append_right _ (List.mem_singleton_self _)

/-! ### Plans destroyed too early -/

theorem sync_undefined_iff {object : LaunchOf} {env : Env} {result : Except Fault Unit}
    {focus : Focus LaunchOf} (step : SyncStep object env result focus) :
    result = .error .undefined ↔ object.launch.impls ≠ [] ∧ object.launch.completed = false ∧
      object.launch.exec.isSome = true ∧ object.exec = none := by
  have waited : ∀ failed : Bool, ¬ (if failed = true then
      .error (mgSetError .backendError .complete mgNodeIdInvalid "Metal command buffer failed")
      else .ok () : Except Fault Unit) = .error .undefined := by
    intro failed answer
    cases failed <;> cases answer
  cases step with
  | idle nothing => simp [nothing, mgSetError]
  | orphaned filled pending named freed => simp [filled, pending, named, freed]
  | again filled done =>
      simp only [waited, done, reduceCtorEq, false_and, and_false]
  | first filled pending alive =>
      simp only [waited, false_iff]
      rintro ⟨_, _, named, freed⟩
      simp [freed] at alive
      simp [alive] at named

/-- A plan that is destroyed although a launch names it: synchronizing the launch reads the
freed plan exactly if nobody has synchronized it before and the plan has work. -/
theorem synchronize_reads_freed_iff {system : System} (reachable : Reachable system)
    {handle : LaunchPtr} {launch : MgLaunch} {address : ExecPtr} {exec : MgGraphExec}
    (live : system.world.launches.get? handle = some launch)
    (named : launch.exec = some address)
    (present : system.world.execs.get? address = some exec) :
    ((system.step (.execDestroy (some address))).record
        (.launchSynchronize (some handle))).result = .error .undefined ↔
      launch.completed = false ∧ exec.HasWork := by
  rw [← reachable.synchronizable.work handle launch live address exec named present]
  obtain ⟨env, ran⟩ := mgGraphExecDestroy_total exec system.world.env
  have freed : (system.step (.execDestroy (some address))).world =
      { system.world with env := env, execs := system.world.execs.free address } := by
    change ((Call.execDestroy (some address)).eval system.world).2 = _
    simp only [Call.eval, destroying_live present ran]
    rfl
  generalize system.step (.execDestroy (some address)) = after at freed
  obtain ⟨world, _, step⟩ := @recorded_step after (.launchSynchronize (some handle)) _ rfl
  generalize (after.record (.launchSynchronize (some handle))).result = result at step
  have kept : after.world.launches.get? handle = some launch := by rw [freed, live]
  have gone : after.world.execOf launch = none := by
    rw [freed, World.execOf, named, Option.bind_some, Slots.get?_free, if_pos rfl]
  cases step with
  | refused reason missed => simp [missed handle rfl] at kept
  | nothing missed => simp [missed handle rfl] at kept
  | @launchSynchronize _ other result focus found ran =>
      rw [kept] at found
      cases found
      have sync := mgLaunchSynchronize_step ⟨launch, after.world.execOf launch⟩ after.world.env
      rw [ran, gone] at sync
      have answer : result.map (fun _ => Response.done) = .error .undefined ↔
          result = .error .undefined := by cases result <;> simp [Except.map]
      rw [answer, sync_undefined_iff sync]
      simp only [named, Option.isSome_some, and_true]
      exact and_comm

theorem synchronize_reads_freed_of_launched :
    ∃ launch, (grantAll.run launchedCalls).world.launches.get? 0 = some launch ∧
      (((grantAll.run launchedCalls).step (.execDestroy (some 0))).record
          (.launchSynchronize (some 0))).result = .error .undefined := by
  obtain ⟨launch, live⟩ : ∃ launch,
      (grantAll.run launchedCalls).world.launches.get? 0 = some launch :=
    Option.isSome_iff_exists.mp (by decide +kernel)
  obtain ⟨pending, named⟩ :=
    launched_reachable.accounts.pending 0 launch live 0 (by decide +kernel)
  refine ⟨launch, live, ?_⟩
  apply (synchronize_reads_freed_iff launched_reachable live named launched_live).mpr
  exact ⟨pending, .inr (by decide +kernel)⟩

end MetalGraph
