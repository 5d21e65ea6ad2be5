import MetalGraph.Proofs.GraphValidation
import MetalGraph.Proofs.WorkspacePlan

set_option autoImplicit false

/- Instantiation copies the nodes of a graph along a topological order. -/
namespace MetalGraph

open Eff

/-- The executable node a graph node becomes. Workspace nodes also get their offset. -/
def MgNode.instantiated (src : MgNode) (offset : UInt64) : MgExecNode :=
  match src.as with
  | .dispatch node => .dispatch
      { node with
        id := src.id
        patchFlags := src.patchFlags
        pipelineImpl := some ⟨node.metallibPath, node.kernelName⟩ }
  | .copy node => .copy { node with id := src.id, patchFlags := src.patchFlags }
  | .fill node => .fill { node with id := src.id, patchFlags := src.patchFlags }
  | .eventWait node => .eventWait { node with id := src.id, patchFlags := src.patchFlags }
  | .eventSignal node => .eventSignal { node with id := src.id, patchFlags := src.patchFlags }
  | .barrier => .barrier src.id
  | .mpsgraph node => .mpsgraph { node with id := src.id, executableImpl := some node.packagePath }
  | .workspace node => .workspace { node with id := src.id, offset := offset }
  | .workspaceFill node => .workspaceFill { node with id := src.id, offset := offset }
  | .unknown kind => .unknown kind

/-! ### Cloning -/

theorem wrapped_ok {α β : Type} {wrap : α → β} {body : Fills α α} {value : β}
    {env reached : Env} :
    wrapped wrap body env = (.ok value, reached) ↔
      ∃ inner, body env = (.ok inner, reached) ∧ wrap inner = value := by
  simp only [wrapped, bind_ok, catching_ok, fail_ok, and_false, exists_false, or_false, pure_ok]
  constructor
  · rintro ⟨inner, _, ran, rfl, rfl⟩
    exact ⟨inner, ran, rfl⟩
  · rintro ⟨inner, ran, rfl⟩
    exact ⟨inner, reached, ran, rfl, rfl⟩

theorem mgCloneDispatch_ok {id : MgNodeId} {flags : MgPatchFlags} {node : MgDispatchNode}
    {cloned : MgExecDispatch} {env reached : Env}
    (success : mgCloneDispatch id flags node env = (.ok cloned, reached)) :
    cloned = { node with id := id, patchFlags := flags, pipelineImpl := none } := by
  simp only [mgCloneDispatch, bind_ok, pure_ok] at success
  obtain ⟨_, _, _, _, _, _, _, _, _, rfl, _⟩ := success
  rfl

theorem mgCloneMpsgraphTensors_ok {src tensors : List MgMpsgraphTensor} {env reached : Env}
    (success : mgCloneMpsgraphTensors src env = (.ok tensors, reached)) : tensors = src := by
  cases src with
  | nil => exact (pure_ok.mp success).1.symm
  | cons first rest =>
      simp only [mgCloneMpsgraphTensors, bind_ok] at success
      obtain ⟨_, _, _, looped⟩ := success
      refine Triple.foldEach_ok (fun done tensors => tensors = done) ?_ rfl looped
      intro done tensor tensors next state after _ same ran
      simp only [bind_ok, pure_ok] at ran
      obtain ⟨_, _, _, _, _, _, rfl, _⟩ := ran
      rw [same]

theorem mgCloneMpsgraph_ok {id : MgNodeId} {node : MgMpsgraphNode} {cloned : MgExecMpsgraph}
    {env reached : Env} (success : mgCloneMpsgraph id node env = (.ok cloned, reached)) :
    cloned = { node with id := id, executableImpl := none } := by
  simp only [mgCloneMpsgraph, bind_ok, pure_ok, holding_ok] at success
  obtain ⟨_, _, _, feeds, _, copied, targets, _, copied', rfl, _⟩ := success
  cases mgCloneMpsgraphTensors_ok copied
  cases mgCloneMpsgraphTensors_ok copied'
  rfl

/-- Loading fills in the executable or the pipeline and nothing else. -/
theorem loadNode_ok {node loaded : MgExecNode} {env reached : Env}
    (success : loadNode node env = (.ok loaded, reached)) :
    loaded = match node with
      | .dispatch dispatch => .dispatch { dispatch with
          pipelineImpl := some ⟨dispatch.metallibPath, dispatch.kernelName⟩ }
      | .mpsgraph mpsgraph => .mpsgraph { mpsgraph with
          executableImpl := some mpsgraph.packagePath }
      | other => other := by
  cases node with
  | dispatch dispatch =>
      simp only [loadNode, loadPipeline, bind_ok, pure_ok] at success
      obtain ⟨_, _, ⟨_, _, _, _, _, _, _, _, _, rfl, _⟩, rfl, _⟩ := success
      rfl
  | mpsgraph mpsgraph =>
      simp only [loadNode, mgMpsgraphLoadExecutable, bind_ok, pure_ok] at success
      obtain ⟨_, _, ⟨_, _, _, _, _, _, _, _, _, _, _, _, _, _, _, rfl, _⟩, rfl, _⟩ := success
      rfl
  | copy | fill | eventWait | eventSignal | barrier | workspace | workspaceFill | unknown =>
      exact (pure_ok.mp success).1.symm

theorem instantiateNode_ok {src : MgNode} {plan : MgWorkspacePlan} {node : MgExecNode}
    {env reached : Env} (success : instantiateNode src plan env = (.ok node, reached)) :
    ∃ offset, node = src.instantiated offset ∧
      (needsWorkspace src = true → mgWorkspacePlanOffsetForNode plan src.id = .ok offset) := by
  simp only [instantiateNode, bind_ok, holding_ok] at success
  obtain ⟨cloned, _, copied, loaded⟩ := success
  have full := loadNode_ok loaded
  obtain ⟨graph, id, index, flags, as⟩ := src
  cases as with
  | dispatch inner =>
      obtain ⟨_, ran, rfl⟩ := wrapped_ok.mp copied
      cases mgCloneDispatch_ok ran
      exact ⟨0, full, by simp [needsWorkspace, MgNode.workspaceNeed]⟩
  | mpsgraph inner =>
      obtain ⟨_, ran, rfl⟩ := wrapped_ok.mp copied
      cases mgCloneMpsgraph_ok ran
      exact ⟨0, full, by simp [needsWorkspace, MgNode.workspaceNeed]⟩
  | copy inner =>
      simp only [mgCloneExecNode, bind_ok, pure_ok] at copied
      obtain ⟨_, _, _, _, _, _, rfl, _⟩ := copied
      exact ⟨0, full, by simp [needsWorkspace, MgNode.workspaceNeed]⟩
  | fill inner =>
      simp only [mgCloneExecNode, bind_ok, pure_ok] at copied
      obtain ⟨_, _, _, rfl, _⟩ := copied
      exact ⟨0, full, by simp [needsWorkspace, MgNode.workspaceNeed]⟩
  | eventWait inner =>
      simp only [mgCloneExecNode, bind_ok, pure_ok] at copied
      obtain ⟨_, _, _, rfl, _⟩ := copied
      exact ⟨0, full, by simp [needsWorkspace, MgNode.workspaceNeed]⟩
  | eventSignal inner =>
      simp only [mgCloneExecNode, bind_ok, pure_ok] at copied
      obtain ⟨_, _, _, rfl, _⟩ := copied
      exact ⟨0, full, by simp [needsWorkspace, MgNode.workspaceNeed]⟩
  | barrier =>
      obtain ⟨rfl, _⟩ := pure_ok.mp copied
      exact ⟨0, full, by simp [needsWorkspace, MgNode.workspaceNeed]⟩
  | workspace inner =>
      simp only [mgCloneExecNode, bind_ok, pure_ok, holding_ok, ofExcept_ok] at copied
      obtain ⟨offset, _, ⟨found, _⟩, rfl, _⟩ := copied
      exact ⟨offset, full, fun _ => found⟩
  | workspaceFill inner =>
      simp only [mgCloneExecNode, bind_ok, pure_ok, holding_ok, ofExcept_ok] at copied
      obtain ⟨_, _, _, offset, _, ⟨found, _⟩, rfl, _⟩ := copied
      exact ⟨offset, full, fun _ => found⟩
  | unknown kind => exact absurd copied (by simp [mgCloneExecNode])

/-! ### A successful instantiation -/

theorem instantiateStep_ok {graph : MgGraph} {plan : MgWorkspacePlan}
    {nodes next : List MgExecNode} {index : Nat} {env reached : Env}
    (success : instantiateStep graph plan nodes index env = (.ok next, reached)) :
    ∃ src offset, graph.nodes[index]? = some src ∧ next = nodes ++ [src.instantiated offset] ∧
      (needsWorkspace src = true → mgWorkspacePlanOffsetForNode plan src.id = .ok offset) := by
  simp only [instantiateStep, bind_ok, nodeAt_ok, catching_ok, fail_ok, and_false, exists_false,
    or_false, pure_ok] at success
  obtain ⟨src, _, ⟨present, rfl⟩, node, _, cloned, rfl, _⟩ := success
  obtain ⟨offset, rfl, placed⟩ := instantiateNode_ok cloned
  exact ⟨src, offset, present, rfl, placed⟩

theorem newBufferWithLength_ok {device : Nat} {length : UInt64} {hasContents : Bool}
    {buffer : MetalBuffer} {env reached : Env}
    (success : newBufferWithLength device length hasContents env = (.ok (some buffer), reached)) :
    buffer.length = length := by
  simp only [newBufferWithLength, bind_ok] at success
  obtain ⟨granted, _, _, created⟩ := success
  split at created
  · simp only [bind_ok, pure_ok] at created
    obtain ⟨_, _, _, same, _⟩ := created
    cases same
    rfl
  · simp at created

/-- The workspace is allocated exactly when something was planned. -/
theorem mgWorkspaceAllocate_ok {plan workspace : MgWorkspacePlan} {device : Nat}
    {env reached : Env} (idle : plan.backendImpl = none)
    (success : mgWorkspaceAllocate plan device env = (.ok workspace, reached)) :
    ∃ backend, workspace = { plan with backendImpl := backend } ∧
      (plan.totalSize ≠ 0 → ∃ buffer, backend = some buffer ∧ buffer.length = plan.totalSize) := by
  unfold mgWorkspaceAllocate at success
  split at success
  · rename_i nothing
    obtain ⟨rfl, _⟩ := pure_ok.mp success
    exact ⟨none, by rw [← idle], fun planned => absurd nothing planned⟩
  · simp only [bind_ok, orFail_ok, pure_ok] at success
    obtain ⟨_, _, created, buffer, _, ⟨rfl, _⟩, rfl, _⟩ := success
    exact ⟨some buffer, rfl, fun _ => ⟨buffer, rfl, newBufferWithLength_ok created⟩⟩

theorem instantiateOrder_ok {address : GraphPtr} {graph : MgGraph} {order : List Nat}
    {env reached : Env} (wf : GraphWf address graph)
    (success : instantiateOrder graph env = (.ok order, reached)) :
    IsTopologicalOrder graph.nodes.length graph.edges order := by
  unfold instantiateOrder at success
  split at success
  · rename_i empty
    obtain ⟨rfl, _⟩ := pure_ok.mp success
    exact wf.isTopologicalOrder_nil empty
  · rename_i filled
    rw [mgGraphTopologicalOrder, if_neg (by simpa using filled)] at success
    simp only [bind_ok, ofExcept_ok] at success
    obtain ⟨_, _, _, _, _, _, ran, _⟩ := success
    rcases topologicalOrder_cases wf.inside with ⟨_, found, same, sorted⟩ | ⟨_, same⟩
    · rw [same] at ran
      cases ran
      exact sorted
    · rw [same] at ran
      cases ran

/-- What a recorded indirect command buffer says about the only node of its plan. -/
def IcbRecords (icb : MgIcbPlan) (nodes : List MgExecNode) : Prop :=
  ∀ recorded, icb.backendImpl = some recorded → ∃ dispatch, nodes = [.dispatch dispatch] ∧
    mgIcbDispatchEligible dispatch = .none ∧
    recorded = ⟨maxKernelBufferBindCount dispatch.buffers, [recordIcbCommand dispatch]⟩ ∧
    icb.commandCount = 1

theorem icbRecords_of_none {icb : MgIcbPlan} (nodes : List MgExecNode)
    (nothing : icb.backendImpl = none) : IcbRecords icb nodes := by
  intro recorded present
  rw [nothing] at present
  cases present

theorem mgIcbPlanBuild_ok {nodes : List MgExecNode} {icb : MgIcbPlan} {env reached : Env}
    (success : mgIcbPlanBuild nodes env = (.ok icb, reached)) : IcbRecords icb nodes := by
  simp only [mgIcbPlanBuild, bind_ok] at success
  obtain ⟨available, _, _, built⟩ := success
  split at built
  · obtain ⟨rfl, _⟩ := pure_ok.mp built
    exact icbRecords_of_none _ rfl
  · split at built
    · obtain ⟨rfl, _⟩ := pure_ok.mp built
      exact icbRecords_of_none _ rfl
    · split at built
      · rename_i dispatch
        split at built
        · obtain ⟨rfl, _⟩ := pure_ok.mp built
          exact icbRecords_of_none _ rfl
        · rename_i eligible
          simp only [recordIcbPlan, bind_ok] at built
          obtain ⟨granted, _, _, recorded⟩ := built
          split at recorded
          · obtain ⟨rfl, _⟩ := pure_ok.mp recorded
            rintro found ⟨⟩
            exact ⟨dispatch, rfl, not_not.mp eligible, rfl, rfl⟩
          · obtain ⟨rfl, _⟩ := pure_ok.mp recorded
            exact icbRecords_of_none _ rfl
      · obtain ⟨rfl, _⟩ := pure_ok.mp built
        exact icbRecords_of_none _ rfl
  · obtain ⟨rfl, _⟩ := pure_ok.mp built
    exact icbRecords_of_none _ rfl

/-- The node at a position of the order, copied with the offset planned for it. -/
def ClonedFrom (graph : MgGraph) (workspace : MgWorkspacePlan) (index : Nat)
    (node : MgExecNode) : Prop :=
  ∃ src offset, graph.nodes[index]? = some src ∧ node = src.instantiated offset ∧
    (needsWorkspace src = true →
      ∃ record ∈ workspace.records, RecordFor src record ∧ record.offset = offset)

/-- What an instantiation makes of a graph. -/
structure Instantiates (graph : MgGraph) (order : List Nat) (exec : MgGraphExec) : Prop where
  sorted : IsTopologicalOrder graph.nodes.length graph.edges order
  nodes : List.Forall₂ (ClonedFrom graph exec.workspace) order exec.nodes
  inside : ∀ record ∈ exec.workspace.records,
    record.offset.toNat + record.size.toNat ≤ exec.workspace.totalSize.toNat
  allocated : exec.workspace.totalSize ≠ 0 → ∃ buffer,
    exec.workspace.backendImpl = some buffer ∧ buffer.length = exec.workspace.totalSize
  icb : IcbRecords exec.icb exec.nodes
  idle : exec.inFlightCount = 0

section Ids

variable {address : GraphPtr} {graph : MgGraph}

theorem GraphWf.lt_of_get? (wf : GraphWf address graph) {index : Nat} {node : MgNode}
    (present : graph.nodes[index]? = some node) : index + 1 < 2 ^ 64 - 1 := by
  have below := (List.getElem?_eq_some_iff.mp present).1
  have room := wf.room
  simp only [sizeofMgNode] at room
  omega

theorem GraphWf.toNat_id (wf : GraphWf address graph) {index : Nat} {node : MgNode}
    (present : graph.nodes[index]? = some node) : node.id.toNat = index + 1 := by
  have small := wf.lt_of_get? present
  rw [(wf.nodes index node present).id, UInt64.toNat_ofNat', Nat.mod_eq_of_lt (by omega)]

theorem GraphWf.index_of_id (wf : GraphWf address graph) {first second : Nat}
    {node other : MgNode} (present : graph.nodes[first]? = some node)
    (present' : graph.nodes[second]? = some other) (same : node.id = other.id) :
    first = second := by
  have left := wf.toNat_id present
  rw [same, wf.toNat_id present'] at left
  omega

theorem GraphWf.id_ne_invalid (wf : GraphWf address graph) {node : MgNode}
    (member : node ∈ graph.nodes) : node.id ≠ mgNodeIdInvalid := by
  obtain ⟨index, present⟩ := List.mem_iff_getElem?.mp member
  have small := wf.lt_of_get? present
  intro invalid
  have value := wf.toNat_id present
  simp only [invalid, mgNodeIdInvalid, UInt64.reduceToNat] at value
  omega

theorem GraphWf.ids_distinct (wf : GraphWf address graph) :
    (graph.nodes.map MgNode.id).Nodup := by
  refine List.nodup_iff_getElem?_ne_getElem?.mpr fun first second before inside equal => ?_
  rw [List.length_map] at inside
  simp only [List.getElem?_map, List.getElem?_eq_getElem inside,
    List.getElem?_eq_getElem (before.trans inside), Option.map_some, Option.some.injEq] at equal
  have same := wf.index_of_id (List.getElem?_eq_getElem (before.trans inside))
    (List.getElem?_eq_getElem inside) equal
  omega

end Ids

/-- The stages of an instantiation that succeeds. -/
inductive InstantiateRun (graph : MgGraph) (device : Option MgDevice) : MgGraphExec → Env → Prop
  | intro {metalDevice : Nat} {order : List Nat} {plan workspace : MgWorkspacePlan}
      {nodes : List MgExecNode} {icb : MgIcbPlan}
      {first second third fourth fifth sixth seventh eighth reached : Env}
      (given : deviceImpl device = some metalDevice)
      (ordered : instantiateOrder graph first = (.ok order, second))
      (planned : mgGraphPlanWorkspace graph order third = (.ok plan, fourth))
      (allocated : mgWorkspaceAllocate plan metalDevice fifth = (.ok workspace, sixth))
      (cloned : foldEach (instantiateStep graph workspace) [] order seventh = (.ok nodes, eighth))
      (built : mgIcbPlanBuild nodes eighth = (.ok icb, reached)) :
      InstantiateRun graph device ⟨nodes, some metalDevice, workspace, icb, 0⟩ reached

theorem mgGraphInstantiate_run {graph : MgGraph} {device : Option MgDevice} {exec : MgGraphExec}
    {env reached : Env} (success : mgGraphInstantiate graph device env = (.ok exec, reached)) :
    InstantiateRun graph device exec reached := by
  simp only [mgGraphInstantiate, bind_ok, cleaning_ok, orFail_ok, pure_ok] at success
  obtain ⟨_, _, ⟨given, _⟩, _, _, _, order, _, ordered, _, _, _, plan, _, planned, _, _, _,
    workspace, _, allocated, nodes, _, cloned, icb, _, built, rfl, rfl⟩ := success
  exact .intro given ordered planned allocated cloned built

theorem mgGraphInstantiate_ordered {address : GraphPtr} {graph : MgGraph}
    {device : Option MgDevice} {exec : MgGraphExec} {env reached : Env} (wf : GraphWf address graph)
    (success : mgGraphInstantiate graph device env = (.ok exec, reached)) :
    ∃ order first second, instantiateOrder graph first = (.ok order, second) ∧
      Instantiates graph order exec := by
  obtain ⟨_, ordered, planned, allocated, cloned, built⟩ := mgGraphInstantiate_run success
  have sorted := instantiateOrder_ok wf ordered
  have covers := mgGraphPlanWorkspace_ok planned
  obtain ⟨backend, rfl, some⟩ := mgWorkspaceAllocate_ok covers.backend allocated
  refine ⟨_, _, _, ordered, sorted, ?_, covers.inside, some, mgIcbPlanBuild_ok built, rfl⟩
  refine Triple.foldEach_ok (fun done nodes => List.Forall₂ (ClonedFrom graph _) done nodes)
    ?_ .nil cloned
  intro done index nodes next state after member held ran
  obtain ⟨src, offset, present, rfl, placed⟩ := instantiateStep_ok ran
  refine List.rel_append held (.cons ⟨src, offset, present, rfl, fun needs => ?_⟩ .nil)
  obtain ⟨record, listed, sameId, sameOffset⟩ := mgWorkspacePlanOffsetForNode_ok (placed needs)
  obtain ⟨node, planned, made⟩ := covers.node_of_record listed
  obtain ⟨other, _, present'⟩ := MgGraph.mem_listed.mp planned
  -- two nodes with one id are one node, so the record found by id is this node's
  have same := wf.index_of_id present present' (sameId.symm.trans made.1)
  rw [← same, present] at present'
  cases present'
  exact ⟨record, listed, made, sameOffset⟩

theorem mgGraphInstantiate_ok {address : GraphPtr} {graph : MgGraph} {device : Option MgDevice}
    {exec : MgGraphExec} {env reached : Env} (wf : GraphWf address graph)
    (success : mgGraphInstantiate graph device env = (.ok exec, reached)) :
    ∃ order, Instantiates graph order exec := by
  obtain ⟨order, _, _, _, made⟩ := mgGraphInstantiate_ordered wf success
  exact ⟨order, made⟩

/-! ### Failures -/

/-- Any answer but an internal error or a use of freed memory. -/
def Fault.Ordinary : Fault → Prop
  | .error reported => reported.status ≠ .internalError
  | .undefined => False

theorem Total.fails {body : Run Unit} (total : Total body) :
    FailsOnly (fun _ => False) body := by
  intro env reason reached stopped
  obtain ⟨other, ran⟩ := total env
  rw [ran] at stopped
  cases stopped

theorem ordinary_of_ne {status : MgStatus} {stage : MgErrorStage} {nodeId : MgNodeId}
    {message : String} (other : status ≠ .internalError) :
    (mgSetError status stage nodeId message).Ordinary := other

theorem oom_ordinary (stage : MgErrorStage) : (mgSetOom stage).Ordinary :=
  ordinary_of_ne (by decide)

theorem mgWorkspaceDescValidate_fails {desc : Option MgWorkspaceDesc} {stage : MgErrorStage}
    (reason : Fault) (failed : mgWorkspaceDescValidate desc stage = .error reason) :
    reason.Ordinary := by
  cases desc with
  | none =>
      cases failed
      exact ordinary_of_ne (by decide)
  | some desc =>
      simp only [mgWorkspaceDescValidate, descValidate, except_bind_error, demand_error] at failed
      rcases failed with (⟨_, rfl⟩ | ⟨_, _, ⟨_, rfl⟩ | ⟨_, _, _, rfl⟩⟩) | ⟨_, _, absurdity⟩
      · exact ordinary_of_ne (by decide)
      · exact ordinary_of_ne (by decide)
      · exact ordinary_of_ne (by decide)
      · cases absurdity

section Failures

variable {address : GraphPtr} {graph : MgGraph}

theorem topologicalOrder_fails (wf : GraphWf address graph) :
    FailsOnly Fault.Ordinary (mgGraphTopologicalOrder graph) := by
  unfold mgGraphTopologicalOrder
  split
  · exact .pure _
  · refine .bind (attemptBoth_fails (oom_ordinary _)) fun _ _ _ _ => .ofExcept ?_
    intro reason failed
    rcases topologicalOrder_cases wf.inside with ⟨_, order, same, _⟩ | ⟨_, same⟩ <;>
      rw [same] at failed <;> cases failed
    exact ordinary_of_ne (by decide)

theorem mgGraphValidate_fails (wf : GraphWf address graph) :
    FailsOnly Fault.Ordinary (mgGraphValidate graph) := by
  unfold mgGraphValidate
  split
  · exact .pure _
  · exact .bind (attemptOr_fails (oom_ordinary _)) fun _ _ _ _ =>
      .bind (topologicalOrder_fails wf) fun _ _ _ _ => .pure _

theorem instantiateOrder_fails (wf : GraphWf address graph) :
    FailsOnly Fault.Ordinary (instantiateOrder graph) := by
  unfold instantiateOrder
  split
  · exact .pure _
  · exact .bind (attemptOr_fails (oom_ordinary _)) fun _ _ _ _ => topologicalOrder_fails wf

theorem planWorkspaceNode_fails (plan : MgWorkspacePlan) (node : MgNode) :
    FailsOnly Fault.Ordinary (planWorkspaceNode plan node) := by
  unfold planWorkspaceNode
  split
  · exact .pure _
  · refine cleaning_fails (.bind (.ofExcept mgWorkspaceDescValidate_fails) fun _ _ _ _ => ?_)
      (mgArenaRelease_total _).fails
    exact .bind (.orFail fun _ => ordinary_of_ne (by decide)) fun _ _ _ _ =>
      .bind (.require (ordinary_of_ne (by decide))) fun _ _ _ _ =>
      .bind (.require (ordinary_of_ne (by decide))) fun _ _ _ _ =>
      .bind (attemptOr_fails (oom_ordinary _)) fun _ _ _ _ => .pure _

theorem mgGraphPlanWorkspace_fails {order : List Nat}
    (inside : ∀ index ∈ order, index < graph.nodes.length) :
    FailsOnly Fault.Ordinary (mgGraphPlanWorkspace graph order) := by
  refine .bind (.foldEach _ fun plan index member => ?_) fun plan _ _ _ => ?_
  · refine .bind (.orFail fun missing => ?_) fun node _ _ _ => planWorkspaceNode_fails plan node
    exact absurd (inside index member) (by simpa using missing)
  · split
    · exact .pure _
    · exact cleaning_fails (.bind (.require (ordinary_of_ne (by decide))) fun _ _ _ _ =>
        .bind (.require (ordinary_of_ne (by decide))) fun _ _ _ _ =>
        .bind (.update _) fun _ _ _ _ => .pure _) (mgArenaRelease_total _).fails

theorem newBufferWithLength_fails {expected : Fault → Prop} (device : Nat) (length : UInt64)
    (hasContents : Bool) : FailsOnly expected (newBufferWithLength device length hasContents) := by
  refine .bind attempt_fails fun granted _ _ _ => ?_
  cases granted with
  | true => exact .bind (fun _ _ _ stopped => by cases stopped) fun _ _ _ _ => .pure _
  | false => exact .pure _

theorem mgWorkspaceAllocate_fails (plan : MgWorkspacePlan) (device : Nat) :
    FailsOnly Fault.Ordinary (mgWorkspaceAllocate plan device) := by
  unfold mgWorkspaceAllocate
  split
  · exact .pure _
  · exact .bind (newBufferWithLength_fails _ _ _) fun _ _ _ _ =>
      .bind (.orFail fun _ => ordinary_of_ne (by decide)) fun _ _ _ _ => .pure _

/-- The reason a function that fills an out parameter fails for. -/
def OrdinaryFailure {α : Type} (failure : Fault × α) : Prop := failure.1.Ordinary

theorem wrapped_fails {α β : Type} {wrap : α → β} {body : Fills α α}
    (inner : FailsOnly OrdinaryFailure body) : FailsOnly OrdinaryFailure (wrapped wrap body) :=
  .bind (.catching inner fun _ known => .fail known) fun _ _ _ _ => .pure _

theorem copyBindings_fails (stage : MgErrorStage) (buffers : List MgBufferBinding) :
    FailsOnly Fault.Ordinary (copyBindings stage buffers) :=
  .bind (.whenever (attemptOr_fails (oom_ordinary _))) fun _ _ _ _ =>
    .forEach fun _ _ => .update _

theorem copyScalarsAndResources_fails (stage : MgErrorStage) (scalars : List MgScalarBinding)
    (resources : List MgDispatchResourceDesc) :
    FailsOnly Fault.Ordinary (copyScalarsAndResources stage scalars resources) :=
  .bind (.whenever (attemptOr_fails (oom_ordinary _))) fun _ _ _ _ =>
    .bind (.forEach fun _ _ => attemptOr_fails (oom_ordinary _)) fun _ _ _ _ =>
    .whenever (attemptOr_fails (oom_ordinary _))

theorem mgCloneDispatch_fails (id : MgNodeId) (flags : MgPatchFlags) (node : MgDispatchNode) :
    FailsOnly OrdinaryFailure (mgCloneDispatch id flags node) :=
  .bind (attemptBoth_fails (oom_ordinary _)) fun _ _ _ _ =>
    .bind (holding_fails (copyBindings_fails _ _)) fun _ _ _ _ =>
    .bind (holding_fails (copyScalarsAndResources_fails _ _ _)) fun _ _ _ _ => .pure _

theorem mgCloneMpsgraphTensors_fails (src : List MgMpsgraphTensor) :
    FailsOnly Fault.Ordinary (mgCloneMpsgraphTensors src) := by
  unfold mgCloneMpsgraphTensors
  split
  · exact .pure _
  · refine .bind (attemptOr_fails (oom_ordinary _)) fun _ _ _ _ => .foldEach _ fun tensors _ _ => ?_
    refine .bind (.whenever (cleaning_fails (attemptOr_fails (oom_ordinary _)) ?_))
      fun _ _ _ _ => .bind (.update _) fun _ _ _ _ => .pure _
    exact (tensorsClear_total tensors).fails

theorem mgCloneMpsgraph_fails (id : MgNodeId) (node : MgMpsgraphNode) :
    FailsOnly OrdinaryFailure (mgCloneMpsgraph id node) :=
  .bind (attemptOr_fails (oom_ordinary _)) fun _ _ _ _ =>
    .bind (holding_fails (mgCloneMpsgraphTensors_fails _)) fun _ _ _ _ =>
    .bind (holding_fails (mgCloneMpsgraphTensors_fails _)) fun _ _ _ _ => .pure _

theorem holdingRetain_fails {held : MgExecNode} (address : Nat) :
    FailsOnly OrdinaryFailure (holding (retainObject address) held) := holding_fails (.update _)

/-- A valid node clones unless memory runs out, when the plan knows its offset. -/
theorem mgCloneExecNode_fails {src : MgNode} {plan : MgWorkspacePlan} (valid : src.as.Valid)
    (planned : needsWorkspace src = true →
      ∃ offset, mgWorkspacePlanOffsetForNode plan src.id = .ok offset) :
    FailsOnly OrdinaryFailure (mgCloneExecNode src plan) := by
  obtain ⟨graph, id, index, flags, as⟩ := src
  cases as with
  | dispatch node => exact wrapped_fails (mgCloneDispatch_fails _ _ _)
  | copy node =>
      exact .bind (holdingRetain_fails _) fun _ _ _ _ =>
        .bind (holdingRetain_fails _) fun _ _ _ _ => .pure _
  | fill node => exact .bind (holdingRetain_fails _) fun _ _ _ _ => .pure _
  | eventWait node => exact .bind (holdingRetain_fails _) fun _ _ _ _ => .pure _
  | eventSignal node => exact .bind (holdingRetain_fails _) fun _ _ _ _ => .pure _
  | barrier => exact .pure _
  | mpsgraph node => exact wrapped_fails (mgCloneMpsgraph_fails _ _)
  | workspace node =>
      obtain ⟨offset, found⟩ := planned rfl
      refine .bind (holding_fails (.ofExcept ?_)) fun _ _ _ _ => .pure _
      simp [found]
  | workspaceFill node =>
      obtain ⟨offset, found⟩ := planned rfl
      refine .bind (holdingRetain_fails _) fun _ _ _ _ =>
        .bind (holding_fails (.ofExcept ?_)) fun _ _ _ _ => .pure _
      simp [found]
  | unknown kind => exact valid.elim

theorem loadNode_fails (node : MgExecNode) : FailsOnly Fault.Ordinary (loadNode node) := by
  have other : ∀ stage nodeId message,
      (mgSetError .backendError stage nodeId message).Ordinary :=
    fun _ _ _ => ordinary_of_ne (by decide)
  cases node with
  | mpsgraph mpsgraph =>
      refine .bind ?_ fun _ _ _ _ => .pure _
      exact .bind (fun _ _ _ stopped => by cases stopped) fun _ _ _ _ =>
        .bind (.require (ordinary_of_ne (by decide))) fun _ _ _ _ =>
        .bind (attemptOr_fails (other _ _ _)) fun _ _ _ _ =>
        .bind (attemptOr_fails (oom_ordinary _)) fun _ _ _ _ =>
        .bind (attemptOr_fails (other _ _ _)) fun _ _ _ _ => .pure _
  | dispatch dispatch =>
      refine .bind ?_ fun _ _ _ _ => .pure _
      exact .bind (attemptOr_fails (other _ _ _)) fun _ _ _ _ =>
        .bind (attemptOr_fails (other _ _ _)) fun _ _ _ _ =>
        .bind (attemptOr_fails (other _ _ _)) fun _ _ _ _ => .pure _
  | copy | fill | eventWait | eventSignal | barrier | workspace | workspaceFill | unknown =>
      exact .pure _

theorem mgIcbPlanBuild_fails {expected : Fault → Prop} (nodes : List MgExecNode) :
    FailsOnly expected (mgIcbPlanBuild nodes) := by
  refine .bind attempt_fails fun available _ _ _ => ?_
  split
  · exact .pure _
  · split
    · exact .pure _
    · split
      · dsimp only
        split
        · exact .pure _
        · refine .bind attempt_fails fun granted _ _ _ => ?_
          cases granted <;> exact .pure _
      · exact .pure _
  · exact .pure _

theorem mgGraphInstantiate_fails (wf : GraphWf address graph) (device : Option MgDevice) :
    FailsOnly Fault.Ordinary (mgGraphInstantiate graph device) := by
  refine .bind (.orFail fun _ => ordinary_of_ne (by decide)) fun metalDevice _ _ _ =>
    .bind (mgGraphValidate_fails wf) fun _ _ _ _ =>
    .bind (instantiateOrder_fails wf) fun order _ _ ordered =>
    .bind (attemptOr_fails (oom_ordinary _)) fun _ _ _ _ => ?_
  have sorted := instantiateOrder_ok wf ordered
  have inside : ∀ index ∈ order, index < graph.nodes.length := fun index member =>
    List.mem_range.mp (sorted.perm.mem_iff.mp member)
  refine .bind (mgGraphPlanWorkspace_fails inside) fun plan _ _ planned =>
    .bind (.whenever (cleaning_fails (attemptOr_fails (oom_ordinary _))
      (mgArenaRelease_total _).fails)) fun _ _ _ _ =>
    .bind (cleaning_fails (mgWorkspaceAllocate_fails _ _) (mgGraphExecDestroy_total _).fails)
      fun workspace _ _ allocated => ?_
  refine .bind (.foldEach _ fun nodes index member => ?_) fun _ _ _ _ =>
    .bind (mgIcbPlanBuild_fails _) fun _ _ _ _ => .pure _
  refine .bind (.orFail fun missing => ?_) fun src _ _ found => ?_
  · exact absurd (inside index member) (by simpa using missing)
  · have present := (nodeAt_ok.mp found).1
    have covers := mgGraphPlanWorkspace_ok planned
    obtain ⟨backend, rfl, _⟩ := mgWorkspaceAllocate_ok covers.backend (cleaning_ok.mp allocated)
    have cloned : FailsOnly OrdinaryFailure (mgCloneExecNode src { plan with
        backendImpl := backend }) :=
      mgCloneExecNode_fails (wf.nodes index src present).valid fun needs =>
        covers.offset_of_mem (MgGraph.mem_listed.mpr ⟨index, member, present⟩) needs
    refine .bind (.catching (.bind cloned fun node _ _ _ => holding_fails (loadNode_fails node))
      fun failure known => ?_) fun _ _ _ _ => .pure _
    exact .bind (fun state reason reached stopped =>
      ((mgGraphExecDestroy_total _).fails state reason reached stopped).elim) fun _ _ _ _ =>
      .fail known

end Failures

end MetalGraph
