import MetalGraph.Base.Updates
import MetalGraph.Proofs.Meaning
import MetalGraph.Proofs.NodeLookup
import MetalGraph.Proofs.RecordedEdits
import MetalGraph.Proofs.WorkspaceLayout

set_option autoImplicit false

/- Instantiation and patches leave in a plan what the chronicle writes down for them. -/
namespace MetalGraph

open Eff

/-- A node of a plan without its pipeline, its executable and its workspace offset. -/
def MgExecNode.item : MgExecNode → PlanItem
  | .dispatch node => ⟨node.id, node.patchFlags, .dispatch node.toMgDispatchNode⟩
  | .copy node => ⟨node.id, node.patchFlags, .copy node.toMgCopyNode⟩
  | .fill node => ⟨node.id, node.patchFlags, .fill node.toMgFillNode⟩
  | .eventWait node => ⟨node.id, node.patchFlags, .eventWait node.toMgEventNode⟩
  | .eventSignal node => ⟨node.id, node.patchFlags, .eventSignal node.toMgEventNode⟩
  | .mpsgraph node => ⟨node.id, 0, .mpsgraph node.toMgMpsgraphNode⟩
  | .barrier id => ⟨id, 0, .barrier⟩
  | .workspace node => ⟨node.id, 0, .workspace node.toMgWorkspaceNode⟩
  | .workspaceFill node => ⟨node.id, 0, .workspaceFill node.toMgWorkspaceFillNode⟩
  | .unknown kind => ⟨mgNodeIdInvalid, 0, .unknown kind⟩

def MgGraphExec.record (exec : MgGraphExec) : PlanRecord :=
  ⟨exec.nodes.map MgExecNode.item, exec.icb.enabledFlags⟩

@[simp] theorem item_contents (node : MgExecNode) : node.item.contents = node.contents := by
  cases node <;> rfl

theorem item_id_of_patchId {node : MgExecNode} {nodeId : MgNodeId}
    (named : node.patchId = some nodeId) : node.item.id = nodeId := by
  cases node <;> first | exact Option.some.inj named | cases named

/-! ### Patches -/

def MgGraphExec.ItemsDistinct (exec : MgGraphExec) : Prop :=
  (exec.nodes.map fun node => node.item.id).Nodup

section Patches

variable {exec : MgGraphExec} {env : Env} {nodeId : MgNodeId} {position : Nat}

/-- Storing a node revises the one item that a patch names. -/
theorem Target.record {old fresh : MgExecNode} (distinct : exec.ItemsDistinct)
    (target : Target exec nodeId position old) {change : MgNodeAs → MgNodeAs}
    (changed : fresh.item = { old.item with contents := change old.item.contents }) :
    (exec.stored position fresh).record = exec.record.revise nodeId change := by
  obtain ⟨present, named⟩ := mgPatchFindNode_ok target.found
  have revised := map_set_of_distinct PlanItem.id distinct present
    (fun item => { item with contents := change item.contents }) changed
  rw [item_id_of_patchId named] at revised
  exact congrArg (PlanRecord.mk · exec.icb.enabledFlags) revised

theorem bindingAt_replaceF {buffers : List MgBufferBinding} {index : UInt32}
    {binding : MgBufferBinding} {slot : Nat} (buffer : MgBuffer) (offset : UInt64)
    (bound : bindingAt buffers index = some (binding, slot)) :
    buffers.set slot { binding with buffer := buffer, offset := offset } =
      buffers.replaceF (MgBufferBinding.rebound index buffer offset) := by
  have agree : ∀ binding : MgBufferBinding, binding.rebound index buffer offset =
      if (binding.index == index) = true then
        some { binding with buffer := buffer, offset := offset } else none := by
    simp [MgBufferBinding.rebound]
  exact set_find_eq_replaceF agree bound

theorem scalarAt_replaceF {scalars : List MgScalarBinding} {index : UInt32}
    {scalar : MgScalarBinding} {slot : Nat} (data : List UInt8)
    (bound : scalarAt scalars index = some (scalar, slot)) :
    scalars.set slot { scalar with data := data } =
      scalars.replaceF (MgScalarBinding.rebound index data) := by
  have agree : ∀ scalar : MgScalarBinding, scalar.rebound index data =
      if (scalar.index == index) = true then some { scalar with data := data } else none := by
    simp [MgScalarBinding.rebound]
  exact set_find_eq_replaceF agree bound

theorem PatchStep.record {patch : ExecPatch} {reached : Focus MgGraphExec}
    (step : PatchStep exec env patch reached) (distinct : exec.ItemsDistinct) :
    reached.object.record = exec.record.patched patch := by
  cases step with
  | dispatchGrid target valid within => exact target.target.record distinct rfl
  | dispatchBuffer target fits bound valid device =>
      apply target.target.record distinct
      rw [bindingAt_replaceF _ _ bound]
      rfl
  | dispatchScalar target filled bound same =>
      apply target.target.record distinct
      rw [scalarAt_replaceF _ bound]
      rfl
  | copyNode target given buffers ranges =>
      have stored := copy_stored given
      simp only [PlanRecord.patched, Option.bind_some, stored, Option.elim_some]
      exact target.record distinct rfl
  | fillNode target given buffers ranges values =>
      have stored := fill_stored given
      simp only [PlanRecord.patched, Option.bind_some, stored, Option.elim_some]
      exact target.record distinct rfl
  | @eventValue nodeId position node event value target given declared =>
      cases node <;> cases given <;> exact target.record distinct rfl
  | optimizationFlags idle known => rfl

end Patches

/-! ### Instantiation -/

/-- Nodes of the kinds without patch flags never get any. -/
theorem instantiated_item {address : GraphPtr} {index : Nat} {src : MgNode}
    (wf : NodeWf address index src) (offset : UInt64) :
    (src.instantiated offset).item = ⟨UInt64.ofNat (index + 1), src.patchFlags, src.as⟩ := by
  have allowed := wf.allowed
  have valid := wf.valid
  have named := wf.id
  obtain ⟨graph, id, place, flags, as⟩ := src
  subst named
  cases as with
  | dispatch | copy | fill | eventWait | eventSignal => rfl
  | barrier | mpsgraph | workspace | workspaceFill =>
      have none : flags = 0 := by
        simpa [mgPatchFlagsAllowed, MgNode.kind] using allowed
      subst none
      rfl
  | unknown kind => exact valid.elim

section Instantiated

variable {address : GraphPtr} {graph : MgGraph} {order : List Nat} {exec : MgGraphExec}

theorem record_item {index : Nat} {src : MgNode} (present : graph.nodes[index]? = some src) :
    graph.record.item index = some ⟨UInt64.ofNat (index + 1), src.patchFlags, src.as⟩ := by
  simp [GraphRecord.item, MgGraph.record, present, MgNode.record]

theorem Instantiates.items (wf : GraphWf address graph) (made : Instantiates graph order exec) :
    exec.nodes.map MgExecNode.item = order.filterMap graph.record.item := by
  have all : ∀ {order nodes}, List.Forall₂ (ClonedFrom graph exec.workspace) order nodes →
      nodes.map MgExecNode.item = order.filterMap graph.record.item := by
    intro order nodes cloned
    induction cloned with
    | nil => rfl
    | cons head _ ih =>
        obtain ⟨src, offset, present, rfl, _⟩ := head
        rw [List.map_cons, List.filterMap_cons, record_item present, ih,
          instantiated_item (wf.nodes _ src present)]
  exact all made.nodes

theorem Instantiates.itemsDistinct (wf : GraphWf address graph)
    (made : Instantiates graph order exec) : exec.ItemsDistinct := by
  have ids : ∀ {order nodes}, List.Forall₂ (ClonedFrom graph exec.workspace) order nodes →
      (nodes.map fun node => node.item.id) = (graph.listed order).map MgNode.id := by
    intro order nodes cloned
    induction cloned with
    | nil => rfl
    | cons head _ ih =>
        obtain ⟨src, offset, present, rfl, _⟩ := head
        have known := wf.nodes _ src present
        simp [MgGraph.listed, present, instantiated_item known, known.id] at ih ⊢
        exact ih
  unfold MgGraphExec.ItemsDistinct
  rw [ids made.nodes]
  exact ((listed_perm made.sorted.perm).map MgNode.id).nodup_iff.mpr wf.ids_distinct

theorem instantiateOrder_topological {env reached : Env} (wf : GraphWf address graph)
    (success : instantiateOrder graph env = (.ok order, reached)) :
    topologicalOrder graph.nodes.length graph.edges = .ok order := by
  unfold instantiateOrder at success
  split at success
  · rename_i empty
    simp only [pure_ok] at success
    obtain ⟨rfl, _⟩ := success
    have isolated : graph.edges = [] := by
      apply List.eq_nil_iff_forall_not_mem.mpr
      intro edge member
      have inside := wf.inside edge member
      rw [empty] at inside
      exact absurd inside.1 (Nat.not_lt_zero _)
    rw [empty, isolated]
    rfl
  · rename_i some
    simp only [bind_ok, mgGraphTopologicalOrder] at success
    obtain ⟨_, _, _, success⟩ := success
    rw [if_neg (by simpa using some)] at success
    simp only [bind_ok, ofExcept_ok] at success
    obtain ⟨_, _, _, sorted, _⟩ := success
    exact sorted

theorem mgIcbPlanBuild_enabled {nodes : List MgExecNode} {icb : MgIcbPlan} {env reached : Env}
    (success : mgIcbPlanBuild nodes env = (.ok icb, reached)) :
    icb.enabledFlags = mgOptimizationIcb := by
  simp only [mgIcbPlanBuild, bind_ok] at success
  obtain ⟨available, middle, _, built⟩ := success
  split at built
  · simp only [pure_ok] at built
    exact built.1 ▸ rfl
  · split at built
    · simp only [pure_ok] at built
      exact built.1 ▸ rfl
    · split at built
      · split at built
        · simp only [pure_ok] at built
          exact built.1 ▸ rfl
        · simp only [recordIcbPlan, bind_ok] at built
          obtain ⟨granted, _, _, recorded⟩ := built
          split at recorded <;> simp only [pure_ok] at recorded <;> exact recorded.1 ▸ rfl
      · simp only [pure_ok] at built
        exact built.1 ▸ rfl
  · simp only [pure_ok] at built
    exact built.1 ▸ rfl

theorem mgGraphInstantiate_record {device : Option MgDevice} {env reached : Env}
    (wf : GraphWf address graph)
    (success : mgGraphInstantiate graph device env = (.ok exec, reached)) :
    exec.record = graph.record.instantiated := by
  obtain ⟨order, _, _, ordered, made⟩ := mgGraphInstantiate_ordered wf success
  have sorted := instantiateOrder_topological wf ordered
  have enabled : exec.icb.enabledFlags = mgOptimizationIcb := by
    cases mgGraphInstantiate_run success with
    | intro _ _ _ _ _ built => exact mgIcbPlanBuild_enabled built
  have listed : topologicalOrder graph.record.nodes.length graph.record.edges = .ok order := by
    simpa [MgGraph.record] using sorted
  unfold MgGraphExec.record GraphRecord.instantiated
  rw [made.items wf, enabled, listed]

/-- A new plan runs on the device that it was asked for, and nobody waits for it. -/
theorem mgGraphInstantiate_state {device : Option MgDevice} {env reached : Env}
    (success : mgGraphInstantiate graph device env = (.ok exec, reached)) :
    exec.state = ⟨MetalGraph.deviceImpl device, 0⟩ := by
  obtain ⟨given, _, _, _, _, _⟩ := mgGraphInstantiate_run success
  rw [given]
  rfl

end Instantiated

theorem PatchStep.state {exec : MgGraphExec} {env : Env} {patch : ExecPatch}
    {reached : Focus MgGraphExec} (step : PatchStep exec env patch reached) :
    reached.object.state = exec.state := by
  unfold MgGraphExec.state
  rw [step.frozen.device, step.frozen.inFlight]

theorem Launches.state {exec object : MgGraphExec} {more : UInt32}
    (launches : Launches exec more object) :
    object.state = { exec.state with inFlightCount := exec.state.inFlightCount + more } := by
  obtain ⟨icb, _, rfl⟩ := launches
  rfl

theorem finishLaunch_state (exec : MgGraphExec) :
    exec.finishLaunch.state = exec.state.finished := by
  unfold MgGraphExec.finishLaunch PlanState.finished MgGraphExec.state
  split <;> rfl

theorem NodeFrozen.item_id {before after : MgExecNode} (frozen : NodeFrozen before after) :
    after.item.id = before.item.id := by
  cases frozen with
  | same => rfl
  | dispatch kept => exact kept.id
  | copy kept => exact kept.id
  | fill kept => exact kept.id
  | eventWait kept => exact kept.id
  | eventSignal kept => exact kept.id

theorem Reachable.itemsDistinct {system : System} (reachable : Reachable system)
    {address : ExecPtr} {exec : MgGraphExec} (live : system.world.execs.get? address = some exec) :
    exec.ItemsDistinct := by
  refine reachable.exec_invariant (fun _ _ _ _ wf made => made.itemsDistinct wf) ?_ ?_ address
    exec live
  · intro before _ _ reached distinct step
    have ids : (reached.object.nodes.map fun node => node.item.id) =
        before.nodes.map fun node => node.item.id := by
      have frozen := step.frozen.nodes
      generalize reached.object.nodes = nodes at frozen
      generalize before.nodes = nodes' at frozen
      induction frozen with
      | nil => rfl
      | cons head _ ih => rw [List.map_cons, List.map_cons, head.item_id, ih]
    unfold MgGraphExec.ItemsDistinct
    rw [ids]
    exact distinct
  · intro _ _ distinct same
    unfold MgGraphExec.ItemsDistinct
    rw [same.nodes]
    exact distinct

end MetalGraph
