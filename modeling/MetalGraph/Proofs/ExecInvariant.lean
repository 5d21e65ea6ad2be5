import MetalGraph.Proofs.DirectLaunch
import MetalGraph.Proofs.ExecChanges

set_option autoImplicit false

/- Plans that calls can build and patch: every node keeps the checks of its
descriptor, and workspace nodes stay inside the allocated workspace. -/
namespace MetalGraph

open Eff

/-- A workspace range of the plan. -/
def PlannedInside (workspace : MgWorkspacePlan) (offset size : UInt64) : Prop :=
  offset.toNat + size.toNat ≤ workspace.totalSize.toNat

def NodeFits (workspace : MgWorkspacePlan) : MgExecNode → Prop
  | .dispatch node => DispatchValid node.toMgDispatchNode
  | .copy node => CopyValid node.toMgCopyNode
  | .fill node => FillValid node.toMgFillNode
  | .eventWait _ | .eventSignal _ | .barrier _ => True
  | .mpsgraph node => MpsgraphValid node.toMgMpsgraphNode ∧ node.executableImpl.isSome = true
  | .workspace node =>
    WorkspaceValid node.size node.alignment ∧ PlannedInside workspace node.offset node.size
  | .workspaceFill node =>
    WorkspaceFillValid node.toMgWorkspaceFillNode ∧ PlannedInside workspace node.offset node.size
  | .unknown _ => False

structure ExecWf (exec : MgGraphExec) : Prop where
  nodes : ∀ node ∈ exec.nodes, NodeFits exec.workspace node
  allocated : exec.workspace.totalSize ≠ 0 → ∃ buffer,
    exec.workspace.backendImpl = some buffer ∧ buffer.length = exec.workspace.totalSize
  icb : IcbRecords exec.icb exec.nodes

/-! ### Instantiated plans -/

theorem instantiated_fits {src : MgNode} {offset : UInt64} {workspace : MgWorkspacePlan}
    (valid : src.as.Valid) (inside : ∀ record ∈ workspace.records,
      record.offset.toNat + record.size.toNat ≤ workspace.totalSize.toNat)
    (placed : needsWorkspace src = true →
      ∃ record ∈ workspace.records, RecordFor src record ∧ record.offset = offset) :
    NodeFits workspace (src.instantiated offset) := by
  obtain ⟨graph, id, index, flags, as⟩ := src
  cases as with
  | dispatch node => exact valid
  | copy node => exact valid
  | fill node => exact valid
  | eventWait node => trivial
  | eventSignal node => trivial
  | barrier => trivial
  | mpsgraph node => exact ⟨valid, rfl⟩
  | workspace node =>
      obtain ⟨record, listed, ⟨_, need⟩, rfl⟩ := placed rfl
      obtain ⟨size, _⟩ := Prod.mk.inj (Option.some.inj need)
      refine ⟨valid, ?_⟩
      have fits := inside record listed
      rw [← size] at fits
      exact fits
  | workspaceFill node =>
      obtain ⟨record, listed, ⟨_, need⟩, rfl⟩ := placed rfl
      obtain ⟨size, _⟩ := Prod.mk.inj (Option.some.inj need)
      refine ⟨valid, ?_⟩
      have fits := inside record listed
      rw [← size] at fits
      exact fits
  | unknown kind => exact valid.elim

theorem Instantiates.execWf {address : GraphPtr} {graph : MgGraph} {order : List Nat}
    {exec : MgGraphExec} (wf : GraphWf address graph) (made : Instantiates graph order exec) :
    ExecWf exec where
  nodes := by
    intro node member
    obtain ⟨index, _, src, offset, present, rfl, placed⟩ := mem_of_forall₂' made.nodes member
    exact instantiated_fits (wf.nodes index src present).valid made.inside placed
  allocated := made.allocated
  icb := made.icb

/-! ### Patched plans -/

/-- A stored node keeps its place in a plan that has no recorded commands. -/
theorem ExecWf.stored {exec : MgGraphExec} (wf : ExecWf exec) {position : Nat} {node : MgExecNode}
    (fits : NodeFits exec.workspace node) (unrecorded : exec.icb.backendImpl = none) :
    ExecWf (exec.stored position node) where
  nodes := by
    intro other member
    rcases List.mem_or_eq_of_mem_set member with old | new
    · exact wf.nodes other old
    · exact new ▸ fits
  allocated := wf.allocated
  icb := icbRecords_of_none _ unrecorded

theorem Target.present {exec : MgGraphExec} {nodeId : MgNodeId} {position : Nat}
    {node : MgExecNode} (target : Target exec nodeId position node) :
    exec.nodes[position]? = some node := (mgPatchFindNode_ok target.found).1

/-- Only a plan of one dispatch without patchable fields has recorded commands. -/
theorem ExecWf.unrecorded {exec : MgGraphExec} (wf : ExecWf exec) {position : Nat}
    {node : MgExecNode} (present : exec.nodes[position]? = some node)
    (patchable : ∀ dispatch, node = .dispatch dispatch → dispatch.patchFlags ≠ 0) :
    exec.icb.backendImpl = none := by
  rcases recorded : exec.icb.backendImpl with _ | icb
  · rfl
  · obtain ⟨dispatch, only, eligible, _⟩ := wf.icb icb recorded
    rw [only] at present
    cases List.mem_singleton.mp (List.mem_of_getElem? present)
    have fixed := patchable dispatch rfl
    unfold mgIcbDispatchEligible at eligible
    rw [if_pos (.inl fixed)] at eligible
    cases eligible

theorem patchFlags_ne_zero {flags required : MgPatchFlags} (declared : flags &&& required ≠ 0) :
    flags ≠ 0 := by
  rintro rfl
  simp at declared

theorem DispatchTarget.unrecorded {exec : MgGraphExec} (wf : ExecWf exec) {nodeId : MgNodeId}
    {flag : MgPatchFlags} {position : Nat} {dispatch : MgExecDispatch}
    (target : DispatchTarget exec nodeId flag position dispatch) :
    exec.icb.backendImpl = none := by
  apply wf.unrecorded target.target.present
  rintro _ ⟨⟩
  exact patchFlags_ne_zero target.declared

theorem DispatchTarget.valid {exec : MgGraphExec} (wf : ExecWf exec) {nodeId : MgNodeId}
    {flag : MgPatchFlags} {position : Nat} {dispatch : MgExecDispatch}
    (target : DispatchTarget exec nodeId flag position dispatch) :
    DispatchValid dispatch.toMgDispatchNode :=
  wf.nodes _ (List.mem_of_getElem? target.target.present)

section Bindings

variable {buffers : List MgBufferBinding} {index : UInt32} {binding : MgBufferBinding} {slot : Nat}

theorem bindingAt_eq (found : bindingAt buffers index = some (binding, slot)) :
    buffers[slot]? = some binding ∧ binding.index = index := by
  simpa using find?_zipIdx_some (fun binding : MgBufferBinding => binding.index == index) found

/-- Rebinding keeps the indices. -/
theorem rebound_indices (found : bindingAt buffers index = some (binding, slot))
    (buffer : MgBuffer) (offset : UInt64) :
    (buffers.set slot { binding with buffer := buffer, offset := offset }).map
      MgBufferBinding.index = buffers.map MgBufferBinding.index :=
  map_set_of_eq (bindingAt_eq found).1 rfl

theorem rebound_pairwise
    (distinct : buffers.Pairwise fun first second => first.index ≠ second.index)
    (found : bindingAt buffers index = some (binding, slot)) (buffer : MgBuffer)
    (offset : UInt64) :
    (buffers.set slot { binding with buffer := buffer, offset := offset }).Pairwise
      fun first second => first.index ≠ second.index := by
  have same := List.pairwise_map.mpr distinct
  rw [← rebound_indices found buffer offset] at same
  exact List.pairwise_map.mp same

theorem rebindable_ok {dispatch : MgDispatchNode} {nodeId : MgNodeId} {buffer : MgBuffer}
    {offset : UInt64} {result : Unit}
    (valid : rebindable dispatch nodeId index buffer offset = .ok result) :
    dispatch.hasRange index = true ∧
      mgDispatchResourceOffsetAligned (dispatch.resourceFor index) offset = true ∧
      mgDispatchResourceRangeValid (dispatch.resourceFor index) buffer.length offset = true := by
  simpa only [rebindable, except_bind_ok, demand_ok, exists_const] using valid

theorem DispatchValid.rebound {dispatch : MgExecDispatch} {nodeId : MgNodeId} {buffer : MgBuffer}
    {offset : UInt64} {result : Unit} (valid : DispatchValid dispatch.toMgDispatchNode)
    (found : bindingAt dispatch.buffers index = some (binding, slot))
    (fits : offset ≤ buffer.length)
    (checked : rebindable dispatch.toMgDispatchNode nodeId index buffer offset = .ok result) :
    DispatchValid { dispatch with
      buffers := dispatch.buffers.set slot { binding with buffer := buffer, offset := offset }
      }.toMgDispatchNode := by
  obtain ⟨_, named⟩ := bindingAt_eq found
  obtain ⟨_, aligned, inside⟩ := rebindable_ok checked
  have only : ∀ resource ∈ dispatch.resources, resource.index = index →
      dispatch.toMgDispatchNode.resourceFor index = some resource := by
    rintro resource member rfl
    exact find_resource_eq valid.distinct member
  refine ⟨?_, rebound_pairwise valid.bindings found buffer offset, valid.scalars, ?_,
    valid.distinct, valid.normal, valid.grid, valid.threads⟩
  · intro other member
    rcases List.mem_or_eq_of_mem_set member with old | new
    · exact valid.offsets other old
    · exact new ▸ fits
  · intro resource member
    have earlier := valid.resources resource member
    refine ⟨earlier.size, earlier.access, earlier.alignment, ?_, ?_, ?_⟩
    · obtain ⟨other, listed, same⟩ := earlier.bound
      have still : resource.index ∈ (dispatch.buffers.set slot
          { binding with buffer := buffer, offset := offset }).map MgBufferBinding.index := by
        rw [rebound_indices found, ← same]
        exact List.mem_map_of_mem listed
      obtain ⟨stored, listed', same'⟩ := List.mem_map.mp still
      exact ⟨stored, listed', same'⟩
    · intro other listed same
      rcases List.mem_or_eq_of_mem_set listed with old | rfl
      · exact earlier.aligned other old same
      · rw [only resource member (same.symm.trans named)] at aligned
        exact aligned
    · intro other listed same
      rcases List.mem_or_eq_of_mem_set listed with old | rfl
      · exact earlier.inside other old same
      · rw [only resource member (same.symm.trans named)] at inside
        exact inside

end Bindings

theorem scalarAt_eq {scalars : List MgScalarBinding} {index : UInt32} {scalar : MgScalarBinding}
    {slot : Nat} (found : scalarAt scalars index = some (scalar, slot)) :
    scalars[slot]? = some scalar ∧ scalar.index = index := by
  simpa using find?_zipIdx_some (fun scalar : MgScalarBinding => scalar.index == index) found

/-- Every successful patch keeps a plan well formed. -/
theorem ExecWf.patched {exec : MgGraphExec} {env : Env} {patch : ExecPatch}
    {reached : Focus MgGraphExec} (wf : ExecWf exec) (step : PatchStep exec env patch reached) :
    ExecWf reached.object := by
  cases step with
  | dispatchGrid target valid within =>
      have old := target.valid wf
      exact wf.stored { old with grid := ⟨valid, within⟩ } (target.unrecorded wf)
  | dispatchBuffer target fits bound valid =>
      exact wf.stored ((target.valid wf).rebound bound fits valid) (target.unrecorded wf)
  | dispatchScalar target filled bound same =>
      have old := target.valid wf
      refine wf.stored { old with scalars := ?_ } (target.unrecorded wf)
      intro scalar member
      rcases List.mem_or_eq_of_mem_set member with earlier | new
      · exact old.scalars scalar earlier
      · exact new ▸ filled
  | copyNode target given buffers ranges =>
      exact wf.stored (copyContents_valid given) (wf.unrecorded target.present (by simp))
  | fillNode target given buffers ranges values =>
      exact wf.stored (fillContents_valid given) (wf.unrecorded target.present (by simp))
  | @eventValue nodeId position node event value target given declared =>
      have fits := wf.nodes _ (List.mem_of_getElem? target.present)
      have present := target.present
      cases node with
      | eventWait node | eventSignal node =>
          exact wf.stored trivial (wf.unrecorded present (by simp))
      | _ => cases given
  | optimizationFlags idle known =>
      exact ⟨wf.nodes, wf.allocated, wf.icb⟩

/-! ### Reachable plans -/

theorem ExecWf.sameWork {before after : MgGraphExec} (wf : ExecWf before)
    (same : SameWork before after) : ExecWf after where
  nodes := by
    rw [same.nodes, same.workspace]
    exact wf.nodes
  allocated := by
    rw [same.workspace]
    exact wf.allocated
  icb := by
    intro recorded present
    rw [same.icb.backendImpl] at present
    rw [same.nodes, same.icb.commandCount]
    exact wf.icb recorded present

def World.EveryExec (property : MgGraphExec → Prop) (world : World) : Prop :=
  ∀ address exec, world.execs.get? address = some exec → property exec

/-- A property that instantiation establishes, patches keep and launches do not touch
holds of every plan. -/
theorem Reachable.exec_property {property : MgGraphExec → Prop}
    (made : ∀ address graph device env exec reached, GraphWf address graph →
      mgGraphInstantiate graph device env = (.ok exec, reached) → property exec)
    (patched : ∀ exec env patch reached, property exec → PatchStep exec env patch reached →
      property reached.object)
    (kept : ∀ before after, property before → SameWork before after → property after)
    {system : System} (reachable : Reachable system) : system.world.EveryExec property := by
  refine reachable.invariant (fun _ _ _ address exec live => ?_) ?_
  · simp [System.initial, World.initial] at live
  · intro system call result world earlier holds permitted step address after live
    cases step.execOrigin live with
    | kept live => exact holds address after live
    | made present ran fresh => exact made _ _ _ _ _ _ (earlier.graphsWf _ _ present) ran
    | patched named present ran same =>
        rcases ExecPatch.run_cases ran with ⟨_, stepped⟩ | unchanged
        · exact same ▸ patched _ _ _ _ (holds address _ present) stepped
        · rw [same, unchanged]
          exact holds address _ present
    | launched _ present ran same =>
        exact kept _ _ (holds address _ present) (same ▸ mgGraphLaunch_sameWork ran)
    | finished _ _ _ present same =>
        exact kept _ _ (holds address _ present) (same ▸ finishLaunch_sameWork _)

/-- The same for what instantiation makes of the graph. -/
theorem Reachable.exec_invariant {property : MgGraphExec → Prop}
    (made : ∀ address graph order exec, GraphWf address graph → Instantiates graph order exec →
      property exec)
    (patched : ∀ exec env patch reached, property exec → PatchStep exec env patch reached →
      property reached.object)
    (kept : ∀ before after, property before → SameWork before after → property after)
    {system : System} (reachable : Reachable system) : system.world.EveryExec property := by
  refine reachable.exec_property ?_ patched kept
  intro address graph device env exec reached wf ran
  obtain ⟨order, instantiates⟩ := mgGraphInstantiate_ok wf ran
  exact made _ _ _ _ wf instantiates

theorem Reachable.execWf {system : System} (reachable : Reachable system) {address : ExecPtr}
    {exec : MgGraphExec} (live : system.world.execs.get? address = some exec) : ExecWf exec :=
  reachable.exec_invariant (fun _ _ _ _ wf made => made.execWf wf)
    (fun _ _ _ _ wf step => wf.patched step) (fun _ _ wf same => wf.sameWork same) address exec live

end MetalGraph
