import MetalGraph.Base.Pairing
import MetalGraph.Model.System
import MetalGraph.Proofs.MachineRules

set_option autoImplicit false

/- What an edit can do to a graph, and what the checks of a descriptor establish
about the node that is stored. -/
namespace MetalGraph

open Eff

/-! ### Valid nodes -/

/-- What the checks establish about a resource and the bindings of its node. -/
structure ResourceValid (bindings : List MgBufferBinding) (resource : MgDispatchResourceDesc) :
    Prop where
  size : ¬ resource.size < sizeofMgDispatchResourceDesc
  access : mgResourceAccessValid resource.access = true
  alignment : mgAlignmentValid (effectiveAlignment resource.alignment) = true
  bound : ∃ binding ∈ bindings, binding.index = resource.index
  aligned : ∀ binding ∈ bindings, binding.index = resource.index →
    mgDispatchResourceOffsetAligned (some resource) binding.offset = true
  inside : ∀ binding ∈ bindings, binding.index = resource.index →
    mgDispatchResourceRangeValid (some resource) binding.buffer.length binding.offset = true

structure DispatchValid (dispatch : MgDispatchNode) : Prop where
  offsets : ∀ binding ∈ dispatch.buffers, binding.offset ≤ binding.buffer.length
  bindings : dispatch.buffers.Pairwise fun first second => first.index ≠ second.index
  scalars : ∀ scalar ∈ dispatch.scalars, scalar.data ≠ []
  resources : ∀ resource ∈ dispatch.resources, ResourceValid dispatch.buffers resource
  distinct : dispatch.resources.Pairwise fun first second => first.index ≠ second.index
  normal : ∀ resource ∈ dispatch.resources, resource.alignment ≠ 0
  grid : mgDimsValid dispatch.gridSize = true ∧
    gridWithin dispatch.gridSize dispatch.maxGridSize = true
  threads : mgDimsValid dispatch.threadsPerThreadgroup = true

structure CopyValid (copy : MgCopyNode) : Prop where
  src : mgRangeValid copy.src.length copy.srcOffset copy.byteCount = true
  dst : mgRangeValid copy.dst.length copy.dstOffset copy.byteCount = true

def FillValid (fill : MgFillNode) : Prop :=
  mgRangeValid fill.dst.length fill.dstOffset fill.byteCount = true

structure TensorValid (tensor : MgMpsgraphTensor) : Prop where
  base : tensor.buffer.byteOffset = 0
  offset : tensor.byteOffset = 0
  size : ∃ required, mgShapeByteCount tensor.shape (mgTensorDataTypeSize tensor.dataType) =
    some required ∧ required ≤ tensor.byteCount
  inside : mgRangeValid tensor.buffer.length tensor.byteOffset tensor.byteCount = true

structure MpsgraphValid (mpsgraph : MgMpsgraphNode) : Prop where
  feeds : ∀ tensor ∈ mpsgraph.feeds, TensorValid tensor
  targets : ∀ tensor ∈ mpsgraph.targets, TensorValid tensor

structure WorkspaceValid (size alignment : UInt64) : Prop where
  nonzero : size ≠ 0
  alignment : mgAlignmentValid alignment = true

structure WorkspaceFillValid (fill : MgWorkspaceFillNode) : Prop where
  workspace : WorkspaceValid fill.size fill.alignment
  dst : mgRangeValid fill.dst.length fill.dstOffset fill.size = true

def MgNodeAs.Valid : MgNodeAs → Prop
  | .dispatch node => DispatchValid node
  | .copy node => CopyValid node
  | .fill node => FillValid node
  | .eventWait _ | .eventSignal _ | .barrier => True
  | .mpsgraph node => MpsgraphValid node
  | .workspace node => WorkspaceValid node.size node.alignment
  | .workspaceFill node => WorkspaceFillValid node
  | .unknown _ => False

/-! ### Descriptor checks -/

theorem descValidate_ok {what : String} {sizeofDesc size byteCount alignment : UInt64}
    {stage : MgErrorStage} {result : Unit}
    (success : descValidate what sizeofDesc size byteCount alignment stage = .ok result) :
    WorkspaceValid byteCount alignment := by
  simp only [descValidate, except_bind_ok, demand_ok, exists_const] at success
  exact ⟨success.2.1, success.2.2⟩

theorem mgWorkspaceDescValidate_ok {desc : Option MgWorkspaceDesc} {stage : MgErrorStage}
    {valid : MgWorkspaceDesc} (success : mgWorkspaceDescValidate desc stage = .ok valid) :
    desc = some valid ∧ WorkspaceValid valid.byteCount valid.alignment := by
  cases desc with
  | none => cases success
  | some desc =>
      simp only [mgWorkspaceDescValidate, except_bind_ok, except_pure_ok] at success
      obtain ⟨result, checked, rfl⟩ := success
      exact ⟨rfl, descValidate_ok checked⟩

theorem copyContents_valid {desc : MgCopyDesc} {copy : MgCopyNode}
    (success : copyContents mgRangeValid desc = some copy) : CopyValid copy := by
  unfold copyContents at success
  split at success
  · split at success
    · cases success
    · rename_i accepted
      cases success
      simp only [not_or, Bool.not_eq_false] at accepted
      exact ⟨accepted.2.1, accepted.2.2⟩
  · cases success

theorem fillContents_valid {desc : MgFillDesc} {fill : MgFillNode}
    (success : fillContents mgRangeValid desc = some fill) : FillValid fill := by
  unfold fillContents at success
  split at success
  · split at success
    · cases success
    · rename_i accepted
      cases success
      simp only [not_or, Bool.not_eq_false] at accepted
      exact accepted.2
  · cases success

/-- The descriptor entry a stored binding comes from. -/
def MgBufferBinding.described (binding : MgBufferBinding) : MgBufferBindingDesc :=
  ⟨binding.index, some binding.buffer, binding.offset⟩

theorem validateBindings_ok {descs : List MgBufferBindingDesc} {bindings : List MgBufferBinding}
    (success : validateBindings descs = .ok bindings) :
    descs = bindings.map MgBufferBinding.described ∧
      (∀ binding ∈ bindings, binding.offset ≤ binding.buffer.length) ∧
      bindings.Pairwise fun first second => first.index ≠ second.index := by
  induction descs generalizing bindings with
  | nil =>
      cases success
      exact ⟨rfl, by simp, .nil⟩
  | cons desc rest ih =>
      simp only [validateBindings] at success
      split at success
      · cases success
      · rename_i buffer given
        simp only [except_bind_ok, demand_ok, except_pure_ok, exists_const] at success
        obtain ⟨fits, fresh, others, tail, rfl⟩ := success
        obtain ⟨stored, offsets, distinct⟩ := ih tail
        refine ⟨?_, List.forall_mem_cons.mpr ⟨UInt64.not_lt.mp fits, offsets⟩,
          List.pairwise_cons.mpr ⟨fun binding later => ?_, distinct⟩⟩
        · rw [List.map_cons, ← stored, MgBufferBinding.described, ← given]
        · exact fresh binding.described (stored ▸ List.mem_map_of_mem later)

def MgScalarBinding.described (scalar : MgScalarBinding) : MgScalarBindingDesc :=
  ⟨scalar.index, some scalar.data⟩

theorem validateScalars_ok {descs : List MgScalarBindingDesc} {scalars : List MgScalarBinding}
    (success : validateScalars descs = .ok scalars) :
    descs = scalars.map MgScalarBinding.described ∧ ∀ scalar ∈ scalars, scalar.data ≠ [] := by
  induction descs generalizing scalars with
  | nil =>
      cases success
      exact ⟨rfl, by simp⟩
  | cons desc rest ih =>
      simp only [validateScalars] at success
      split at success
      · cases success
      · rename_i data given
        simp only [except_bind_ok, demand_ok, except_pure_ok, exists_const] at success
        obtain ⟨filled, others, tail, rfl⟩ := success
        obtain ⟨stored, valid⟩ := ih tail
        refine ⟨?_, List.forall_mem_cons.mpr ⟨filled, valid⟩⟩
        rw [List.map_cons, ← stored, MgScalarBinding.described, ← given]

theorem find_binding_eq {bindings : List MgBufferBinding}
    (distinct : bindings.Pairwise fun first second => first.index ≠ second.index)
    {binding : MgBufferBinding} (member : binding ∈ bindings) :
    mgDispatchFindBufferBinding bindings binding.index = some binding :=
  find?_of_distinct distinct member

theorem find_resource_eq {resources : List MgDispatchResourceDesc}
    (distinct : resources.Pairwise fun first second => first.index ≠ second.index)
    {resource : MgDispatchResourceDesc} (member : resource ∈ resources) :
    mgDispatchFindResource resources resource.index = some resource :=
  find?_of_distinct distinct member

theorem mgValidateDispatchResourceDesc_ok {resource : MgDispatchResourceDesc}
    {bindings : List MgBufferBinding} {result : Unit}
    (distinct : bindings.Pairwise fun first second => first.index ≠ second.index)
    (success : mgValidateDispatchResourceDesc resource bindings = .ok result) :
    ResourceValid bindings resource := by
  simp only [mgValidateDispatchResourceDesc, except_bind_ok, demand_ok, exists_const, not_or,
    Bool.not_eq_false] at success
  obtain ⟨⟨size, access, aligned⟩, found⟩ := success
  split at found
  · cases found
  · rename_i binding lookup
    have same : binding.index = resource.index := by
      simpa using List.find?_some lookup
    have only : ∀ other ∈ bindings, other.index = resource.index → other = binding := by
      intro other member equal
      have located := find_binding_eq distinct member
      rw [equal, lookup] at located
      exact (Option.some.inj located).symm
    rw [demand_ok] at found
    exact
      { size := size
        access := access
        alignment := aligned
        bound := ⟨binding, List.mem_of_find?_eq_some lookup, same⟩
        aligned := fun other member equal => only other member equal ▸ found.1
        inside := fun other member equal => only other member equal ▸ found.2 }

theorem validateResourceList_ok {resources : List MgDispatchResourceDesc}
    {bindings : List MgBufferBinding} {result : Unit}
    (distinct : bindings.Pairwise fun first second => first.index ≠ second.index)
    (success : validateResourceList bindings resources = .ok result) :
    (∀ resource ∈ resources, ResourceValid bindings resource) ∧
      resources.Pairwise fun first second => first.index ≠ second.index := by
  induction resources with
  | nil => exact ⟨by simp, .nil⟩
  | cons resource rest ih =>
      simp only [validateResourceList, except_bind_ok, demand_ok, exists_const] at success
      obtain ⟨fresh, _, checked, tail⟩ := success
      obtain ⟨valid, others⟩ := ih tail
      exact ⟨List.forall_mem_cons.mpr ⟨mgValidateDispatchResourceDesc_ok distinct checked, valid⟩,
        List.pairwise_cons.mpr ⟨fresh, others⟩⟩

@[simp] theorem effectiveAlignment_idem (alignment : UInt64) :
    effectiveAlignment (effectiveAlignment alignment) = effectiveAlignment alignment := by
  unfold effectiveAlignment
  split <;> simp_all

theorem effectiveAlignment_ne_zero (alignment : UInt64) : effectiveAlignment alignment ≠ 0 := by
  unfold effectiveAlignment
  split <;> simp_all

/-- Replacing an alignment of zero by one changes no check. -/
theorem ResourceValid.effective {bindings : List MgBufferBinding}
    {resource : MgDispatchResourceDesc} (valid : ResourceValid bindings resource) :
    ResourceValid bindings
      { resource with alignment := effectiveAlignment resource.alignment } where
  size := valid.size
  access := valid.access
  alignment := by simpa using valid.alignment
  bound := valid.bound
  aligned := by
    intro binding member same
    simpa [mgDispatchResourceOffsetAligned] using valid.aligned binding member same
  inside := fun binding member same => valid.inside binding member same

theorem dispatchContents_valid {desc : MgDispatchDesc} {source : DispatchSource}
    {dispatch : MgDispatchNode} (dims : mgDimsValid desc.gridSize = true)
    (threads : mgDimsValid desc.threadsPerThreadgroup = true)
    (success : dispatchContents desc source = .ok dispatch) :
    DispatchValid dispatch ∧
      source.buffers = dispatch.buffers.map MgBufferBinding.described := by
  simp only [dispatchContents, except_bind_ok, demand_ok, except_pure_ok, exists_const] at success
  obtain ⟨buffers, bindings, scalars, scalarsGiven, resources, checked, grid, rfl⟩ := success
  obtain ⟨described, offsets, distinct⟩ := validateBindings_ok bindings
  have listed : validateResourceList buffers resources = .ok () := by
    unfold mgValidateDispatchResources at checked
    split at checked
    · cases checked
    · simp only [except_bind_ok, except_pure_ok] at checked
      obtain ⟨_, listed, rfl⟩ := checked
      exact listed
  obtain ⟨valid, unlike⟩ := validateResourceList_ok distinct listed
  have filled : ∀ scalar ∈ scalars, scalar.data ≠ [] := by
    unfold dispatchScalars at scalarsGiven
    split at scalarsGiven
    · cases scalarsGiven
    · exact (validateScalars_ok scalarsGiven).2
  refine ⟨⟨offsets, distinct, filled, ?_, ?_, ?_, ⟨dims, grid⟩, threads⟩, described⟩
  · intro resource member
    obtain ⟨original, given, rfl⟩ := List.mem_map.mp member
    exact (valid original given).effective
  · exact List.pairwise_map.mpr unlike
  · intro resource member
    obtain ⟨original, _, rfl⟩ := List.mem_map.mp member
    exact effectiveAlignment_ne_zero original.alignment

theorem dispatchPointers_ok {desc : MgDispatchDesc} {source : DispatchSource}
    (success : dispatchPointers desc = .ok source) :
    mgDimsValid desc.gridSize = true ∧ mgDimsValid desc.threadsPerThreadgroup = true ∧
      desc.buffers = some source.buffers := by
  simp only [dispatchPointers, except_bind_ok, demand_ok, exists_const] at success
  obtain ⟨_, rest⟩ := success
  split at rest
  · simp only [except_bind_ok, demand_ok, exists_const] at rest
    obtain ⟨dims, given⟩ := rest
    split at given
    · cases given
    · rename_i buffers present
      cases given
      exact ⟨dims.1, dims.2, present⟩
  · cases rest

/-! ### Tensors -/

/-- What the checks establish about a tensor before it is copied. -/
structure TensorSourceValid (tensor : TensorSource) : Prop where
  base : tensor.buffer.byteOffset = 0
  offset : tensor.byteOffset = 0
  fits : ∀ required,
    mgShapeByteCount tensor.shape (mgTensorDataTypeSize tensor.dataType) = some required →
      required ≤ tensor.effectiveByteCount required ∧
      mgRangeValid tensor.buffer.length tensor.byteOffset (tensor.effectiveByteCount required)
        = true

theorem mgValidateMpsgraphTensorDesc_ok {desc : MgMpsgraphTensorDesc} {tensor : TensorSource}
    (success : mgValidateMpsgraphTensorDesc desc = .ok tensor) :
    TensorSourceValid tensor ∧ desc.buffer = some tensor.buffer := by
  simp only [mgValidateMpsgraphTensorDesc, except_bind_ok] at success
  obtain ⟨source, pointers, checked⟩ := success
  have given : desc.buffer = some source.buffer := by
    unfold tensorPointers at pointers
    split at pointers
    · rename_i buffer shape present _
      simp only [except_bind_ok, except_pure_ok] at pointers
      obtain ⟨_, _, rfl⟩ := pointers
      exact present
    · cases pointers
  split at checked
  · cases checked
  · rename_i required size
    simp only [except_bind_ok, demand_ok, except_pure_ok, exists_const, not_or, not_not,
      Bool.not_eq_false] at checked
    obtain ⟨⟨enough, offset, base, inside⟩, rfl⟩ := checked
    refine ⟨⟨base, offset, fun other same => ?_⟩, given⟩
    rw [size] at same
    cases same
    exact ⟨UInt64.not_lt.mp enough, inside⟩

theorem validateTensors_ok {descs : List MgMpsgraphTensorDesc} {sources : List TensorSource}
    (success : validateTensors descs = .ok sources) :
    (∀ tensor ∈ sources, TensorSourceValid tensor) ∧
      descs.map MgMpsgraphTensorDesc.buffer = sources.map fun tensor => some tensor.buffer := by
  induction descs generalizing sources with
  | nil =>
      cases success
      exact ⟨by simp, rfl⟩
  | cons desc rest ih =>
      simp only [validateTensors, except_bind_ok, except_pure_ok] at success
      obtain ⟨source, checked, others, tail, rfl⟩ := success
      obtain ⟨valid, given⟩ := mgValidateMpsgraphTensorDesc_ok checked
      obtain ⟨validTail, givenTail⟩ := ih tail
      exact ⟨List.forall_mem_cons.mpr ⟨valid, validTail⟩, by
        rw [List.map_cons, List.map_cons, given, givenTail]⟩

theorem mgMpsgraphTensorClone_ok {source : TensorSource} {tensor : MgMpsgraphTensor}
    {env reached : Env} (valid : TensorSourceValid source)
    (success : mgMpsgraphTensorClone source env = (.ok tensor, reached)) :
    TensorValid tensor ∧ tensor.buffer = source.buffer := by
  simp only [mgMpsgraphTensorClone, bind_ok, orFail_ok, pure_ok] at success
  obtain ⟨required, _, ⟨size, _⟩, _, _, _, _, _, _, rfl, _⟩ := success
  have fits := valid.fits required size
  exact ⟨⟨valid.base, valid.offset, ⟨required, size, fits.1⟩, fits.2⟩, rfl⟩

theorem mgMpsgraphTensorArrayClone_ok {sources : List TensorSource}
    {tensors : List MgMpsgraphTensor} {env reached : Env}
    (valid : ∀ source ∈ sources, TensorSourceValid source)
    (success : mgMpsgraphTensorArrayClone sources env = (.ok tensors, reached)) :
    (∀ tensor ∈ tensors, TensorValid tensor) ∧
      tensors.map MgMpsgraphTensor.buffer = sources.map TensorSource.buffer := by
  cases sources with
  | nil =>
      cases success
      exact ⟨by simp, rfl⟩
  | cons first rest =>
      simp only [mgMpsgraphTensorArrayClone, bind_ok] at success
      obtain ⟨_, middle, _, looped⟩ := success
      let invariant (done : List TensorSource) (tensors : List MgMpsgraphTensor) :=
        (∀ tensor ∈ tensors, TensorValid tensor) ∧
          tensors.map MgMpsgraphTensor.buffer = done.map TensorSource.buffer
      refine Triple.foldEach_ok invariant ?_ (by simp [invariant]) looped
      intro done source tensors next state after member held ran
      simp only [bind_ok, cleaning_ok, pure_ok] at ran
      obtain ⟨cloned, _, copied, rfl, _⟩ := ran
      obtain ⟨good, buffer⟩ := mgMpsgraphTensorClone_ok (valid source member) copied
      refine ⟨?_, by rw [List.map_append, List.map_append, held.2, List.map_singleton,
        List.map_singleton, buffer]⟩
      intro tensor listed
      rcases List.mem_append.mp listed with old | new
      · exact held.1 tensor old
      · exact List.mem_singleton.mp new ▸ good

/-! ### Changes of a graph -/

/-- The same graph, except that its arrays may have grown. -/
structure SameContents (before after : MgGraph) : Prop where
  address : after.address = before.address
  nodes : after.nodes = before.nodes
  edges : after.edges = before.edges
  arena : after.arena = before.arena

theorem SameContents.refl (graph : MgGraph) : SameContents graph graph := ⟨rfl, rfl, rfl, rfl⟩

/-- Everything one edit can do to a graph, with the checks that guard it. The caller
passes `known` node pointers. -/
inductive GraphChange (known : NodePtr → Prop) (before : MgGraph) : MgGraph → Prop
  | same {after : MgGraph} (contents : SameContents before after) : GraphChange known before after
  | addNode {after : MgGraph} (as : MgNodeAs) (valid : as.Valid)
      (room : (before.nodes.length + 1) * sizeofMgNode ≤ 2 ^ 64)
      (address : after.address = before.address)
      (nodes : after.nodes = before.nodes ++ [newNode before as])
      (edges : after.edges = before.edges) : GraphChange known before after
  | addEdge {after : MgGraph} (first second : NodePtr) (given : known first ∧ known second)
      (here : first.graph = before.address ∧ second.graph = before.address)
      (distinct : first ≠ second) (fresh : ⟨first.index, second.index⟩ ∉ before.edges)
      (address : after.address = before.address) (nodes : after.nodes = before.nodes)
      (edges : after.edges = before.edges ++ [⟨first.index, second.index⟩]) :
      GraphChange known before after
  | setArena (arena : MgArena) : GraphChange known before { before with arena := some arena }
  | setFlags (index : Nat) (node : MgNode) (flags : MgPatchFlags)
      (present : before.nodes[index]? = some node)
      (allowed : mgPatchFlagsAllowed node.kind flags = true)
      (ranges : node.lacksRanges flags = false) :
      GraphChange known before
        { before with nodes := before.nodes.set index { node with patchFlags := flags } }

theorem GraphChange.nodup {known : NodePtr → Prop} {before after : MgGraph}
    (change : GraphChange known before after) (distinct : before.edges.Nodup) :
    after.edges.Nodup := by
  cases change with
  | same contents => exact contents.edges ▸ distinct
  | addNode as valid room address nodes edges => exact edges ▸ distinct
  | addEdge first second given here unequal fresh address nodes edges =>
      rw [edges]
      exact List.nodup_append'.mpr
        ⟨distinct, List.nodup_singleton _, List.disjoint_singleton.mpr fresh⟩
  | setArena | setFlags => exact distinct

section Changes

variable {α : Type} {known : NodePtr → Prop} {graph : MgGraph}

/-- A body that leaves the graph changed in one of the possible ways, or fails and leaves
its contents alone. -/
def Changes (known : NodePtr → Prop) (graph : MgGraph) (body : Over MgGraph α) : Prop :=
  Triple (Has (· = graph)) body (fun _ => Has (GraphChange known graph))
    (fun _ => Has (SameContents graph))

theorem eq_stops : ∀ focus, Has (· = graph) focus → Has (SameContents graph) focus :=
  fun _ same => (show _ = graph from same) ▸ SameContents.refl graph

theorem unchanged : ∀ focus, Has (· = graph) focus → Has (GraphChange known graph) focus :=
  fun focus same => .same (eq_stops focus same)

/-- The state in which a node may be committed. -/
def Allocated (graph object : MgGraph) : Prop :=
  SameContents graph object ∧ (graph.nodes.length + 1) * sizeofMgNode ≤ 2 ^ 64

theorem allocated_stops : ∀ focus, Has (Allocated graph) focus →
    Has (SameContents graph) focus := fun _ allocated => allocated.1

theorem mgGraphReserveNodes_spec (required : Nat) :
    Triple (Has (· = graph)) (mgGraphReserveNodes required) (fun _ => Has (SameContents graph))
      (fun _ => Has (SameContents graph)) := by
  apply self_rule
  intro object same
  split
  · exact Triple.pure fun focus holds => by
      unfold Has at *
      rw [holds, same]
      exact .refl graph
  · refine onEnv_rule (fun _ focus holds => eq_stops focus (holds.trans same))
      fun _ _ _ _ => ?_
    apply modifySelf_last
    intro focus holds
    change SameContents graph _
    rw [show focus.object = graph from holds.trans same]
    exact ⟨rfl, rfl, rfl, rfl⟩

theorem mgGraphAllocNode_spec :
    Triple (Has (· = graph)) mgGraphAllocNode (fun _ => Has (Allocated graph))
      (fun _ => Has (SameContents graph)) := by
  apply self_rule
  intro object same
  subst same
  apply Triple.bind (mgGraphReserveNodes_spec _)
  intro _
  apply onEnv_rule (fun _ _ contents => contents)
  intro _ _ _ _
  refine Triple.of_outcomes ?_ ?_
  · intro focus _ reached holds success
    obtain ⟨room, rfl⟩ := require_ok.mp success
    exact ⟨holds, room⟩
  · intro focus _ reached holds stopped
    obtain ⟨_, _, rfl⟩ := require_error.mp stopped
    exact holds

theorem mgGraphCommitNode_spec {as : MgNodeAs} (valid : as.Valid) :
    Triple (Has (Allocated graph)) (mgGraphCommitNode as) (fun _ => Has (GraphChange known graph))
      (fun _ => Has (SameContents graph)) := by
  apply self_rule
  intro object allocated focus holds
  obtain ⟨⟨address, nodes, edges, _⟩, room⟩ := allocated
  refine .addNode as valid room ?_ ?_ ?_
  · exact (congrArg MgGraph.address holds).trans address
  · change focus.object.nodes ++ [newNode object as] = _
    rw [show focus.object = object from holds, nodes]
    simp only [newNode, address, nodes]
  · exact (congrArg MgGraph.edges holds).trans edges

/-- The steps of an addition that come after the node is allocated. -/
theorem commit_rule {body : Run α} {as : α → MgNodeAs}
    (valid : ∀ value env reached, body env = (.ok value, reached) → (as value).Valid) :
    Triple (Has (Allocated graph)) (onEnv body >>= fun value => mgGraphCommitNode (as value))
      (fun _ => Has (GraphChange known graph)) (fun _ => Has (SameContents graph)) :=
  onEnv_rule (fun _ => allocated_stops) fun value env reached ran =>
    mgGraphCommitNode_spec (valid value env reached ran)

theorem alloc_rule {next : Unit → Over MgGraph α}
    (rest : Triple (Has (Allocated graph)) (next ()) (fun _ => Has (GraphChange known graph))
      (fun _ => Has (SameContents graph))) :
    Changes known graph (mgGraphAllocNode >>= next) :=
  Triple.bind mgGraphAllocNode_spec fun _ => rest

end Changes

section Edits

variable {known : NodePtr → Prop}

theorem mgGraphAddDispatchNode_changes (desc : Option MgDispatchDesc) (graph : MgGraph) :
    Changes known graph (mgGraphAddDispatchNode desc) := by
  refine Triple.orFail (fun desc _ => ?_) fun _ => eq_stops
  refine Triple.ofExcept (fun source pointers => ?_) fun _ _ => eq_stops
  obtain ⟨dims, threads, _⟩ := dispatchPointers_ok pointers
  apply alloc_rule
  apply onEnv_rule (fun _ => allocated_stops)
  intro _ _ _ _
  refine Triple.ofExcept (fun dispatch contents => ?_) fun _ _ => allocated_stops
  apply onEnv_rule (fun _ => allocated_stops)
  intro _ _ _ _
  exact commit_rule fun _ _ _ _ => (dispatchContents_valid dims threads contents).1

theorem mgGraphAddCopyNode_changes (desc : Option MgCopyDesc) (graph : MgGraph) :
    Changes known graph (mgGraphAddCopyNode desc) := by
  refine Triple.orFail (fun desc _ => ?_) fun _ => eq_stops
  refine Triple.orFail (fun copy contents => ?_) fun _ => eq_stops
  apply alloc_rule
  apply onEnv_rule (fun _ => allocated_stops)
  intro _ _ _ _
  exact commit_rule fun _ _ _ _ => copyContents_valid contents

theorem mgGraphAddFillNode_changes (desc : Option MgFillDesc) (graph : MgGraph) :
    Changes known graph (mgGraphAddFillNode desc) := by
  refine Triple.orFail (fun desc _ => ?_) fun _ => eq_stops
  refine Triple.orFail (fun fill contents => ?_) fun _ => eq_stops
  exact alloc_rule (commit_rule fun _ _ _ _ => fillContents_valid contents)

theorem mgGraphAddEventNode_changes (kind : MgEventNode → MgNodeAs)
    (valid : ∀ node, (kind node).Valid) (event : Option MgEvent) (value : UInt64)
    (graph : MgGraph) : Changes known graph (mgGraphAddEventNode kind event value) := by
  refine Triple.orFail (fun event _ => ?_) fun _ => eq_stops
  exact alloc_rule (commit_rule fun _ _ _ _ => valid _)

theorem mgGraphAddMPSGraphNode_changes (desc : Option MgMpsgraphDesc) (graph : MgGraph) :
    Changes known graph (mgGraphAddMPSGraphNode desc) := by
  refine Triple.orFail (fun desc _ => ?_) fun _ => eq_stops
  refine Triple.orFail (fun source _ => ?_) fun _ => eq_stops
  refine Triple.ofExcept (fun feeds checked => ?_) fun _ _ => eq_stops
  refine Triple.ofExcept (fun targets checked' => ?_) fun _ _ => eq_stops
  apply alloc_rule
  apply onEnv_rule (fun _ => allocated_stops)
  intro _ _ _ _
  apply onEnv_rule (fun _ => allocated_stops)
  intro stored _ _ cloned
  apply commit_rule
  intro stored' _ _ cloned'
  exact
    { feeds := (mgMpsgraphTensorArrayClone_ok (validateTensors_ok checked).1 cloned).1
      targets := (mgMpsgraphTensorArrayClone_ok (validateTensors_ok checked').1
        (cleaning_ok.mp cloned')).1 }

theorem mgInternalGraphAddWorkspaceNode_changes (desc : Option MgWorkspaceDesc)
    (graph : MgGraph) : Changes known graph (mgInternalGraphAddWorkspaceNode desc) := by
  refine Triple.ofExcept (fun desc checked => ?_) fun _ _ => eq_stops
  exact alloc_rule (mgGraphCommitNode_spec (mgWorkspaceDescValidate_ok checked).2)

theorem mgInternalGraphAddWorkspaceFillNode_changes (desc : Option MgWorkspaceDesc)
    (value : UInt8) (dst : Option MgBuffer) (dstOffset : UInt64) (graph : MgGraph) :
    Changes known graph (mgInternalGraphAddWorkspaceFillNode desc value dst dstOffset) := by
  refine Triple.orFail (fun dst _ => ?_) fun _ => eq_stops
  refine Triple.ofExcept (fun desc checked => ?_) fun _ _ => eq_stops
  refine Triple.require (fun inside => ?_) fun _ => eq_stops
  exact alloc_rule (commit_rule fun _ _ _ _ =>
    ⟨(mgWorkspaceDescValidate_ok checked).2, inside⟩)

theorem mgGraphSetArena_changes (arena : Option MgArena) (graph : MgGraph) :
    Changes known graph (mgGraphSetArena arena) := by
  refine Triple.orFail (fun arena _ => ?_) fun _ => eq_stops
  apply self_rule
  intro object same
  subst same
  split
  · exact Triple.pure unchanged
  · apply onEnv_rule (fun _ => eq_stops)
    intro _ _ _ _
    apply onEnv_rule (fun _ => eq_stops)
    intro _ _ _ _
    apply modifySelf_last
    intro focus same
    rw [show focus.object = object from same]
    exact .setArena arena

theorem mgGraphSetNodePatchFlags_changes (pointer : Option NodePtr) (flags : MgPatchFlags)
    (graph : MgGraph) : Changes known graph (mgGraphSetNodePatchFlags pointer flags) := by
  apply self_rule
  intro object same
  subst same
  refine Triple.orFail (fun pointer _ => ?_) fun _ => eq_stops
  refine Triple.require (fun _ => ?_) fun _ => eq_stops
  refine Triple.orFail (fun node present => ?_) fun _ => eq_stops
  refine Triple.require (fun allowed => ?_) fun _ => eq_stops
  refine Triple.require (fun ranges => ?_) fun _ => eq_stops
  apply modifySelf_last
  intro focus same
  rw [show focus.object = object from same]
  exact .setFlags pointer.index node flags present allowed ranges

theorem mgGraphReserveEdges_spec (graph : MgGraph) (required : Nat) :
    Triple (Has (· = graph)) (mgGraphReserveEdges required) (fun _ => Has (SameContents graph))
      (fun _ => Has (SameContents graph)) := by
  apply self_rule
  intro object same
  subst same
  split
  · exact Triple.pure fun focus holds => by
      unfold Has at *
      rw [holds]
      exact .refl object
  · apply onEnv_rule (fun _ => eq_stops)
    intro _ _ _ _
    apply modifySelf_last
    intro focus holds
    change SameContents object _
    rw [show focus.object = object from holds]
    exact ⟨rfl, rfl, rfl, rfl⟩

theorem mgGraphAddDependency_changes (before after : Option NodePtr) (graph : MgGraph)
    (given : ∀ pointer, before = some pointer ∨ after = some pointer → known pointer) :
    Changes known graph (mgGraphAddDependency before after) := by
  apply self_rule
  intro object same
  subst same
  refine Triple.orFail (fun first firstGiven => ?_) fun _ => eq_stops
  refine Triple.orFail (fun second secondGiven => ?_) fun _ => eq_stops
  refine Triple.require (fun here => ?_) fun _ => eq_stops
  refine Triple.require (fun distinct => ?_) fun _ => eq_stops
  split
  · exact Triple.pure unchanged
  · rename_i absent
    have fresh : ⟨first.index, second.index⟩ ∉ object.edges := by
      intro member
      exact absent (List.any_eq_true.mpr ⟨_, member, by simp⟩)
    apply Triple.bind (mgGraphReserveEdges_spec object _)
    intro _
    apply modifySelf_last
    intro focus contents
    refine .addEdge first second
      ⟨given first (.inl firstGiven), given second (.inr secondGiven)⟩ here distinct fresh
      contents.address contents.nodes ?_
    exact congrArg (· ++ [_]) contents.edges

theorem NodeAddition.run_changes (addition : NodeAddition) (graph : MgGraph) :
    Changes known graph addition.run := by
  cases addition with
  | dispatch desc => exact mgGraphAddDispatchNode_changes desc graph
  | copy desc => exact mgGraphAddCopyNode_changes desc graph
  | fill desc => exact mgGraphAddFillNode_changes desc graph
  | eventWait event value =>
      exact mgGraphAddEventNode_changes .eventWait (fun _ => trivial) event value graph
  | eventSignal event value =>
      exact mgGraphAddEventNode_changes .eventSignal (fun _ => trivial) event value graph
  | barrier => exact alloc_rule (mgGraphCommitNode_spec trivial)
  | mpsgraph desc => exact mgGraphAddMPSGraphNode_changes desc graph
  | workspace desc => exact mgInternalGraphAddWorkspaceNode_changes desc graph
  | workspaceFill desc value dst dstOffset =>
      exact mgInternalGraphAddWorkspaceFillNode_changes desc value dst dstOffset graph

/-- Answering with a response changes nothing further. -/
theorem Changes.answer {α : Type} {graph : MgGraph} {body : Over MgGraph α}
    {response : α → Response} (changes : Changes known graph body) :
    Changes known graph (body >>= fun value => pure (response value)) :=
  Triple.bind changes fun _ => Triple.pure fun _ holds => holds

/-- The node pointers the caller passes. -/
def GraphEdit.Passes (edit : GraphEdit) (pointer : NodePtr) : Prop :=
  match edit with
  | .addDependency before after => before = some pointer ∨ after = some pointer
  | _ => False

theorem GraphEdit.run_changes (edit : GraphEdit) (graph : MgGraph)
    (given : ∀ pointer, edit.Passes pointer → known pointer) :
    Changes known graph edit.run := by
  cases edit with
  | addNode addition => exact (addition.run_changes graph).answer
  | addDependency before after =>
      exact (mgGraphAddDependency_changes before after graph given).answer
  | setArena arena => exact (mgGraphSetArena_changes arena graph).answer
  | setNodePatchFlags node flags => exact (mgGraphSetNodePatchFlags_changes node flags graph).answer

/-- Whatever an edit answers, the graph it leaves is changed in one possible way. -/
theorem GraphEdit.graphChange (edit : GraphEdit) (graph : MgGraph) (env : Env)
    (given : ∀ pointer, edit.Passes pointer → known pointer) :
    GraphChange known graph (edit.run ⟨graph, env⟩).2.object := by
  have result := edit.run_changes graph given ⟨graph, env⟩ rfl
  rcases outcome : edit.run ⟨graph, env⟩ with ⟨_ | _, reached⟩ <;> rw [outcome] at result
  · exact .same result
  · exact result

end Edits

end MetalGraph
