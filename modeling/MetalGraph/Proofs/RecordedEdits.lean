import MetalGraph.Proofs.Chronicle
import MetalGraph.Proofs.GraphChanges

set_option autoImplicit false

/- An edit that succeeds leaves in the graph what the chronicle writes down for it. -/
namespace MetalGraph

open Eff

/-! ### Descriptors that were accepted -/

@[simp] theorem stored_described (binding : MgBufferBinding) :
    binding.described.stored = some binding := rfl

@[simp] theorem stored_described_scalar (scalar : MgScalarBinding) :
    scalar.described.stored = some scalar := rfl

theorem filterMap_stored {α β : Type} {described : α → β} {stored : β → Option α}
    (inverse : ∀ value, stored (described value) = some value) (values : List α) :
    (values.map described).filterMap stored = values := by
  induction values with
  | nil => rfl
  | cons value rest ih => rw [List.map_cons, List.filterMap_cons_some (inverse value), ih]

theorem dispatchScalars_ok {desc : MgDispatchDesc} {scalars : List MgScalarBinding}
    (success : dispatchScalars desc = .ok scalars) :
    (desc.presentScalars.getD []).filterMap MgScalarBindingDesc.stored = scalars := by
  unfold dispatchScalars at success
  split at success
  · cases success
  · rename_i descs present
    rw [present, Option.getD_some, (validateScalars_ok success).1]
    exact filterMap_stored stored_described_scalar scalars

theorem mgValidateDispatchResources_stored {given : Option (List MgDispatchResourceDesc)}
    {bindings : List MgBufferBinding} {resources : List MgDispatchResourceDesc}
    (success : mgValidateDispatchResources given bindings = .ok resources) :
    given.getD [] = resources := by
  unfold mgValidateDispatchResources at success
  split at success
  · cases success
  · simp only [except_bind_ok, except_pure_ok] at success
    obtain ⟨_, _, same⟩ := success
    exact same

theorem dispatchPointers_stored {desc : MgDispatchDesc} {source : DispatchSource}
    (success : dispatchPointers desc = .ok source) :
    desc.metallibPath = some source.metallibPath ∧ desc.kernelName = some source.kernelName ∧
      desc.buffers = some source.buffers := by
  obtain ⟨_, _, buffers⟩ := dispatchPointers_ok success
  simp only [dispatchPointers, except_bind_ok] at success
  obtain ⟨_, _, success⟩ := success
  split at success
  · rename_i metallibPath kernelName path name
    simp only [except_bind_ok, buffers, except_pure_ok] at success
    obtain ⟨_, _, same⟩ := success
    exact same ▸ ⟨path, name, buffers⟩
  · cases success

theorem dispatch_stored {desc : MgDispatchDesc} {source : DispatchSource}
    {dispatch : MgDispatchNode} (pointers : dispatchPointers desc = .ok source)
    (success : dispatchContents desc source = .ok dispatch) : desc.stored = dispatch := by
  obtain ⟨dims, threads, _⟩ := dispatchPointers_ok pointers
  obtain ⟨path, name, buffers⟩ := dispatchPointers_stored pointers
  have described := (dispatchContents_valid dims threads success).2
  simp only [dispatchContents, except_bind_ok, except_pure_ok] at success
  obtain ⟨bindings, _, scalars, given, resources, checked, _, _, rfl⟩ := success
  have bound : (desc.buffers.getD []).filterMap MgBufferBindingDesc.stored = bindings := by
    rw [buffers, Option.getD_some, described]
    exact filterMap_stored stored_described bindings
  unfold MgDispatchDesc.stored
  rw [path, name, bound, dispatchScalars_ok given, mgValidateDispatchResources_stored checked]
  rfl

theorem copy_stored {rangeValid : UInt64 → UInt64 → UInt64 → Bool} {desc : MgCopyDesc}
    {copy : MgCopyNode} (success : copyContents rangeValid desc = some copy) :
    desc.stored = some copy := by
  unfold copyContents at success
  split at success
  · rename_i src dst srcGiven dstGiven
    split at success
    · cases success
    · unfold MgCopyDesc.stored
      rw [srcGiven, dstGiven]
      exact success
  · cases success

theorem fill_stored {rangeValid : UInt64 → UInt64 → UInt64 → Bool} {desc : MgFillDesc}
    {fill : MgFillNode} (success : fillContents rangeValid desc = some fill) :
    desc.stored = some fill := by
  unfold fillContents at success
  split at success
  · rename_i dst given
    split at success
    · cases success
    · unfold MgFillDesc.stored
      rw [given]
      exact success
  · cases success

/-- What a clone of an accepted tensor holds. -/
def TensorSource.stored (source : TensorSource) : Option MgMpsgraphTensor :=
  (mgShapeByteCount source.shape (mgTensorDataTypeSize source.dataType)).map fun required =>
    ⟨source.buffer, source.byteOffset, source.effectiveByteCount required, source.dataType,
      source.layout, source.shape⟩

theorem tensor_stored {desc : MgMpsgraphTensorDesc} {source : TensorSource}
    (success : mgValidateMpsgraphTensorDesc desc = .ok source) :
    desc.stored = source.stored := by
  simp only [mgValidateMpsgraphTensorDesc, tensorPointers, except_bind_ok] at success
  obtain ⟨middle, pointers, success⟩ := success
  split at pointers
  · rename_i buffer shape bufferGiven shapeGiven
    simp only [except_bind_ok, except_pure_ok] at pointers
    obtain ⟨_, _, rfl⟩ := pointers
    split at success
    · cases success
    · rename_i required counted
      simp only [except_bind_ok, except_pure_ok] at success
      obtain ⟨_, _, rfl⟩ := success
      dsimp only at counted
      simp [MgMpsgraphTensorDesc.stored, TensorSource.stored, bufferGiven, shapeGiven, counted,
        TensorSource.effectiveByteCount]
  · cases pointers

theorem validateTensors_stored {descs : List MgMpsgraphTensorDesc} {sources : List TensorSource}
    (success : validateTensors descs = .ok sources) :
    descs.filterMap MgMpsgraphTensorDesc.stored = sources.filterMap TensorSource.stored := by
  induction descs generalizing sources with
  | nil =>
      cases success
      rfl
  | cons desc rest ih =>
      simp only [validateTensors, except_bind_ok, except_pure_ok] at success
      obtain ⟨source, checked, others, checkedRest, rfl⟩ := success
      rw [List.filterMap_cons, List.filterMap_cons, tensor_stored checked, ih checkedRest]

theorem mgMpsgraphTensorClone_stored {source : TensorSource} {tensor : MgMpsgraphTensor}
    {env reached : Env} (success : mgMpsgraphTensorClone source env = (.ok tensor, reached)) :
    source.stored = some tensor := by
  simp only [mgMpsgraphTensorClone, bind_ok, orFail_ok, pure_ok] at success
  obtain ⟨required, _, ⟨counted, _⟩, _, _, _, _, _, _, rfl, _⟩ := success
  simp [TensorSource.stored, counted]

theorem mgMpsgraphTensorArrayClone_stored {sources : List TensorSource}
    {tensors : List MgMpsgraphTensor} {env reached : Env}
    (success : mgMpsgraphTensorArrayClone sources env = (.ok tensors, reached)) :
    sources.filterMap TensorSource.stored = tensors := by
  unfold mgMpsgraphTensorArrayClone at success
  split at success
  · simp only [pure_ok] at success
    exact success.1
  · simp only [bind_ok] at success
    obtain ⟨_, middle, _, cloned⟩ := success
    apply Triple.foldEach_ok
      (fun done built => done.filterMap TensorSource.stored = built) ?_ rfl cloned
    intro done source built next state reached _ held step
    simp only [bind_ok, pure_ok] at step
    obtain ⟨tensor, _, one, rfl, _⟩ := step
    rw [List.filterMap_append, held]
    simp [mgMpsgraphTensorClone_stored (cleaning_ok.mp one)]

theorem mpsgraphPointers_stored {desc : MgMpsgraphDesc} {source : MpsgraphSource}
    (success : mpsgraphPointers desc = some source) :
    desc.packagePath = some source.packagePath ∧ desc.feeds = some source.feeds ∧
      desc.targets = some source.targets := by
  unfold mpsgraphPointers at success
  split at success
  · rename_i packagePath feeds targets path feedsGiven targetsGiven
    split at success
    · cases success
    · cases success
      exact ⟨path, feedsGiven, targetsGiven⟩
  · cases success

/-! ### Edits -/

/-- If the edit succeeds, the graph has this record. -/
def WritesDown {α : Type} (graph : MgGraph) (record : GraphRecord) (body : Over MgGraph α) : Prop :=
  Triple (Has (· = graph)) body (fun _ => Has fun object => object.record = record)
    fun _ _ => True

theorem SameContents.record {before after : MgGraph} (same : SameContents before after) :
    after.record = before.record := by
  unfold MgGraph.record
  rw [same.nodes, same.edges, same.arena]

section Rules

variable {α : Type} {graph : MgGraph} {record : GraphRecord}

theorem commit_records {as : MgNodeAs} (stored : graph.record.addNode as = record) :
    Triple (Has (Allocated graph)) (mgGraphCommitNode as)
      (fun _ => Has fun object => object.record = record) fun _ _ => True := by
  apply self_rule
  intro object allocated focus holds
  have same := allocated.1.record
  change MgGraph.record { focus.object with nodes := focus.object.nodes ++ [_] } = record
  rw [show focus.object = object from holds, ← stored, ← same]
  simp [MgGraph.record, GraphRecord.addNode, newNode, MgNode.record]

/-- The steps after the node is allocated: the body finds the contents. -/
theorem fill_records {body : Run α} {as : α → MgNodeAs}
    (stored : ∀ value env reached, body env = (.ok value, reached) →
      graph.record.addNode (as value) = record) :
    Triple (Has (Allocated graph)) (onEnv body >>= fun value => mgGraphCommitNode (as value))
      (fun _ => Has fun object => object.record = record) fun _ _ => True :=
  onEnv_rule (fun _ _ _ => trivial) fun value env reached ran =>
    commit_records (stored value env reached ran)

theorem alloc_records {next : Unit → Over MgGraph α}
    (rest : Triple (Has (Allocated graph)) (next ())
      (fun _ => Has fun object => object.record = record) fun _ _ => True) :
    WritesDown graph record (mgGraphAllocNode >>= next) := by
  apply Triple.bind
  · exact mgGraphAllocNode_spec.weaken (fun _ start => start) (fun _ _ finish => finish)
      fun _ _ _ => trivial
  · intro _
    exact rest

end Rules

section Additions

variable (graph : MgGraph)

/-- The record of a graph after an addition. -/
def NodeAddition.recorded (addition : NodeAddition) (graph : MgGraph) : GraphRecord :=
  graph.record.edited (.addNode addition)

theorem NodeAddition.recorded_of {addition : NodeAddition} {as : MgNodeAs}
    (stored : addition.stored = some as) :
    graph.record.addNode as = addition.recorded graph := by
  simp only [NodeAddition.recorded, GraphRecord.edited, stored, Option.elim_some]

theorem mgGraphAddDispatchNode_records (desc : Option MgDispatchDesc) :
    WritesDown graph ((NodeAddition.dispatch desc).recorded graph)
      (mgGraphAddDispatchNode desc) := by
  refine Triple.orFail (fun desc given => ?_) fun _ _ _ => trivial
  refine Triple.ofExcept (fun source pointers => ?_) fun _ _ _ _ => trivial
  apply alloc_records
  apply onEnv_rule (fun _ _ _ => trivial)
  intro _ _ _ _
  refine Triple.ofExcept (fun dispatch contents => ?_) fun _ _ _ _ => trivial
  apply onEnv_rule (fun _ _ _ => trivial)
  intro _ _ _ _
  apply fill_records
  intro _ _ _ _
  apply NodeAddition.recorded_of
  simp [NodeAddition.stored, given, dispatch_stored pointers contents]

theorem mgGraphAddCopyNode_records (desc : Option MgCopyDesc) :
    WritesDown graph ((NodeAddition.copy desc).recorded graph) (mgGraphAddCopyNode desc) := by
  refine Triple.orFail (fun desc given => ?_) fun _ _ _ => trivial
  refine Triple.orFail (fun copy contents => ?_) fun _ _ _ => trivial
  apply alloc_records
  apply onEnv_rule (fun _ _ _ => trivial)
  intro _ _ _ _
  apply fill_records
  intro _ _ _ _
  apply NodeAddition.recorded_of
  simp [NodeAddition.stored, given, copy_stored contents]

theorem mgGraphAddFillNode_records (desc : Option MgFillDesc) :
    WritesDown graph ((NodeAddition.fill desc).recorded graph) (mgGraphAddFillNode desc) := by
  refine Triple.orFail (fun desc given => ?_) fun _ _ _ => trivial
  refine Triple.orFail (fun fill contents => ?_) fun _ _ _ => trivial
  apply alloc_records
  apply fill_records
  intro _ _ _ _
  apply NodeAddition.recorded_of
  simp [NodeAddition.stored, given, fill_stored contents]

theorem mgGraphAddEventNode_records {kind : MgEventNode → MgNodeAs} {event : Option MgEvent}
    {value : UInt64} {addition : NodeAddition}
    (stored : addition.stored = event.map fun event => kind ⟨event, value⟩) :
    WritesDown graph (addition.recorded graph) (mgGraphAddEventNode kind event value) := by
  refine Triple.orFail (fun event given => ?_) fun _ _ _ => trivial
  apply alloc_records
  apply fill_records
  intro _ _ _ _
  apply NodeAddition.recorded_of
  rw [stored, given]
  rfl

theorem mgGraphAddMPSGraphNode_records (desc : Option MgMpsgraphDesc) :
    WritesDown graph ((NodeAddition.mpsgraph desc).recorded graph)
      (mgGraphAddMPSGraphNode desc) := by
  refine Triple.orFail (fun desc given => ?_) fun _ _ _ => trivial
  refine Triple.orFail (fun source pointers => ?_) fun _ _ _ => trivial
  refine Triple.ofExcept (fun feeds checked => ?_) fun _ _ _ _ => trivial
  refine Triple.ofExcept (fun targets checked' => ?_) fun _ _ _ _ => trivial
  obtain ⟨path, feedsGiven, targetsGiven⟩ := mpsgraphPointers_stored pointers
  apply alloc_records
  apply onEnv_rule (fun _ _ _ => trivial)
  intro _ _ _ _
  apply onEnv_rule (fun _ _ _ => trivial)
  intro stored _ _ cloned
  apply fill_records
  intro stored' _ _ cloned'
  apply NodeAddition.recorded_of
  have same := (validateTensors_stored checked).trans (mgMpsgraphTensorArrayClone_stored cloned)
  have same' := (validateTensors_stored checked').trans
    (mgMpsgraphTensorArrayClone_stored (cleaning_ok.mp cloned'))
  simp [NodeAddition.stored, given, MgMpsgraphDesc.stored, path, feedsGiven, targetsGiven, same,
    same']

theorem mgInternalGraphAddWorkspaceNode_records (desc : Option MgWorkspaceDesc) :
    WritesDown graph ((NodeAddition.workspace desc).recorded graph)
      (mgInternalGraphAddWorkspaceNode desc) := by
  refine Triple.ofExcept (fun valid checked => ?_) fun _ _ _ _ => trivial
  apply alloc_records
  apply commit_records
  apply NodeAddition.recorded_of
  simp [NodeAddition.stored, (mgWorkspaceDescValidate_ok checked).1]

theorem mgInternalGraphAddWorkspaceFillNode_records (desc : Option MgWorkspaceDesc)
    (value : UInt8) (dst : Option MgBuffer) (dstOffset : UInt64) :
    WritesDown graph ((NodeAddition.workspaceFill desc value dst dstOffset).recorded graph)
      (mgInternalGraphAddWorkspaceFillNode desc value dst dstOffset) := by
  refine Triple.orFail (fun dst given => ?_) fun _ _ _ => trivial
  refine Triple.ofExcept (fun valid checked => ?_) fun _ _ _ _ => trivial
  refine Triple.require (fun _ => ?_) fun _ _ _ => trivial
  apply alloc_records
  apply fill_records
  intro _ _ _ _
  apply NodeAddition.recorded_of
  simp [NodeAddition.stored, given, (mgWorkspaceDescValidate_ok checked).1]

theorem NodeAddition.run_records (addition : NodeAddition) :
    WritesDown graph (addition.recorded graph) addition.run := by
  cases addition with
  | dispatch desc => exact mgGraphAddDispatchNode_records graph desc
  | copy desc => exact mgGraphAddCopyNode_records graph desc
  | fill desc => exact mgGraphAddFillNode_records graph desc
  | eventWait event value => exact mgGraphAddEventNode_records graph rfl
  | eventSignal event value => exact mgGraphAddEventNode_records graph rfl
  | barrier => exact alloc_records (commit_records rfl)
  | mpsgraph desc => exact mgGraphAddMPSGraphNode_records graph desc
  | workspace desc => exact mgInternalGraphAddWorkspaceNode_records graph desc
  | workspaceFill desc value dst dstOffset =>
      exact mgInternalGraphAddWorkspaceFillNode_records graph desc value dst dstOffset

end Additions

section Others

theorem mgGraphSetArena_records (arena : Option MgArena) (graph : MgGraph) :
    WritesDown graph (graph.record.edited (.setArena arena)) (mgGraphSetArena arena) := by
  refine Triple.orFail (fun arena given => ?_) fun _ _ _ => trivial
  apply self_rule
  intro object same
  subst same
  subst given
  split
  · rename_i attached
    apply Triple.pure
    intro focus same
    change focus.object.record = _
    rw [show focus.object = object from same]
    simp [GraphRecord.edited, MgGraph.record, attached]
  · apply onEnv_rule (fun _ _ _ => trivial)
    intro _ _ _ _
    apply onEnv_rule (fun _ _ _ => trivial)
    intro _ _ _ _
    apply modifySelf_last
    intro focus same
    rw [show focus.object = object from same]
    rfl

theorem mgGraphSetNodePatchFlags_records (pointer : Option NodePtr) (flags : MgPatchFlags)
    (graph : MgGraph) :
    WritesDown graph (graph.record.edited (.setNodePatchFlags pointer flags))
      (mgGraphSetNodePatchFlags pointer flags) := by
  apply self_rule
  intro object same
  subst same
  refine Triple.orFail (fun pointer given => ?_) fun _ _ _ => trivial
  refine Triple.require (fun _ => ?_) fun _ _ _ => trivial
  refine Triple.orFail (fun node present => ?_) fun _ _ _ => trivial
  refine Triple.require (fun allowed => ?_) fun _ _ _ => trivial
  refine Triple.require (fun ranges => ?_) fun _ _ _ => trivial
  subst given
  apply modifySelf_last
  intro focus same
  rw [show focus.object = object from same]
  have known : (object.nodes.map MgNode.record)[pointer.index]? = some node.record := by
    rw [List.getElem?_map, present]
    rfl
  change MgGraph.record _ = _
  simp [GraphRecord.edited, GraphRecord.setPatchFlags, MgGraph.record, List.map_set,
    List.modify_eq_set_getElem?, known, MgNode.record]

theorem mgGraphAddDependency_records (before after : Option NodePtr) (graph : MgGraph) :
    WritesDown graph (graph.record.edited (.addDependency before after))
      (mgGraphAddDependency before after) := by
  apply self_rule
  intro object same
  subst same
  refine Triple.orFail (fun first firstGiven => ?_) fun _ _ _ => trivial
  refine Triple.orFail (fun second secondGiven => ?_) fun _ _ _ => trivial
  refine Triple.require (fun here => ?_) fun _ _ _ => trivial
  refine Triple.require (fun distinct => ?_) fun _ _ _ => trivial
  subst firstGiven secondGiven
  have known : (object.edges.any fun edge =>
      edge.before == first.index && edge.after == second.index) = true ↔
        ⟨first.index, second.index⟩ ∈ object.edges := by
    rw [List.any_eq_true]
    constructor
    · rintro ⟨⟨_, _⟩, member, same⟩
      simp only [Bool.and_eq_true, beq_iff_eq] at same
      obtain ⟨rfl, rfl⟩ := same
      exact member
    · intro member
      exact ⟨_, member, by simp⟩
  split
  · rename_i present
    apply Triple.pure
    intro focus same
    change focus.object.record = _
    rw [show focus.object = object from same]
    simp [GraphRecord.edited, GraphRecord.addDependency, MgGraph.record, known.mp present]
  · rename_i absent
    apply Triple.bind
    · exact (mgGraphReserveEdges_spec object _).weaken (fun _ start => start)
        (fun _ _ finish => finish) fun _ _ _ => trivial
    · intro _
      apply modifySelf_last
      intro focus contents
      have same := SameContents.record contents
      unfold MgGraph.record at same ⊢
      simp only [GraphRecord.mk.injEq] at same
      change MgGraph.record _ = _
      simp [GraphRecord.edited, GraphRecord.addDependency, MgGraph.record, same,
        mt known.mpr absent]

theorem WritesDown.answer {α : Type} {graph : MgGraph} {record : GraphRecord}
    {body : Over MgGraph α} {response : α → Response} (records : WritesDown graph record body) :
    WritesDown graph record (body >>= fun value => pure (response value)) :=
  Triple.bind records fun _ => Triple.pure fun _ holds => holds

theorem GraphEdit.run_records (edit : GraphEdit) (graph : MgGraph) :
    WritesDown graph (graph.record.edited edit) edit.run := by
  cases edit with
  | addNode addition => exact (addition.run_records graph).answer
  | addDependency before after => exact (mgGraphAddDependency_records before after graph).answer
  | setArena arena => exact (mgGraphSetArena_records arena graph).answer
  | setNodePatchFlags node flags =>
      exact (mgGraphSetNodePatchFlags_records node flags graph).answer

/-- Whatever an edit answers, its record is as the chronicle has it. -/
theorem GraphEdit.run_record {edit : GraphEdit} {graph : MgGraph} {env : Env}
    {result : Except Fault Response} {focus : Focus MgGraph}
    (ran : edit.run ⟨graph, env⟩ = (result, focus)) :
    focus.object.record =
      if result.isOk then graph.record.edited edit else graph.record := by
  have start : Has (· = graph) ⟨graph, env⟩ := rfl
  rcases result with reason | response
  · have kept : Changes edit.Passes graph edit.run := edit.run_changes graph fun _ passed => passed
    have same : Has (SameContents graph) focus := kept.error start ran
    exact SameContents.record same
  · have same : Has (fun object => object.record = graph.record.edited edit) focus :=
      (edit.run_records graph).ok start ran
    exact same

end Others

end MetalGraph
