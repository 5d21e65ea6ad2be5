import MetalGraph.Proofs.Rebuilding

set_option autoImplicit false

/- Patching refines rebuilding: a patch of a node does what adding and cloning the node
again would do, and is refused only for reasons of its own or those of the addition. -/
namespace MetalGraph

open Eff

/-! ### Reasons -/

/-- No graph accepts the addition, whatever the machine grants. -/
def NodeAddition.Rejected (addition : NodeAddition) : Prop :=
  ∀ graph env pointer, (addition.run ⟨graph, env⟩).1 ≠ .ok pointer

def ExecPatch.missesArgument : ExecPatch → Bool
  | .dispatchGrid _ grid => grid.isNone
  | .dispatchBuffer _ _ buffer _ => buffer.isNone
  | .dispatchScalar _ _ data => data.isNone
  | .copyNode _ desc => desc.isNone
  | .fillNode _ desc => desc.isNone
  | .eventValue _ _ | .optimizationFlags _ => false

def ExecPatch.suits : ExecPatch → MgExecNode → Bool
  | .dispatchGrid _ _, .dispatch _ | .dispatchBuffer _ _ _ _, .dispatch _
  | .dispatchScalar _ _ _, .dispatch _ | .copyNode _ _, .copy _ | .fillNode _ _, .fill _
  | .eventValue _ _, .eventWait _ | .eventValue _ _, .eventSignal _ => true
  | _, _ => false

/-- A field the patch changes is not declared patchable. -/
def ExecPatch.Undeclared : ExecPatch → MgExecNode → Prop
  | .dispatchGrid _ _, .dispatch node => node.patchFlags &&& mgPatchDispatchGrid = 0
  | .dispatchBuffer _ _ _ _, .dispatch node => node.patchFlags &&& mgPatchDispatchBuffer = 0
  | .dispatchScalar _ _ _, .dispatch node => node.patchFlags &&& mgPatchDispatchScalar = 0
  | .copyNode _ (some desc), .copy node => ∃ new, copyContents mgRangeValid desc = some new ∧
      ((node.changesBuffer new = true ∧ node.patchFlags &&& mgPatchCopyBuffer = 0) ∨
        (node.changesRange new = true ∧ node.patchFlags &&& mgPatchCopyRange = 0))
  | .fillNode _ (some desc), .fill node => ∃ new, fillContents mgRangeValid desc = some new ∧
      ((new.dst.address ≠ node.dst.address ∧ node.patchFlags &&& mgPatchFillBuffer = 0) ∨
        (node.changesRange new = true ∧ node.patchFlags &&& mgPatchFillRange = 0) ∨
        (new.value ≠ node.value ∧ node.patchFlags &&& mgPatchFillValue = 0))
  | .eventValue _ _, .eventWait node => node.patchFlags &&& mgPatchEventValue = 0
  | .eventValue _ _, .eventSignal node => node.patchFlags &&& mgPatchEventValue = 0
  | _, _ => False

def ExecPatch.AbsentIndex : ExecPatch → MgExecNode → Prop
  | .dispatchBuffer _ index _ _, .dispatch node => ∀ binding ∈ node.buffers, binding.index ≠ index
  | .dispatchScalar _ index _, .dispatch node => ∀ scalar ∈ node.scalars, scalar.index ≠ index
  | _, _ => False

def ExecPatch.ChangesSize : ExecPatch → MgExecNode → Prop
  | .dispatchScalar _ index (some data), .dispatch node => ∃ scalar slot,
      scalarAt node.scalars index = some (scalar, slot) ∧ scalar.data.length ≠ data.length
  | _, _ => False

/-- The binding has no resource that declares a range. -/
def ExecPatch.Unranged : ExecPatch → MgExecNode → Prop
  | .dispatchBuffer _ index _ _, .dispatch node => ∀ resource ∈ node.resources,
      resource.index = index → resource.byteCount = 0
  | _, _ => False

def ExecPatch.OtherDevice (exec : MgGraphExec) : ExecPatch → Prop
  | .dispatchBuffer _ _ (some buffer) _ => ∃ device other,
      exec.deviceImpl = some device ∧ buffer.deviceImpl = some other ∧ device ≠ other
  | _ => False

/-- The node the patch finds. -/
def ExecPatch.Finds (patch : ExecPatch) (exec : MgGraphExec) (node : MgExecNode) : Prop :=
  ∃ nodeId position, patch.nodeId = some nodeId ∧
    mgPatchFindNode exec.nodes nodeId = .ok (position, node)

/-- Everything a patch of a node may be refused for. -/
inductive PatchRefusal (exec : MgGraphExec) (patch : ExecPatch) : Prop
  | missing (null : patch.missesArgument = true)
  | running (launched : exec.inFlightCount ≠ 0)
  | unknown {nodeId : MgNodeId} (named : patch.nodeId = some nodeId)
      (absent : nodeId = mgNodeIdInvalid ∨ ∀ node ∈ exec.nodes, node.patchId ≠ some nodeId)
  | wrongKind {node : MgExecNode} (found : patch.Finds exec node)
      (unsuited : patch.suits node = false)
  | undeclared {node : MgExecNode} (found : patch.Finds exec node)
      (fixed : patch.Undeclared node)
  | absentIndex {node : MgExecNode} (found : patch.Finds exec node)
      (absent : patch.AbsentIndex node)
  | changedSize {node : MgExecNode} (found : patch.Finds exec node)
      (changed : patch.ChangesSize node)
  | unranged {node : MgExecNode} (found : patch.Finds exec node) (bare : patch.Unranged node)
  | otherDevice (foreign : patch.OtherDevice exec)
  | rejected {node : MgExecNode} {addition : NodeAddition} (found : patch.Finds exec node)
      (replaced : patch.replaced node = some addition) (rejects : addition.Rejected)

section Rejections

theorem copy_rejected {desc : MgCopyDesc} (refused : copyContents mgRangeValid desc = none) :
    NodeAddition.Rejected (.copy (some desc)) := by
  intro graph env pointer
  simp [NodeAddition.run, mgGraphAddCopyNode, bind_apply, refused]

theorem fill_rejected {desc : MgFillDesc} (refused : fillContents mgRangeValid desc = none) :
    NodeAddition.Rejected (.fill (some desc)) := by
  intro graph env pointer
  simp [NodeAddition.run, mgGraphAddFillNode, bind_apply, refused]

/-- What an accepted dispatch descriptor says of the node it describes. -/
structure DispatchDescribes (desc : MgDispatchDesc) (built : MgDispatchNode) : Prop where
  valid : DispatchValid built
  grid : built.gridSize = desc.gridSize
  maximum : built.maxGridSize = desc.effectiveMaxGridSize
  buffers : desc.buffers = some (built.buffers.map MgBufferBinding.described)
  resources : ∀ resources, desc.presentResources = some resources → built.resources =
    resources.map fun resource =>
      { resource with alignment := effectiveAlignment resource.alignment }

theorem mgGraphAddDispatchNode_describes {desc : MgDispatchDesc} {graph : MgGraph} {env : Env}
    {pointer : NodePtr} {reached : Focus MgGraph}
    (success : mgGraphAddDispatchNode (some desc) ⟨graph, env⟩ = (.ok pointer, reached)) :
    ∃ built, DispatchDescribes desc built := by
  simp only [mgGraphAddDispatchNode, bind_ok, orFail_ok, ofExcept_ok] at success
  obtain ⟨_, _, ⟨same, rfl⟩, source, _, ⟨pointers, rfl⟩, _, _, _, _, _, _, built, _,
    ⟨contents, rfl⟩, _⟩ := success
  cases same
  obtain ⟨dims, threads, given⟩ := dispatchPointers_ok pointers
  obtain ⟨valid, described⟩ := dispatchContents_valid dims threads contents
  refine ⟨built, valid, ?_, ?_, described ▸ given, ?_⟩ <;>
    simp only [dispatchContents, except_bind_ok, demand_ok, except_pure_ok, exists_const]
      at contents <;>
    obtain ⟨buffers, _, scalars, _, resources, checked, _, rfl⟩ := contents
  · rfl
  · rfl
  · intro present given
    simp only [mgValidateDispatchResources, given, except_bind_ok, except_pure_ok] at checked
    obtain ⟨_, _, rfl⟩ := checked
    rfl

theorem dispatch_rejected {desc : MgDispatchDesc}
    (refused : ∀ built, ¬ DispatchDescribes desc built) :
    NodeAddition.Rejected (.dispatch (some desc)) := by
  intro graph env pointer accepted
  obtain ⟨built, describes⟩ := mgGraphAddDispatchNode_describes (Prod.ext accepted rfl)
  exact refused built describes

theorem grid_rejected {dispatch : MgDispatchNode} (valid : DispatchValid dispatch) {grid : Dims}
    (bad : mgDimsValid grid = false ∨ gridWithin grid dispatch.maxGridSize = false) :
    NodeAddition.Rejected (.dispatch (some { dispatch.desc with gridSize := grid })) := by
  apply dispatch_rejected
  intro built describes
  have checked := describes.valid.grid
  rw [describes.grid, describes.maximum, valid.effective_maximum] at checked
  rcases bad with empty | beyond
  · exact Bool.false_ne_true (empty.symm.trans checked.1)
  · exact Bool.false_ne_true (beyond.symm.trans checked.2)

theorem described_injective : Function.Injective MgBufferBinding.described := by
  rintro ⟨index, buffer, offset⟩ ⟨index', buffer', offset'⟩ same
  cases same
  rfl

/-- The offset or the declared range does not fit the buffer. -/
def Unbindable (dispatch : MgDispatchNode) (index : UInt32) (buffer : MgBuffer)
    (offset : UInt64) : Prop :=
  buffer.length < offset ∨ ∃ resource, dispatch.resourceFor index = some resource ∧
    ¬ (mgDispatchResourceOffsetAligned (some resource) offset = true ∧
      mgDispatchResourceRangeValid (some resource) buffer.length offset = true)

/-- A binding that the patch may not make is one that the addition refuses. -/
theorem binding_rejected {dispatch : MgDispatchNode} (valid : DispatchValid dispatch)
    {index : UInt32} {binding : MgBufferBinding} {slot : Nat}
    (found : bindingAt dispatch.buffers index = some (binding, slot)) {buffer : MgBuffer}
    {offset : UInt64} (bad : Unbindable dispatch index buffer offset) :
    NodeAddition.Rejected (.dispatch (some { dispatch.desc with
      buffers := some ((dispatch.buffers.map MgBufferBinding.described).set slot
        ⟨index, some buffer, offset⟩) })) := by
  apply dispatch_rejected
  intro built describes
  obtain ⟨present, named⟩ := bindingAt_eq found
  have given := Option.some.inj describes.buffers
  rw [described_bindings_set found] at given
  have bindings := List.map_injective_iff.mpr described_injective given
  have member : { binding with buffer := buffer, offset := offset } ∈ built.buffers :=
    bindings ▸ List.mem_set (List.getElem?_eq_some_iff.mp present).1 _
  rcases bad with beyond | ⟨resource, declared, refused⟩
  · exact UInt64.not_lt.mpr (describes.valid.offsets _ member) beyond
  · have kept : built.resources = dispatch.resources :=
      (describes.resources dispatch.resources rfl).trans valid.effective_resources
    have listed : resource ∈ built.resources := kept ▸ List.mem_of_find?_eq_some declared
    have index_eq : resource.index = index := by simpa using List.find?_some declared
    have checked := describes.valid.resources resource listed
    have same : binding.index = resource.index := named.trans index_eq.symm
    have aligned := checked.aligned { binding with buffer := buffer, offset := offset } member same
    have inside := checked.inside { binding with buffer := buffer, offset := offset } member same
    exact refused ⟨aligned, inside⟩

end Rejections

section Refusals

variable {exec : MgGraphExec} {env : Env} {patch : ExecPatch} {nodeId : MgNodeId}

/-- The body fails only for a listed reason. -/
def Refuses {α : Type} (exec : MgGraphExec) (patch : ExecPatch) (body : Over MgGraphExec α) :
    Prop :=
  ∀ env, Triple (· = ⟨exec, env⟩) body (fun _ _ => True) fun _ _ => PatchRefusal exec patch

theorem mgPatchFindNode_error {nodes : List MgExecNode} {reason : Fault}
    (missing : mgPatchFindNode nodes nodeId = .error reason) :
    nodeId = mgNodeIdInvalid ∨ ∀ node ∈ nodes, node.patchId ≠ some nodeId := by
  unfold mgPatchFindNode at missing
  split at missing
  · rename_i invalid
    exact .inl invalid
  · split at missing
    · cases missing
    · rename_i absent
      refine .inr fun node member same => ?_
      obtain ⟨position, present⟩ := List.mem_iff_getElem?.mp member
      have unequal := List.find?_eq_none.mp absent (node, position)
        (List.mem_zipIdx_iff_getElem?.mpr present)
      simp [same] at unequal

theorem patchTarget_refuses {α : Type} {next : Nat × MgExecNode → Over MgGraphExec α}
    (named : patch.nodeId = some nodeId)
    (rest : ∀ position node, patch.Finds exec node → Refuses exec patch (next (position, node))) :
    Refuses exec patch (patchTarget nodeId >>= next) := by
  intro env focus same
  subst same
  by_cases idle : exec.inFlightCount = 0
  · rcases lookup : mgPatchFindNode exec.nodes nodeId with reason | ⟨position, node⟩
    · have stopped : patchTarget nodeId ⟨exec, env⟩ = (.error reason, ⟨exec, env⟩) := by
        simp [patchTarget, mgPatchReady, bind_apply, idle, lookup]
      rw [bind_of_error _ stopped]
      exact .unknown named (mgPatchFindNode_error lookup)
    · have found : patchTarget nodeId ⟨exec, env⟩ = (.ok (position, node), ⟨exec, env⟩) :=
        patchTarget_ok.mpr ⟨⟨idle, lookup⟩, rfl⟩
      rw [bind_of_ok _ found]
      exact rest position node ⟨nodeId, position, named, lookup⟩ env _ rfl
  · have stopped : patchTarget nodeId ⟨exec, env⟩ =
        (.error (patchFault mgNodeIdInvalid "exec has an in-flight launch"), ⟨exec, env⟩) := by
      simp [patchTarget, mgPatchReady, bind_apply, UInt32.pos_iff_ne_zero.mpr idle]
    rw [bind_of_error _ stopped]
    exact .running idle

theorem dispatchTarget_refuses {α : Type} {flag : MgPatchFlags}
    {next : Nat × MgExecDispatch → Over MgGraphExec α} (named : patch.nodeId = some nodeId)
    (kinds : ∀ node, asDispatch node = none → patch.suits node = false)
    (flags : ∀ dispatch : MgExecDispatch, dispatch.patchFlags &&& flag = 0 →
      patch.Undeclared (.dispatch dispatch))
    (rest : ∀ position dispatch, patch.Finds exec (.dispatch dispatch) →
      Refuses exec patch (next (position, dispatch))) :
    Refuses exec patch (dispatchTarget nodeId flag >>= next) := by
  unfold dispatchTarget
  rw [bind_assoc]
  apply patchTarget_refuses named
  intro position node found
  rw [bind_assoc]
  refine fun env => Triple.orFail (fun dispatch given => ?_) fun other _ _ => ?_
  · cases asDispatch_eq_some.mp given
    rw [bind_assoc]
    apply Triple.require (fun _ => rest position dispatch found env)
    intro fixed _ _
    exact .undeclared found (flags dispatch (not_not.mp fixed))
  · exact .wrongKind found (kinds node other)

theorem self_refuses {α : Type} {next : MgGraphExec → Over MgGraphExec α}
    (rest : Refuses exec patch (next exec)) : Refuses exec patch (self >>= next) := by
  rintro env focus rfl
  exact rest env ⟨exec, env⟩ rfl

/-- What is left of a patch once nothing can fail any more. -/
theorem Refuses.of_never {α : Type} {body : Over MgGraphExec α}
    (never : FailsOnly (fun _ => False) body) : Refuses exec patch body := fun _ =>
  Triple.of_outcomes (fun _ _ _ _ _ => trivial) fun state reason reached _ stopped =>
    (never state reason reached stopped).elim

theorem requireFlagIf_refuses {α : Type} {changes : Bool} {flags required : MgPatchFlags}
    {next : Unit → Over MgGraphExec α} (rest : Refuses exec patch (next ()))
    (refusal : changes = true → flags &&& required = 0 → PatchRefusal exec patch) :
    Refuses exec patch (requireFlagIf changes flags required nodeId >>= next) := by
  cases changes with
  | false => exact rest
  | true => exact fun env => Triple.require (fun _ => rest env) fun fixed _ _ =>
      refusal rfl (not_not.mp fixed)

theorem bindingAt_none {buffers : List MgBufferBinding} {index : UInt32}
    (missing : bindingAt buffers index = none) : ∀ binding ∈ buffers, binding.index ≠ index := by
  simpa using find?_zipIdx_none (fun binding : MgBufferBinding => binding.index == index) missing

theorem scalarAt_none {scalars : List MgScalarBinding} {index : UInt32}
    (missing : scalarAt scalars index = none) : ∀ scalar ∈ scalars, scalar.index ≠ index := by
  simpa using find?_zipIdx_none (fun scalar : MgScalarBinding => scalar.index == index) missing

theorem Finds.valid (wf : ExecWf exec) {dispatch : MgExecDispatch}
    (found : patch.Finds exec (.dispatch dispatch)) : DispatchValid dispatch.toMgDispatchNode := by
  obtain ⟨nodeId, position, _, located⟩ := found
  exact wf.nodes _ (List.mem_of_getElem? (mgPatchFindNode_ok located).1)

theorem dispatchGrid_refuses (wf : ExecWf exec) (grid : Option Dims) :
    Refuses exec (.dispatchGrid nodeId grid) (mgGraphExecPatchDispatchGrid nodeId grid) := by
  refine dispatchTarget_refuses rfl ?_ (fun _ fixed => fixed) fun position dispatch found env => ?_
  · intro node other
    cases node <;> first | rfl | cases other
  have valid := Finds.valid wf found
  have rejected : ∀ dims, grid = some dims →
      mgDimsValid dims = false ∨ gridWithin dims dispatch.maxGridSize = false →
        PatchRefusal exec (.dispatchGrid nodeId grid) := by
    rintro dims rfl bad
    exact .rejected found rfl (grid_rejected valid bad)
  refine Triple.require (fun checked => ?_) fun invalid _ _ => ?_
  · refine Triple.orFail (fun dims given => ?_) fun absent _ _ => ?_
    · apply Triple.require (fun _ => Refuses.of_never (storeNode_never _ _) env)
      intro beyond _ _
      exact rejected dims given (.inr (Bool.not_eq_true _ ▸ beyond))
    · rw [absent] at checked
      cases checked
  · cases grid with
    | none => exact .missing rfl
    | some dims => exact rejected dims rfl (.inl (Bool.not_eq_true _ ▸ invalid))

theorem rebindable_error {dispatch : MgDispatchNode} {index : UInt32} {buffer : MgBuffer}
    {offset : UInt64} {reason : Fault}
    (refused : rebindable dispatch nodeId index buffer offset = .error reason) :
    dispatch.hasRange index = false ∨ Unbindable dispatch index buffer offset := by
  rcases declared : dispatch.resourceFor index with _ | resource
  · exact .inl (by simp only [MgDispatchNode.hasRange, declared])
  · simp only [rebindable, declared, except_bind_error, demand_error, demand_ok] at refused
    rcases refused with ⟨bare, _⟩ | ⟨_, _, bad, _⟩
    · exact .inl (Bool.not_eq_true _ ▸ bare)
    · exact .inr (.inr ⟨resource, declared, bad⟩)

theorem DispatchValid.unranged {dispatch : MgDispatchNode} (valid : DispatchValid dispatch)
    {index : UInt32} (bare : dispatch.hasRange index = false) :
    ∀ resource ∈ dispatch.resources, resource.index = index → resource.byteCount = 0 := by
  rintro resource member rfl
  have declared : dispatch.resourceFor resource.index = some resource :=
    find_resource_eq valid.distinct member
  simpa only [MgDispatchNode.hasRange, declared, bne_eq_false_iff_eq] using bare

theorem differentDevices_true {first second : Option Nat}
    (different : differentDevices first second = true) :
    ∃ device other, first = some device ∧ second = some other ∧ device ≠ other := by
  cases first <;> cases second <;> simp_all [differentDevices]

theorem dispatchBuffer_refuses (wf : ExecWf exec) (index : UInt32) (buffer : Option MgBuffer)
    (offset : UInt64) :
    Refuses exec (.dispatchBuffer nodeId index buffer offset)
      (mgGraphExecPatchDispatchBuffer nodeId index buffer offset) := by
  refine dispatchTarget_refuses rfl ?_ (fun _ fixed => fixed) fun position dispatch found env => ?_
  · intro node other
    cases node <;> first | rfl | cases other
  have valid := Finds.valid wf found
  refine Triple.orFail (fun given same => ?_) fun missing _ _ => .missing (by rw [missing]; rfl)
  subst same
  have absent : bindingAt dispatch.buffers index = none →
      PatchRefusal exec (.dispatchBuffer nodeId index (some given) offset) :=
    fun missing => .absentIndex found (bindingAt_none missing)
  have rejected : ∀ binding slot, bindingAt dispatch.buffers index = some (binding, slot) →
      Unbindable dispatch.toMgDispatchNode index given offset →
        PatchRefusal exec (.dispatchBuffer nodeId index (some given) offset) :=
    fun binding slot bound bad => .rejected found (by rw [ExecPatch.replaced, bound]; rfl)
      (binding_rejected valid bound bad)
  refine Triple.require (fun _ => self_refuses (fun env => ?_) env) fun beyond _ _ => ?_
  · refine Triple.require (fun _ => ?_) fun foreign _ _ => ?_
    · rcases bound : bindingAt dispatch.buffers index with _ | ⟨binding, slot⟩ <;>
        rw [bindingAt] at bound <;> simp only [bound]
      · exact Triple.fail fun _ _ => absent bound
      · refine Triple.ofExcept (fun _ _ => ?_) fun reason refused _ _ => ?_
        · exact Refuses.of_never (swapBuffers_never _ _ _ _) env
        · rcases rebindable_error refused with bare | bad
          · exact .unranged found (valid.unranged bare)
          · exact rejected binding slot bound bad
    · exact .otherDevice (differentDevices_true (by simpa using foreign))
  · rcases bound : bindingAt dispatch.buffers index with _ | ⟨binding, slot⟩
    · exact absent bound
    · exact rejected binding slot bound (.inl (by simpa using beyond))

theorem dispatchScalar_refuses (wf : ExecWf exec) (index : UInt32) (data : Option (List UInt8)) :
    Refuses exec (.dispatchScalar nodeId index data)
      (mgGraphExecPatchDispatchScalar nodeId index data) := by
  refine dispatchTarget_refuses rfl ?_ (fun _ fixed => fixed) fun position dispatch found env => ?_
  · intro node other
    cases node <;> first | rfl | cases other
  have valid := Finds.valid wf found
  have absent : scalarAt dispatch.scalars index = none →
      PatchRefusal exec (.dispatchScalar nodeId index data) :=
    fun missing => .absentIndex found (scalarAt_none missing)
  refine Triple.orFail (fun given same => ?_) fun invalid _ _ => ?_
  · obtain ⟨rfl, _⟩ := Option.filter_eq_some_iff.mp same
    rcases bound : scalarAt dispatch.scalars index with _ | ⟨scalar, slot⟩ <;>
      rw [scalarAt] at bound <;> simp only [bound]
    · exact Triple.fail fun _ _ => absent bound
    · refine Triple.require (fun _ => Refuses.of_never (storeNode_never _ _) env)
        fun changed _ _ => ?_
      exact .changedSize found ⟨scalar, slot, bound, changed⟩
  · rcases data with _ | data
    · exact .missing rfl
    · obtain rfl : data = [] := by simpa using invalid
      rcases bound : scalarAt dispatch.scalars index with _ | ⟨scalar, slot⟩
      · exact absent bound
      · have filled := valid.scalars scalar (List.mem_of_getElem? (scalarAt_eq bound).1)
        exact .changedSize found ⟨scalar, slot, bound, by simpa using filled⟩

theorem copyNode_refuses (desc : Option MgCopyDesc) :
    Refuses exec (.copyNode nodeId desc) (mgGraphExecPatchCopyNode nodeId desc) := by
  apply patchTarget_refuses rfl
  intro position node found env
  refine Triple.orFail (fun copy given => ?_) fun other _ _ => .wrongKind found ?_
  · cases asCopy_eq_some.mp given
    rcases desc with _ | desc
    · exact fun _ _ => .missing rfl
    refine Triple.orFail (fun new contents => ?_) fun refused _ _ => ?_
    · refine requireFlagIf_refuses (requireFlagIf_refuses (.of_never ?_) ?_) ?_ env
      · exact onEnv_update_never (onEnv_update_never (onEnv_update_never
          (onEnv_update_never (storeNode_never _ _))))
      · exact fun changes fixed => .undeclared found ⟨new, contents, .inr ⟨changes, fixed⟩⟩
      · exact fun changes fixed => .undeclared found ⟨new, contents, .inl ⟨changes, fixed⟩⟩
    · exact .rejected found rfl (copy_rejected refused)
  · cases node <;> first | rfl | cases other

theorem fillNode_refuses (desc : Option MgFillDesc) :
    Refuses exec (.fillNode nodeId desc) (mgGraphExecPatchFillNode nodeId desc) := by
  apply patchTarget_refuses rfl
  intro position node found env
  refine Triple.orFail (fun fill given => ?_) fun other _ _ => .wrongKind found ?_
  · cases asFill_eq_some.mp given
    rcases desc with _ | desc
    · exact fun _ _ => .missing rfl
    refine Triple.orFail (fun new contents => ?_) fun refused _ _ => ?_
    · refine requireFlagIf_refuses (requireFlagIf_refuses (requireFlagIf_refuses
        (.of_never (swapBuffers_never _ _ _ _)) ?_) ?_) ?_ env
      · exact fun changes fixed => .undeclared found
          ⟨new, contents, .inr (.inr ⟨by simpa using changes, fixed⟩)⟩
      · exact fun changes fixed => .undeclared found
          ⟨new, contents, .inr (.inl ⟨changes, fixed⟩)⟩
      · exact fun changes fixed => .undeclared found
          ⟨new, contents, .inl ⟨by simpa using changes, fixed⟩⟩
    · exact .rejected found rfl (fill_rejected refused)
  · cases node <;> first | rfl | cases other

theorem eventValue_refuses (value : UInt64) :
    Refuses exec (.eventValue nodeId value) (mgGraphExecPatchEventValue nodeId value) := by
  apply patchTarget_refuses rfl
  intro position node found env
  refine Triple.orFail (fun event given => ?_) fun other _ _ => .wrongKind found ?_
  · apply Triple.require (fun _ => Refuses.of_never (storeNode_never _ _) env)
    intro fixed _ _
    have undeclared := not_not.mp fixed
    cases node with
    | eventWait node | eventSignal node =>
        cases given
        exact .undeclared found undeclared
    | _ => cases given
  · cases node <;> first | rfl | cases other

/-- Every patch of a node is refused for a listed reason only. -/
theorem ExecPatch.run_refuses (wf : ExecWf exec) (addressing : patch.nodeId ≠ none) :
    Refuses exec patch patch.run := by
  cases patch with
  | dispatchGrid nodeId grid => exact dispatchGrid_refuses wf grid
  | dispatchBuffer nodeId index buffer offset => exact dispatchBuffer_refuses wf index buffer offset
  | dispatchScalar nodeId index data => exact dispatchScalar_refuses wf index data
  | copyNode nodeId desc => exact copyNode_refuses desc
  | fillNode nodeId desc => exact fillNode_refuses desc
  | eventValue nodeId value => exact eventValue_refuses value
  | optimizationFlags flags => exact absurd rfl addressing

end Refusals

/-! ### Patching refines rebuilding -/

/-- A patch of a node does what adding and cloning the node again would do, and is refused
only for a listed reason. -/
structure PatchRefines (exec : MgGraphExec) (env : Env) (patch : ExecPatch) : Prop where
  rebuilt : (patch.run ⟨exec, env⟩).1 = .ok () →
    RebuiltAt exec patch (patch.run ⟨exec, env⟩).2.object
  refused : (patch.run ⟨exec, env⟩).1 ≠ .ok () → PatchRefusal exec patch

theorem patch_refines_rebuild {system : System} (reachable : Reachable system)
    {address : ExecPtr} {exec : MgGraphExec}
    (live : system.world.execs.get? address = some exec) (env : Env) {patch : ExecPatch}
    (addressing : patch.nodeId ≠ none) : PatchRefines exec env patch where
  rebuilt := by
    intro success
    have step : PatchStep exec env patch (patch.run ⟨exec, env⟩).2 :=
      ExecPatch.run_ok (Prod.ext success rfl)
    exact step.rebuilt (reachable.execWf live) (reachable.pipelinesLoaded live) addressing
  refused := by
    intro failed
    have ran := ExecPatch.run_refuses (reachable.execWf live) addressing env ⟨exec, env⟩ rfl
    rcases outcome : patch.run ⟨exec, env⟩ with ⟨reason | ⟨⟩, reached⟩ <;>
      simp only [outcome] at ran failed
    · exact ran
    · exact absurd rfl failed

/-! The grid of a kernel may grow up to the maximum that was declared for it. -/

def widerGrid (width : UInt32) : ExecPatch := .dispatchGrid 3 (some ⟨width, 1, 1⟩)

theorem patch_refines_rebuild_of_station :
    RebuiltAt (stationExec ⟨4, 1, 1⟩) (widerGrid 8) (stationExec ⟨8, 1, 1⟩) ∧
      PatchRefusal (stationExec ⟨4, 1, 1⟩) (widerGrid 9) := by
  constructor
  · have reached : ((widerGrid 8).run ⟨stationExec ⟨4, 1, 1⟩, stationEnv⟩).2.object =
        stationExec ⟨8, 1, 1⟩ := by decide +kernel
    rw [← reached]
    exact (patch_refines_rebuild stationRun_reachable station_planned stationEnv
      (by decide)).rebuilt (by decide +kernel)
  · exact (patch_refines_rebuild stationRun_reachable station_planned stationEnv
      (by decide)).refused (by decide +kernel)

end MetalGraph
