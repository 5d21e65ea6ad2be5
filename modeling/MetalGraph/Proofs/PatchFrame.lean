import MetalGraph.Proofs.ExecInvariant

set_option autoImplicit false

/- What patches leave alone: everything when they fail, and otherwise every field
whose flag is not declared. -/
namespace MetalGraph

open Eff

/-! ### Failed patches -/

/-- A patch that is not answered with OK leaves the plan, the reference counts and
everything else as they were. -/
theorem failed_patch_changes_nothing (world : World) (exec : Option ExecPtr) (patch : ExecPatch)
    (failed : statusOf ((Call.execPatch exec patch).eval world).1 ≠ some .ok) :
    ((Call.execPatch exec patch).eval world).2 = world := by
  cases exec with
  | none => rfl
  | some address =>
      rcases live : world.execs.get? address with _ | object
      · simp only [Call.eval, bind_apply, onExec_dead _ live]
      · simp only [Call.eval, bind_apply, onExec_apply _ live] at failed ⊢
        rcases ran : patch.run ⟨object, world.env⟩ with ⟨reason | ⟨⟩, reached⟩
        · have same := patch.run_failsClean _ _ _ ran
          subst same
          simp only [Slots.put_same live]
        · rw [ran] at failed
          exact absurd rfl failed

theorem failed_patch_of_mixed :
    ((Call.execPatch (some 0) (.eventValue 1 5)).eval (grantAll.run mixedCalls).world).2 =
      (grantAll.run mixedCalls).world :=
  failed_patch_changes_nothing _ _ _ (by decide +kernel)

/-! ### Fields under flags -/

structure BindingFrozen (flags : MgPatchFlags) (before after : MgBufferBinding) : Prop where
  index : after.index = before.index
  contents : flags &&& mgPatchDispatchBuffer = 0 → after = before

structure ScalarFrozen (flags : MgPatchFlags) (before after : MgScalarBinding) : Prop where
  index : after.index = before.index
  size : after.data.length = before.data.length
  contents : flags &&& mgPatchDispatchScalar = 0 → after.data = before.data

structure DispatchFrozen (before after : MgExecDispatch) : Prop where
  id : after.id = before.id
  patchFlags : after.patchFlags = before.patchFlags
  metallibPath : after.metallibPath = before.metallibPath
  kernelName : after.kernelName = before.kernelName
  pipelineImpl : after.pipelineImpl = before.pipelineImpl
  threads : after.threadsPerThreadgroup = before.threadsPerThreadgroup
  maxGridSize : after.maxGridSize = before.maxGridSize
  resources : after.resources = before.resources
  grid : before.patchFlags &&& mgPatchDispatchGrid = 0 → after.gridSize = before.gridSize
  buffers : List.Forall₂ (BindingFrozen before.patchFlags) before.buffers after.buffers
  scalars : List.Forall₂ (ScalarFrozen before.patchFlags) before.scalars after.scalars

/-- Buffers are compared as pointers. -/
structure CopyFrozen (before after : MgExecCopy) : Prop where
  id : after.id = before.id
  patchFlags : after.patchFlags = before.patchFlags
  buffers : before.patchFlags &&& mgPatchCopyBuffer = 0 →
    after.src.address = before.src.address ∧ after.dst.address = before.dst.address
  range : before.patchFlags &&& mgPatchCopyRange = 0 → after.srcOffset = before.srcOffset ∧
    after.dstOffset = before.dstOffset ∧ after.byteCount = before.byteCount

structure FillFrozen (before after : MgExecFill) : Prop where
  id : after.id = before.id
  patchFlags : after.patchFlags = before.patchFlags
  buffer : before.patchFlags &&& mgPatchFillBuffer = 0 →
    after.dst.address = before.dst.address
  range : before.patchFlags &&& mgPatchFillRange = 0 →
    after.dstOffset = before.dstOffset ∧ after.byteCount = before.byteCount
  value : before.patchFlags &&& mgPatchFillValue = 0 → after.value = before.value

structure EventFrozen (before after : MgExecEvent) : Prop where
  id : after.id = before.id
  patchFlags : after.patchFlags = before.patchFlags
  event : after.event = before.event
  value : before.patchFlags &&& mgPatchEventValue = 0 → after.value = before.value

/-- The kind is kept, and every field that no declared flag covers. -/
inductive NodeFrozen : MgExecNode → MgExecNode → Prop
  | same (node : MgExecNode) : NodeFrozen node node
  | dispatch {before after : MgExecDispatch} (frozen : DispatchFrozen before after) :
      NodeFrozen (.dispatch before) (.dispatch after)
  | copy {before after : MgExecCopy} (frozen : CopyFrozen before after) :
      NodeFrozen (.copy before) (.copy after)
  | fill {before after : MgExecFill} (frozen : FillFrozen before after) :
      NodeFrozen (.fill before) (.fill after)
  | eventWait {before after : MgExecEvent} (frozen : EventFrozen before after) :
      NodeFrozen (.eventWait before) (.eventWait after)
  | eventSignal {before after : MgExecEvent} (frozen : EventFrozen before after) :
      NodeFrozen (.eventSignal before) (.eventSignal after)

structure Frozen (before after : MgGraphExec) : Prop where
  nodes : List.Forall₂ NodeFrozen before.nodes after.nodes
  device : after.deviceImpl = before.deviceImpl
  workspace : after.workspace = before.workspace
  inFlight : after.inFlightCount = before.inFlightCount
  icb : { after.icb with enabledFlags := before.icb.enabledFlags } = before.icb

section Frozen

theorem bindingsFrozen_refl (flags : MgPatchFlags) (buffers : List MgBufferBinding) :
    List.Forall₂ (BindingFrozen flags) buffers buffers :=
  List.forall₂_same.mpr fun _ _ => ⟨rfl, fun _ => rfl⟩

theorem scalarsFrozen_refl (flags : MgPatchFlags) (scalars : List MgScalarBinding) :
    List.Forall₂ (ScalarFrozen flags) scalars scalars :=
  List.forall₂_same.mpr fun _ _ => ⟨rfl, rfl, fun _ => rfl⟩

theorem DispatchFrozen.trans {first second third : MgExecDispatch}
    (left : DispatchFrozen first second) (right : DispatchFrozen second third) :
    DispatchFrozen first third where
  id := right.id.trans left.id
  patchFlags := right.patchFlags.trans left.patchFlags
  metallibPath := right.metallibPath.trans left.metallibPath
  kernelName := right.kernelName.trans left.kernelName
  pipelineImpl := right.pipelineImpl.trans left.pipelineImpl
  threads := right.threads.trans left.threads
  maxGridSize := right.maxGridSize.trans left.maxGridSize
  resources := right.resources.trans left.resources
  grid := fun none => (right.grid (left.patchFlags ▸ none)).trans (left.grid none)
  buffers := by
    have later := right.buffers
    rw [left.patchFlags] at later
    exact forall₂_trans (fun _ _ _ head tail => ⟨tail.index.trans head.index,
      fun none => (tail.contents none).trans (head.contents none)⟩) left.buffers later
  scalars := by
    have later := right.scalars
    rw [left.patchFlags] at later
    exact forall₂_trans (fun _ _ _ head tail => ⟨tail.index.trans head.index,
      tail.size.trans head.size, fun none => (tail.contents none).trans (head.contents none)⟩)
      left.scalars later

theorem CopyFrozen.trans {first second third : MgExecCopy} (left : CopyFrozen first second)
    (right : CopyFrozen second third) : CopyFrozen first third where
  id := right.id.trans left.id
  patchFlags := right.patchFlags.trans left.patchFlags
  buffers := by
    intro none
    have head := left.buffers none
    have tail := right.buffers (left.patchFlags ▸ none)
    exact ⟨tail.1.trans head.1, tail.2.trans head.2⟩
  range := by
    intro none
    have head := left.range none
    have tail := right.range (left.patchFlags ▸ none)
    exact ⟨tail.1.trans head.1, tail.2.1.trans head.2.1, tail.2.2.trans head.2.2⟩

theorem FillFrozen.trans {first second third : MgExecFill} (left : FillFrozen first second)
    (right : FillFrozen second third) : FillFrozen first third where
  id := right.id.trans left.id
  patchFlags := right.patchFlags.trans left.patchFlags
  buffer := fun none => (right.buffer (left.patchFlags ▸ none)).trans (left.buffer none)
  range := by
    intro none
    have head := left.range none
    have tail := right.range (left.patchFlags ▸ none)
    exact ⟨tail.1.trans head.1, tail.2.trans head.2⟩
  value := fun none => (right.value (left.patchFlags ▸ none)).trans (left.value none)

theorem EventFrozen.trans {first second third : MgExecEvent} (left : EventFrozen first second)
    (right : EventFrozen second third) : EventFrozen first third where
  id := right.id.trans left.id
  patchFlags := right.patchFlags.trans left.patchFlags
  event := right.event.trans left.event
  value := fun none => (right.value (left.patchFlags ▸ none)).trans (left.value none)

theorem NodeFrozen.trans {first second third : MgExecNode} (left : NodeFrozen first second)
    (right : NodeFrozen second third) : NodeFrozen first third := by
  cases left with
  | same => exact right
  | dispatch head =>
      cases right with
      | same => exact .dispatch head
      | dispatch tail => exact .dispatch (head.trans tail)
  | copy head =>
      cases right with
      | same => exact .copy head
      | copy tail => exact .copy (head.trans tail)
  | fill head =>
      cases right with
      | same => exact .fill head
      | fill tail => exact .fill (head.trans tail)
  | eventWait head =>
      cases right with
      | same => exact .eventWait head
      | eventWait tail => exact .eventWait (head.trans tail)
  | eventSignal head =>
      cases right with
      | same => exact .eventSignal head
      | eventSignal tail => exact .eventSignal (head.trans tail)

theorem Frozen.refl (exec : MgGraphExec) : Frozen exec exec where
  nodes := List.forall₂_same.mpr fun node _ => .same node
  device := rfl
  workspace := rfl
  inFlight := rfl
  icb := rfl

theorem Frozen.trans {first second third : MgGraphExec} (left : Frozen first second)
    (right : Frozen second third) : Frozen first third where
  nodes := by
    have joined : ∀ a b c, NodeFrozen a b → NodeFrozen b c → NodeFrozen a c :=
      fun _ _ _ => NodeFrozen.trans
    exact forall₂_trans joined left.nodes right.nodes
  device := right.device.trans left.device
  workspace := right.workspace.trans left.workspace
  inFlight := right.inFlight.trans left.inFlight
  icb := by
    have plan := congrArg (fun icb => { icb with enabledFlags := first.icb.enabledFlags })
      right.icb
    exact plan.trans left.icb

theorem frozen_stored {exec : MgGraphExec} {position : Nat} {old fresh : MgExecNode}
    (present : exec.nodes[position]? = some old) (frozen : NodeFrozen old fresh) :
    Frozen exec (exec.stored position fresh) where
  nodes := forall₂_set .same present frozen
  device := rfl
  workspace := rfl
  inFlight := rfl
  icb := rfl

end Frozen

/-! ### Patches -/

section Patches

variable {exec : MgGraphExec} {env : Env} {patch : ExecPatch} {reached : Focus MgGraphExec}

theorem bindingsFrozen_set {flags : MgPatchFlags} {buffers : List MgBufferBinding} {slot : Nat}
    {binding : MgBufferBinding} (present : buffers[slot]? = some binding)
    (declared : flags &&& mgPatchDispatchBuffer ≠ 0) (buffer : MgBuffer) (offset : UInt64) :
    List.Forall₂ (BindingFrozen flags) buffers
      (buffers.set slot { binding with buffer := buffer, offset := offset }) :=
  forall₂_set (fun _ => ⟨rfl, fun _ => rfl⟩) present ⟨rfl, fun none => absurd none declared⟩

theorem scalarsFrozen_set {flags : MgPatchFlags} {scalars : List MgScalarBinding} {slot : Nat}
    {scalar : MgScalarBinding} {data : List UInt8} (present : scalars[slot]? = some scalar)
    (declared : flags &&& mgPatchDispatchScalar ≠ 0) (same : scalar.data.length = data.length) :
    List.Forall₂ (ScalarFrozen flags) scalars (scalars.set slot { scalar with data := data }) :=
  forall₂_set (fun _ => ⟨rfl, rfl, fun _ => rfl⟩) present
    ⟨rfl, same.symm, fun none => absurd none declared⟩

theorem CopyFrozen.of_checks {copy : MgExecCopy} {new : MgCopyNode}
    (buffers : copy.changesBuffer new = true → copy.patchFlags &&& mgPatchCopyBuffer ≠ 0)
    (ranges : copy.changesRange new = true → copy.patchFlags &&& mgPatchCopyRange ≠ 0) :
    CopyFrozen copy { copy with toMgCopyNode := new } where
  id := rfl
  patchFlags := rfl
  buffers := by
    intro none
    have kept : ¬ copy.changesBuffer new = true := fun changes => buffers changes none
    simpa [MgExecCopy.changesBuffer] using kept
  range := by
    intro none
    have kept : ¬ copy.changesRange new = true := fun changes => ranges changes none
    simpa [MgExecCopy.changesRange, and_assoc] using kept

theorem FillFrozen.of_checks {fill : MgExecFill} {new : MgFillNode}
    (buffers : (new.dst.address != fill.dst.address) = true →
      fill.patchFlags &&& mgPatchFillBuffer ≠ 0)
    (ranges : fill.changesRange new = true → fill.patchFlags &&& mgPatchFillRange ≠ 0)
    (values : (new.value != fill.value) = true → fill.patchFlags &&& mgPatchFillValue ≠ 0) :
    FillFrozen fill { fill with toMgFillNode := new } where
  id := rfl
  patchFlags := rfl
  buffer := by
    intro none
    have kept : ¬ (new.dst.address != fill.dst.address) = true := fun changes =>
      buffers changes none
    simpa using kept
  range := by
    intro none
    have kept : ¬ fill.changesRange new = true := fun changes => ranges changes none
    simpa [MgExecFill.changesRange] using kept
  value := by
    intro none
    have kept : ¬ (new.value != fill.value) = true := fun changes => values changes none
    simpa using kept

theorem PatchStep.frozen (step : PatchStep exec env patch reached) :
    Frozen exec reached.object := by
  cases step with
  | dispatchGrid target valid within =>
      refine frozen_stored target.target.present (.dispatch ?_)
      exact ⟨rfl, rfl, rfl, rfl, rfl, rfl, rfl, rfl, fun none => absurd none target.declared,
        bindingsFrozen_refl _ _, scalarsFrozen_refl _ _⟩
  | dispatchBuffer target fits bound valid =>
      refine frozen_stored target.target.present (.dispatch ?_)
      exact ⟨rfl, rfl, rfl, rfl, rfl, rfl, rfl, rfl, fun _ => rfl,
        bindingsFrozen_set (bindingAt_eq bound).1 target.declared _ _, scalarsFrozen_refl _ _⟩
  | dispatchScalar target filled bound same =>
      refine frozen_stored target.target.present (.dispatch ?_)
      exact ⟨rfl, rfl, rfl, rfl, rfl, rfl, rfl, rfl, fun _ => rfl, bindingsFrozen_refl _ _,
        scalarsFrozen_set (scalarAt_eq bound).1 target.declared same⟩
  | copyNode target given buffers ranges =>
      exact frozen_stored target.present (.copy (.of_checks buffers ranges))
  | fillNode target given buffers ranges values =>
      exact frozen_stored target.present (.fill (.of_checks buffers ranges values))
  | @eventValue nodeId position node event value target given declared =>
      have frozen : EventFrozen event { event with value := value } :=
        ⟨rfl, rfl, rfl, fun none => absurd none declared⟩
      have present := target.present
      cases node with
      | eventWait node =>
          cases given
          exact frozen_stored present (.eventWait frozen)
      | eventSignal node =>
          cases given
          exact frozen_stored present (.eventSignal frozen)
      | _ => cases given
  | optimizationFlags idle known => exact { Frozen.refl exec with icb := rfl }

/-- The node a patch addresses. -/
def ExecPatch.nodeId : ExecPatch → Option MgNodeId
  | .dispatchGrid nodeId _ | .dispatchBuffer nodeId _ _ _ | .dispatchScalar nodeId _ _
  | .copyNode nodeId _ | .fillNode nodeId _ | .eventValue nodeId _ => some nodeId
  | .optimizationFlags _ => none

/-- The patch finds its node at this position. -/
def ExecPatch.Addresses (patch : ExecPatch) (exec : MgGraphExec) (position : Nat) : Prop :=
  ∃ nodeId node, patch.nodeId = some nodeId ∧
    mgPatchFindNode exec.nodes nodeId = .ok (position, node)

theorem Target.addresses {nodeId : MgNodeId} {position : Nat} {node : MgExecNode}
    (target : Target exec nodeId position node) (named : patch.nodeId = some nodeId) :
    patch.Addresses exec position := ⟨nodeId, node, named, target.found⟩

theorem stored_elsewhere {position : Nat} (fresh : MgExecNode) {other : Nat}
    (addressed : patch.Addresses exec position) :
    (exec.stored position fresh).nodes[other]? = exec.nodes[other]? ∨
      patch.Addresses exec other := by
  by_cases here : other = position
  · exact .inr (here ▸ addressed)
  · left
    simp only [MgGraphExec.stored]
    rw [List.getElem?_set_ne (Ne.symm here)]

theorem PatchStep.elsewhere (step : PatchStep exec env patch reached) (position : Nat) :
    reached.object.nodes[position]? = exec.nodes[position]? ∨ patch.Addresses exec position := by
  cases step with
  | dispatchGrid target | dispatchBuffer target | dispatchScalar target =>
      exact stored_elsewhere _ (target.target.addresses rfl)
  | copyNode target | fillNode target | eventValue target =>
      exact stored_elsewhere _ (target.addresses rfl)
  | optimizationFlags => exact .inl rfl

theorem PatchStep.icb_kept (step : PatchStep exec env patch reached)
    (other : ∀ flags, patch ≠ .optimizationFlags flags) : reached.object.icb = exec.icb := by
  cases step with
  | optimizationFlags => exact absurd rfl (other _)
  | dispatchGrid | dispatchBuffer | dispatchScalar | copyNode | fillNode | eventValue => rfl

end Patches

/-- A sequence of patches, each of which may fail. -/
def runPatches : List ExecPatch → Focus MgGraphExec → Focus MgGraphExec
  | [], focus => focus
  | patch :: rest, focus => runPatches rest (patch.run focus).2

theorem runPatches_cases {property : MgGraphExec → Prop}
    {patches : List ExecPatch} (step : ∀ exec env patch reached, patch ∈ patches → property exec →
      PatchStep exec env patch reached → property reached.object)
    {focus : Focus MgGraphExec} (start : property focus.object) :
    property (runPatches patches focus).object := by
  induction patches generalizing focus with
  | nil => exact start
  | cons patch rest ih =>
      refine ih (fun exec env other reached member => step exec env other reached (.tail _ member))
        ?_
      rcases ran : patch.run focus with ⟨result, reached⟩
      rcases ExecPatch.run_cases ran with ⟨_, stepped⟩ | unchanged
      · exact step _ _ _ _ (.head _) start stepped
      · exact unchanged ▸ start

/-- Whatever patches are tried on a plan, only fields whose flags are declared change;
the indirect plan changes only by its flags, and each patch changes only the node it finds. -/
theorem unflagged_fields_frozen (exec : MgGraphExec) (env : Env) (patches : List ExecPatch) :
    Frozen exec (runPatches patches ⟨exec, env⟩).object ∧
      ((∀ flags, .optimizationFlags flags ∉ patches) →
        (runPatches patches ⟨exec, env⟩).object.icb = exec.icb) ∧
      ∀ (patch : ExecPatch) (position : Nat),
        (patch.run (runPatches patches ⟨exec, env⟩)).2.object.nodes[position]? =
            (runPatches patches ⟨exec, env⟩).object.nodes[position]? ∨
          patch.Addresses (runPatches patches ⟨exec, env⟩).object position := by
  refine ⟨?_, fun unflagged => ?_, fun patch position => ?_⟩
  · exact runPatches_cases (fun _ _ _ _ _ earlier step => earlier.trans step.frozen) (.refl exec)
  · have kept : ∀ before env patch reached, patch ∈ patches → before.icb = exec.icb →
        PatchStep before env patch reached → reached.object.icb = exec.icb := by
      intro before env patch reached member earlier step
      exact (step.icb_kept fun flags same => unflagged flags (same ▸ member)).trans earlier
    exact runPatches_cases kept rfl
  · rcases ran : patch.run (runPatches patches ⟨exec, env⟩) with ⟨result, reached⟩
    rcases ExecPatch.run_cases ran with ⟨_, stepped⟩ | unchanged
    · exact stepped.elsewhere position
    · exact .inl (by rw [unchanged])

end MetalGraph
