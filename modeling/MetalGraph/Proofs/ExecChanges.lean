import MetalGraph.Model.System
import MetalGraph.Proofs.NodeLookup

set_option autoImplicit false

/- What a patch does to a plan: one field of one node, or nothing at all. -/
namespace MetalGraph

open Eff

def MgGraphExec.stored (exec : MgGraphExec) (position : Nat) (node : MgExecNode) : MgGraphExec :=
  { exec with nodes := exec.nodes.set position node }

/-- A patch of an idle plan that finds its node. -/
structure Target (exec : MgGraphExec) (nodeId : MgNodeId) (position : Nat) (node : MgExecNode) :
    Prop where
  idle : exec.inFlightCount = 0
  found : mgPatchFindNode exec.nodes nodeId = .ok (position, node)

/-- The node is a dispatch whose field under `flag` may be patched. -/
structure DispatchTarget (exec : MgGraphExec) (nodeId : MgNodeId) (flag : MgPatchFlags)
    (position : Nat) (dispatch : MgExecDispatch) : Prop where
  target : Target exec nodeId position (.dispatch dispatch)
  declared : dispatch.patchFlags &&& flag ≠ 0

/-- The first binding with this index, and its position. -/
def bindingAt (buffers : List MgBufferBinding) (index : UInt32) : Option (MgBufferBinding × Nat) :=
  buffers.zipIdx.find? fun entry => entry.1.index == index

def scalarAt (scalars : List MgScalarBinding) (index : UInt32) : Option (MgScalarBinding × Nat) :=
  scalars.zipIdx.find? fun entry => entry.1.index == index

/-- Takes a reference to one object and gives up one to another. -/
def Env.swapped (env : Env) (taken given : Nat) : Env :=
  { env with heap := env.heap.retain taken }.release given

/-- Every way in which a patch can succeed. -/
inductive PatchStep (exec : MgGraphExec) (env : Env) : ExecPatch → Focus MgGraphExec → Prop
  | dispatchGrid {nodeId : MgNodeId} {position : Nat} {dispatch : MgExecDispatch} {grid : Dims}
      (target : DispatchTarget exec nodeId mgPatchDispatchGrid position dispatch)
      (valid : mgDimsValid grid = true) (within : gridWithin grid dispatch.maxGridSize = true) :
      PatchStep exec env (.dispatchGrid nodeId (some grid))
        ⟨exec.stored position (.dispatch { dispatch with gridSize := grid }), env⟩
  | dispatchBuffer {nodeId : MgNodeId} {position : Nat} {dispatch : MgExecDispatch}
      {index : UInt32} {buffer : MgBuffer} {offset : UInt64} {binding : MgBufferBinding}
      {slot : Nat} (target : DispatchTarget exec nodeId mgPatchDispatchBuffer position dispatch)
      (fits : offset ≤ buffer.length)
      (bound : bindingAt dispatch.buffers index = some (binding, slot))
      (valid : rebindable dispatch.toMgDispatchNode nodeId index buffer offset = .ok ())
      (device : differentDevices exec.deviceImpl buffer.deviceImpl = false) :
      PatchStep exec env (.dispatchBuffer nodeId index (some buffer) offset)
        ⟨exec.stored position (.dispatch { dispatch with
            buffers := dispatch.buffers.set slot
              { binding with buffer := buffer, offset := offset } }),
          env.swapped buffer.address binding.buffer.address⟩
  | dispatchScalar {nodeId : MgNodeId} {position : Nat} {dispatch : MgExecDispatch}
      {index : UInt32} {data : List UInt8} {scalar : MgScalarBinding} {slot : Nat}
      (target : DispatchTarget exec nodeId mgPatchDispatchScalar position dispatch)
      (filled : data ≠ []) (bound : scalarAt dispatch.scalars index = some (scalar, slot))
      (same : scalar.data.length = data.length) :
      PatchStep exec env (.dispatchScalar nodeId index (some data))
        ⟨exec.stored position (.dispatch { dispatch with
            scalars := dispatch.scalars.set slot { scalar with data := data } }), env⟩
  | copyNode {nodeId : MgNodeId} {position : Nat} {copy : MgExecCopy} {desc : MgCopyDesc}
      {new : MgCopyNode} (target : Target exec nodeId position (.copy copy))
      (given : copyContents mgPatchRangeValid desc = some new)
      (buffers : copy.changesBuffer new = true → copy.patchFlags &&& mgPatchCopyBuffer ≠ 0)
      (ranges : copy.changesRange new = true → copy.patchFlags &&& mgPatchCopyRange ≠ 0) :
      PatchStep exec env (.copyNode nodeId (some desc))
        ⟨exec.stored position (.copy { copy with toMgCopyNode := new }),
          { env with heap := (env.heap.retain new.src.address).retain new.dst.address }.release
            copy.src.address |>.release copy.dst.address⟩
  | fillNode {nodeId : MgNodeId} {position : Nat} {fill : MgExecFill} {desc : MgFillDesc}
      {new : MgFillNode} (target : Target exec nodeId position (.fill fill))
      (given : fillContents mgPatchRangeValid desc = some new)
      (buffers : (new.dst.address != fill.dst.address) = true →
        fill.patchFlags &&& mgPatchFillBuffer ≠ 0)
      (ranges : fill.changesRange new = true → fill.patchFlags &&& mgPatchFillRange ≠ 0)
      (values : (new.value != fill.value) = true → fill.patchFlags &&& mgPatchFillValue ≠ 0) :
      PatchStep exec env (.fillNode nodeId (some desc))
        ⟨exec.stored position (.fill { fill with toMgFillNode := new }),
          env.swapped new.dst.address fill.dst.address⟩
  | eventValue {nodeId : MgNodeId} {position : Nat} {node : MgExecNode} {event : MgExecEvent}
      {value : UInt64} (target : Target exec nodeId position node)
      (given : asEvent node = some event)
      (declared : event.patchFlags &&& mgPatchEventValue ≠ 0) :
      PatchStep exec env (.eventValue nodeId value)
        ⟨exec.stored position (node.withEvent { event with value := value }), env⟩
  | optimizationFlags {flags : MgOptimizationFlags} (idle : exec.inFlightCount = 0)
      (known : flags &&& ~~~mgOptimizationIcb = 0) :
      PatchStep exec env (.optimizationFlags flags)
        ⟨{ exec with icb := { exec.icb with enabledFlags := flags } }, env⟩

section Success

variable {exec : MgGraphExec} {env : Env} {focus reached : Focus MgGraphExec} {nodeId : MgNodeId}

theorem mgPatchReady_ok {result : Unit} :
    mgPatchReady focus = (.ok result, reached) ↔
      focus.object.inFlightCount = 0 ∧ focus = reached := by
  simp only [mgPatchReady, bind_ok, self_apply, require_ok]
  constructor
  · rintro ⟨_, _, same, ready, rfl⟩
    cases same
    exact ⟨by simpa [UInt32.not_lt] using ready, rfl⟩
  · rintro ⟨idle, rfl⟩
    exact ⟨focus.object, focus, rfl, by simp [idle], rfl⟩

theorem patchTarget_ok {position : Nat} {node : MgExecNode} :
    patchTarget nodeId focus = (.ok (position, node), reached) ↔
      Target focus.object nodeId position node ∧ focus = reached := by
  simp only [patchTarget, bind_ok, mgPatchReady_ok, self_apply, ofExcept_ok]
  constructor
  · rintro ⟨_, _, ⟨idle, rfl⟩, _, _, same, found, rfl⟩
    cases same
    exact ⟨⟨idle, found⟩, rfl⟩
  · rintro ⟨target, rfl⟩
    exact ⟨(), focus, ⟨target.idle, rfl⟩, focus.object, focus, rfl, target.found, rfl⟩

theorem asDispatch_eq_some {node : MgExecNode} {dispatch : MgExecDispatch} :
    asDispatch node = some dispatch ↔ node = .dispatch dispatch := by
  cases node <;> simp [asDispatch]

theorem asCopy_eq_some {node : MgExecNode} {copy : MgExecCopy} :
    asCopy node = some copy ↔ node = .copy copy := by
  cases node <;> simp [asCopy]

theorem asFill_eq_some {node : MgExecNode} {fill : MgExecFill} :
    asFill node = some fill ↔ node = .fill fill := by
  cases node <;> simp [asFill]

theorem mgPatchRequireFlag_ok {σ : Type} {flags required : MgPatchFlags} {result : Unit}
    {state after : σ} :
    mgPatchRequireFlag flags required nodeId state = (.ok result, after) ↔
      flags &&& required ≠ 0 ∧ state = after := require_ok

theorem requireFlagIf_ok {σ : Type} {changes : Bool} {flags required : MgPatchFlags}
    {result : Unit} {state after : σ} :
    requireFlagIf changes flags required nodeId state = (.ok result, after) ↔
      (changes = true → flags &&& required ≠ 0) ∧ state = after := by
  cases changes
  · simp [requireFlagIf]
  · simp [requireFlagIf, mgPatchRequireFlag_ok]

theorem dispatchTarget_ok {flag : MgPatchFlags} {position : Nat} {dispatch : MgExecDispatch} :
    dispatchTarget nodeId flag focus = (.ok (position, dispatch), reached) ↔
      DispatchTarget focus.object nodeId flag position dispatch ∧ focus = reached := by
  simp only [dispatchTarget, bind_ok, orFail_ok, mgPatchRequireFlag_ok, pure_ok]
  constructor
  · rintro ⟨⟨position', node⟩, _, addressed, dispatch', _, ⟨given, rfl⟩, _, _, ⟨declared, rfl⟩,
      same, rfl⟩
    obtain ⟨target, rfl⟩ := patchTarget_ok.mp addressed
    cases same
    cases asDispatch_eq_some.mp given
    exact ⟨⟨target, declared⟩, rfl⟩
  · rintro ⟨⟨target, declared⟩, rfl⟩
    exact ⟨_, _, patchTarget_ok.mpr ⟨target, rfl⟩, dispatch, _, ⟨rfl, rfl⟩, (), _,
      ⟨declared, rfl⟩, rfl, rfl⟩

theorem storeNode_ok {position : Nat} {node : MgExecNode} {result : Unit} :
    storeNode position node focus = (.ok result, reached) ↔
      reached = ⟨focus.object.stored position node, focus.env⟩ := by
  simp only [storeNode, modifySelf_apply, Prod.mk.injEq, true_and, MgGraphExec.stored]
  exact eq_comm

theorem onEnv_update_ok {change : Env → Env} {result : Unit} :
    (onEnv (update change) : Over MgGraphExec Unit) focus = (.ok result, reached) ↔
      reached = ⟨focus.object, change focus.env⟩ := by
  simp only [onEnv_apply, update_apply, Prod.mk.injEq, true_and]
  exact eq_comm

/-- Every patch that succeeds is one of the listed steps. -/
theorem ExecPatch.run_ok {patch : ExecPatch} {result : Unit}
    (success : patch.run ⟨exec, env⟩ = (.ok result, reached)) :
    PatchStep exec env patch reached := by
  cases patch with
  | dispatchGrid nodeId gridSize =>
      simp only [ExecPatch.run, mgGraphExecPatchDispatchGrid, bind_ok, orFail_ok, require_ok,
        storeNode_ok] at success
      obtain ⟨⟨position, dispatch⟩, _, addressed, _, _, ⟨valid, rfl⟩, grid, _, ⟨rfl, rfl⟩, _, _,
        ⟨within, rfl⟩, rfl⟩ := success
      obtain ⟨target, rfl⟩ := dispatchTarget_ok.mp addressed
      exact .dispatchGrid target valid within
  | dispatchBuffer nodeId index buffer offset =>
      simp only [ExecPatch.run, mgGraphExecPatchDispatchBuffer, bind_ok, orFail_ok, require_ok,
        self_apply] at success
      obtain ⟨⟨position, dispatch⟩, _, addressed, buffer, _, ⟨rfl, rfl⟩, _, _, ⟨fits, rfl⟩, exec',
        _, same, _, _, ⟨device, rfl⟩, changed⟩ := success
      obtain ⟨target, rfl⟩ := dispatchTarget_ok.mp addressed
      cases same
      rcases bound : dispatch.buffers.zipIdx.find? fun entry => entry.1.index == index with
        _ | ⟨binding, slot⟩ <;> simp only [bound] at changed
      · simp at changed
      · simp only [bind_ok, ofExcept_ok, mgBufferRetain, mgBufferRelease, retainObject,
          releaseObject, onEnv_update_ok, storeNode_ok] at changed
        obtain ⟨_, _, ⟨valid, rfl⟩, _, _, rfl, _, _, rfl, rfl⟩ := changed
        exact .dispatchBuffer target (UInt64.not_lt.mp fits) bound valid device
  | dispatchScalar nodeId index data =>
      simp only [ExecPatch.run, mgGraphExecPatchDispatchScalar, bind_ok, orFail_ok] at success
      obtain ⟨⟨position, dispatch⟩, _, addressed, data, _, ⟨given, rfl⟩, changed⟩ := success
      obtain ⟨target, rfl⟩ := dispatchTarget_ok.mp addressed
      obtain ⟨rfl, filled⟩ := Option.filter_eq_some_iff.mp given
      rcases bound : dispatch.scalars.zipIdx.find? fun entry => entry.1.index == index with
        _ | ⟨scalar, slot⟩ <;> simp only [bound] at changed
      · simp at changed
      · simp only [bind_ok, require_ok, storeNode_ok] at changed
        obtain ⟨_, _, ⟨same, rfl⟩, rfl⟩ := changed
        exact .dispatchScalar target (by simpa using filled) bound same
  | copyNode nodeId desc =>
      simp only [ExecPatch.run, mgGraphExecPatchCopyNode, bind_ok, orFail_ok, requireFlagIf_ok,
        mgBufferRetain, mgBufferRelease, retainObject, releaseObject, onEnv_update_ok,
        storeNode_ok, Option.bind_eq_some_iff] at success
      obtain ⟨⟨position, node⟩, _, addressed, copy, _, ⟨found, rfl⟩, new, _,
        ⟨⟨desc, rfl, given⟩, rfl⟩, _, _, ⟨buffers, rfl⟩, _, _, ⟨ranges, rfl⟩, _, _, rfl, _, _, rfl,
        _, _, rfl, _, _, rfl, rfl⟩ := success
      obtain ⟨target, rfl⟩ := patchTarget_ok.mp addressed
      cases asCopy_eq_some.mp found
      exact .copyNode target given buffers ranges
  | fillNode nodeId desc =>
      simp only [ExecPatch.run, mgGraphExecPatchFillNode, bind_ok, orFail_ok, requireFlagIf_ok,
        mgBufferRetain, mgBufferRelease, retainObject, releaseObject, onEnv_update_ok,
        storeNode_ok, Option.bind_eq_some_iff] at success
      obtain ⟨⟨position, node⟩, _, addressed, fill, _, ⟨found, rfl⟩, new, _,
        ⟨⟨desc, rfl, given⟩, rfl⟩, _, _, ⟨buffers, rfl⟩, _, _, ⟨ranges, rfl⟩, _, _, ⟨values, rfl⟩,
        _, _, rfl, _, _, rfl, rfl⟩ := success
      obtain ⟨target, rfl⟩ := patchTarget_ok.mp addressed
      cases asFill_eq_some.mp found
      exact .fillNode target given buffers ranges values
  | eventValue nodeId value =>
      simp only [ExecPatch.run, mgGraphExecPatchEventValue, bind_ok, orFail_ok,
        mgPatchRequireFlag_ok, storeNode_ok] at success
      obtain ⟨⟨position, node⟩, _, addressed, event, _, ⟨given, rfl⟩, _, _, ⟨declared, rfl⟩,
        rfl⟩ := success
      obtain ⟨target, rfl⟩ := patchTarget_ok.mp addressed
      exact .eventValue target given declared
  | optimizationFlags flags =>
      simp only [ExecPatch.run, mgGraphExecSetOptimizationFlags, bind_ok, mgPatchReady_ok,
        require_ok, modifySelf_apply] at success
      obtain ⟨_, _, ⟨idle, rfl⟩, _, _, ⟨known, rfl⟩, changed⟩ := success
      cases changed
      exact .optimizationFlags idle known

end Success

/-! ### Failed patches -/

section Failure

variable {nodeId : MgNodeId}

theorem self_readOnly {τ : Type} : ReadOnly (self : Over τ τ) := fun _ => rfl

theorem patchTarget_readOnly : ReadOnly (patchTarget nodeId) :=
  .bind (.bind self_readOnly fun _ => .require) fun _ => .bind self_readOnly fun _ => .ofExcept

theorem dispatchTarget_readOnly (flag : MgPatchFlags) : ReadOnly (dispatchTarget nodeId flag) :=
  .bind patchTarget_readOnly fun _ => .bind .orFail fun _ => .bind .require fun _ => .pure _

theorem requireFlagIf_readOnly {σ : Type} (changes : Bool) (flags required : MgPatchFlags) :
    ReadOnly (requireFlagIf changes flags required nodeId : Eff σ Fault Unit) := by
  cases changes
  · exact .pure ()
  · exact .require

theorem storeNode_never (position : Nat) (node : MgExecNode) :
    FailsOnly (fun _ => False) (storeNode position node) := .update _

/-- Retains, releases and stores do not fail. -/
theorem onEnv_update_never {change : Env → Env} {next : Unit → Over MgGraphExec Unit}
    (rest : FailsOnly (fun _ => False) (next ())) :
    FailsOnly (fun _ => False) (onEnv (update change) >>= next) :=
  .bind (fun _ _ _ stopped => by cases stopped) fun _ _ _ _ => rest

theorem swapBuffers_never (taken given : MgBuffer) (position : Nat) (node : MgExecNode) :
    FailsOnly (fun _ => False) (do
      onEnv (mgBufferRetain taken)
      onEnv (mgBufferRelease given)
      storeNode position node) :=
  onEnv_update_never (onEnv_update_never (storeNode_never position node))

theorem ExecPatch.run_failsClean (patch : ExecPatch) : FailsClean patch.run := by
  cases patch with
  | dispatchGrid nodeId gridSize =>
      exact .bind (dispatchTarget_readOnly _) fun _ => .bind .require fun _ =>
        .bind .orFail fun _ => .bind .require fun _ => .of_fails (storeNode_never _ _)
  | dispatchBuffer nodeId index buffer offset =>
      refine .bind (dispatchTarget_readOnly _) fun _ => .bind .orFail fun _ =>
        .bind .require fun _ => .bind self_readOnly fun _ => .bind .require fun _ => ?_
      split
      · exact .of_readOnly fun _ => rfl
      · exact .bind .ofExcept fun _ =>
          .of_fails (swapBuffers_never _ _ _ _)
  | dispatchScalar nodeId index data =>
      refine .bind (dispatchTarget_readOnly _) fun _ => .bind .orFail fun _ => ?_
      split
      · exact .of_readOnly fun _ => rfl
      · exact .bind .require fun _ => .of_fails (storeNode_never _ _)
  | copyNode nodeId desc =>
      exact .bind patchTarget_readOnly fun _ => .bind .orFail fun _ => .bind .orFail fun _ =>
        .bind (requireFlagIf_readOnly _ _ _) fun _ => .bind (requireFlagIf_readOnly _ _ _) fun _ =>
        .of_fails (onEnv_update_never (onEnv_update_never (onEnv_update_never
          (onEnv_update_never (storeNode_never _ _)))))
  | fillNode nodeId desc =>
      exact .bind patchTarget_readOnly fun _ => .bind .orFail fun _ => .bind .orFail fun _ =>
        .bind (requireFlagIf_readOnly _ _ _) fun _ => .bind (requireFlagIf_readOnly _ _ _) fun _ =>
        .bind (requireFlagIf_readOnly _ _ _) fun _ => .of_fails (swapBuffers_never _ _ _ _)
  | eventValue nodeId value =>
      exact .bind patchTarget_readOnly fun _ => .bind .orFail fun _ => .bind .require fun _ =>
        .of_fails (storeNode_never _ _)
  | optimizationFlags flags =>
      exact .bind (.bind self_readOnly fun _ => .require) fun _ => .bind .require fun _ =>
        .of_fails (.update _)

/-- A patch is one of the listed steps, or changes nothing. -/
theorem ExecPatch.run_cases {patch : ExecPatch} {exec : MgGraphExec} {env : Env}
    {result : Except Fault Unit} {reached : Focus MgGraphExec}
    (ran : patch.run ⟨exec, env⟩ = (result, reached)) :
    (result = .ok () ∧ PatchStep exec env patch reached) ∨ reached = ⟨exec, env⟩ := by
  cases result with
  | ok result => exact .inl ⟨rfl, ExecPatch.run_ok ran⟩
  | error reason => exact .inr (patch.run_failsClean _ _ _ ran)

end Failure

end MetalGraph
