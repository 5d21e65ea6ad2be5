import MetalGraph.Proofs.EncodeLoop
import MetalGraph.Proofs.GraphOwnership
import MetalGraph.Proofs.PatchFrame

set_option autoImplicit false

/- Which device the buffers of a plan belong to. Patches of dispatch bindings check the
replacement buffer; patches of copies and fills do not. -/
namespace MetalGraph

open Eff

/-! ### Buffers of a plan -/

/-- The device of the buffer is unknown or is this one. -/
def OnDevice (device : Option Nat) (buffer : MgBuffer) : Prop :=
  buffer.deviceImpl = none ∨ buffer.deviceImpl = device

def SingleDevice (exec : MgGraphExec) : Prop :=
  ∀ node ∈ exec.nodes, ∀ buffer ∈ node.buffers, OnDevice exec.deviceImpl buffer

/-- The buffers that a copy or fill patch brings in are on this device. -/
def ExecPatch.BringsOwn (device : Option Nat) : ExecPatch → Prop
  | .copyNode _ (some desc) => ∀ buffer, desc.src = some buffer ∨ desc.dst = some buffer →
      OnDevice device buffer
  | .fillNode _ (some desc) => ∀ buffer, desc.dst = some buffer → OnDevice device buffer
  | _ => True

section Patches

variable {exec : MgGraphExec} {env : Env} {patch : ExecPatch} {reached : Focus MgGraphExec}

theorem onDevice_of_same {device : Nat} {buffer : MgBuffer}
    (same : differentDevices (some device) buffer.deviceImpl = false) :
    OnDevice (some device) buffer := by
  rcases other : buffer.deviceImpl with _ | found
  · exact .inl other
  · right
    rw [other] at same
    simp only [differentDevices, Option.isSome_some, Bool.true_and, bne_eq_false_iff_eq] at same
    exact other.trans same.symm

theorem SingleDevice.stored {position : Nat} {node : MgExecNode} (single : SingleDevice exec)
    (own : ∀ buffer ∈ node.buffers, OnDevice exec.deviceImpl buffer) :
    SingleDevice (exec.stored position node) := by
  intro other member
  rcases List.mem_or_eq_of_mem_set member with old | new
  · exact single other old
  · exact new ▸ own

theorem SingleDevice.bindings {dispatch : MgExecDispatch} (single : SingleDevice exec)
    (member : .dispatch dispatch ∈ exec.nodes) {binding : MgBufferBinding}
    (bound : binding ∈ dispatch.buffers) : OnDevice exec.deviceImpl binding.buffer :=
  single _ member _ (List.mem_map_of_mem bound)

theorem Target.mem {nodeId : MgNodeId} {position : Nat} {node : MgExecNode}
    (target : Target exec nodeId position node) : node ∈ exec.nodes :=
  List.mem_of_getElem? target.present

theorem Target.stored_single {nodeId : MgNodeId} {position : Nat} {node fresh : MgExecNode}
    (target : Target exec nodeId position node) (single : SingleDevice exec) :
    SingleDevice (exec.stored position fresh) ↔
      ∀ buffer ∈ fresh.buffers, OnDevice exec.deviceImpl buffer := by
  constructor
  · intro after buffer member
    have position := (List.getElem?_eq_some_iff.mp target.present).1
    exact after fresh (List.mem_set position fresh) buffer member
  · exact single.stored

/-- A successful patch keeps a plan on its device exactly when it brings in no buffer of
another device through a copy or a fill. -/
theorem PatchStep.singleDevice_iff {device : Nat} (known : exec.deviceImpl = some device)
    (single : SingleDevice exec) (step : PatchStep exec env patch reached) :
    SingleDevice reached.object ↔ patch.BringsOwn exec.deviceImpl := by
  cases step with
  | dispatchGrid target | dispatchScalar target =>
      rw [target.target.stored_single single]
      exact iff_of_true (fun buffer => single _ target.target.mem buffer) trivial
  | dispatchBuffer target fits bound valid device =>
      rw [target.target.stored_single single]
      refine iff_of_true (fun buffer member => ?_) trivial
      obtain ⟨binding, listed, rfl⟩ := List.mem_map.mp member
      rcases List.mem_or_eq_of_mem_set listed with old | rfl
      · exact single.bindings target.target.mem old
      · rw [known] at device ⊢
        exact onDevice_of_same device
  | copyNode target given =>
      rw [target.stored_single single]
      obtain ⟨src, dst⟩ := copyContents_buffers given
      simp only [MgExecNode.buffers, ExecPatch.BringsOwn, src, dst, Option.some.injEq,
        List.mem_cons, List.not_mem_nil, or_false, eq_comm]
  | fillNode target given =>
      rw [target.stored_single single]
      have dst := fillContents_buffer given
      simp only [MgExecNode.buffers, ExecPatch.BringsOwn, dst, Option.some.injEq,
        List.mem_singleton, eq_comm]
  | @eventValue nodeId position node event value target given =>
      rw [target.stored_single single]
      refine iff_of_true (fun buffer member => ?_) trivial
      cases node with
      | eventWait | eventSignal => cases member
      | _ => cases given
  | optimizationFlags => exact iff_of_true single trivial

end Patches

/-! ### Runs of patches -/

theorem mgGraphInstantiate_device {graph : MgGraph} {device : Option MgDevice} {env reached : Env}
    {exec : MgGraphExec} (success : mgGraphInstantiate graph device env = (.ok exec, reached)) :
    ∃ metalDevice, exec.deviceImpl = some metalDevice := by
  cases mgGraphInstantiate_run success
  exact ⟨_, rfl⟩

theorem Reachable.device_known {system : System} (reachable : Reachable system)
    {address : ExecPtr} {exec : MgGraphExec}
    (live : system.world.execs.get? address = some exec) :
    ∃ device, exec.deviceImpl = some device := by
  have every : system.world.EveryExec fun exec => ∃ device, exec.deviceImpl = some device := by
    refine reachable.exec_property (fun _ _ _ _ _ _ _ ran => mgGraphInstantiate_device ran) ?_ ?_
    · intro exec env patch reached known step
      exact step.frozen.device ▸ known
    · intro before after known same
      exact same.device ▸ known
  exact every address exec live

/-- Patches that bring no buffer of another device into a copy or a fill keep a plan on its
device, and no other successful patch does. -/
structure DeviceKept (exec : MgGraphExec) : Prop where
  run : ∀ env patches, (∀ patch ∈ patches, patch.BringsOwn exec.deviceImpl) →
    SingleDevice (runPatches patches ⟨exec, env⟩).object
  exact : ∀ env (patch : ExecPatch), (patch.run ⟨exec, env⟩).1 = .ok () →
    (SingleDevice (patch.run ⟨exec, env⟩).2.object ↔ patch.BringsOwn exec.deviceImpl)

theorem single_device_kept {system : System} (reachable : Reachable system) {address : ExecPtr}
    {exec : MgGraphExec} (live : system.world.execs.get? address = some exec)
    (single : SingleDevice exec) : DeviceKept exec := by
  obtain ⟨device, known⟩ := reachable.device_known live
  constructor
  · intro env patches own
    let kept (after : MgGraphExec) := after.deviceImpl = exec.deviceImpl ∧ SingleDevice after
    have step : ∀ before env patch reached, patch ∈ patches → kept before →
        PatchStep before env patch reached → kept reached.object := by
      rintro before env patch reached member ⟨same, single⟩ stepped
      refine ⟨stepped.frozen.device.trans same, ?_⟩
      exact (stepped.singleDevice_iff (same.trans known) single).mpr (same ▸ own patch member)
    exact (runPatches_cases step ⟨rfl, single⟩).2
  · intro env patch success
    have stepped : PatchStep exec env patch (patch.run ⟨exec, env⟩).2 :=
      ExecPatch.run_ok (Prod.ext success rfl)
    exact stepped.singleDevice_iff known single

theorem single_device_kept_of_mixed : DeviceKept mixedExec := by
  apply single_device_kept mixed_reachable mixed_instantiated
  intro node member buffer used
  have all : ∀ node ∈ mixedExec.nodes, ∀ buffer ∈ node.buffers,
      buffer.deviceImpl = mixedExec.deviceImpl := by decide
  exact .inr (all node member buffer used)

/-! A fill on device 7 is given a buffer of device 8. -/

def foreignBuffer : MgBuffer :=
  { sharedBuffer with
    address := 1, impl := ⟨1, 8, 16, true⟩, deviceImpl := some 8, window := by decide }

def fillCalls : List Call :=
  [.counted (.bufferCreateShared (some ⟨some 7⟩) 16),
    .counted (.bufferCreateShared (some ⟨some 8⟩) 16), .graphCreate,
    .graphEdit (some 0) (.addNode (sharedFill 1)),
    .graphEdit (some 0) (.setNodePatchFlags (some ⟨0, 0, 1⟩) mgPatchFillBuffer),
    .graphInstantiate (some 0) (some ⟨some 7⟩)]

def foreignFill : ExecPatch := .fillNode 1 (some ⟨40, some foreignBuffer, 0, 16, 1⟩)

def fillExec (buffer : MgBuffer) : MgGraphExec where
  nodes := [.fill ⟨⟨buffer, 0, 16, 1⟩, 1, mgPatchFillBuffer⟩]
  deviceImpl := some 7
  workspace := .zero
  icb := (MgIcbPlan.fallBack
    { MgIcbPlan.zero with enabledFlags := mgOptimizationIcb, available := true } .ineligibleNode)
  inFlightCount := 0

theorem fill_instantiated : (grantAll.run fillCalls).world.execs.get? 0 =
    some (fillExec sharedBuffer) := by decide +kernel

theorem fill_patched :
    (foreignFill.run ⟨fillExec sharedBuffer, (grantAll.run fillCalls).world.env⟩).2.object =
      fillExec foreignBuffer := by decide +kernel

/-- A permitted patch may put a buffer of another device into a fill. -/
theorem fill_leaves_device :
    ¬ ∀ system address exec patch, Reachable system →
      system.world.execs.get? address = some exec →
      system.permits (.execPatch (some address) patch) = true → SingleDevice exec →
        SingleDevice (patch.run ⟨exec, system.world.env⟩).2.object := by
  intro kept
  have reachable : Reachable (grantAll.run fillCalls) :=
    (Reachable.start _ _ _).run (by decide +kernel)
  have permitted : (grantAll.run fillCalls).permits (.execPatch (some 0) foreignFill) = true := by
    decide +kernel
  have single : SingleDevice (fillExec sharedBuffer) := by
    intro node member buffer used
    cases List.mem_singleton.mp member
    cases List.mem_singleton.mp used
    exact .inr rfl
  have after := kept _ 0 _ _ reachable fill_instantiated permitted single
  rw [fill_patched] at after
  have own := after _ (List.mem_singleton_self _) foreignBuffer (List.mem_singleton_self _)
  rcases own with absent | same
  · cases absent
  · cases same

end MetalGraph
