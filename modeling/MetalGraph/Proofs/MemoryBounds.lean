import MetalGraph.Proofs.LaunchEvents

set_option autoImplicit false

/- Every range a launch hands to Metal lies inside its buffer. -/
namespace MetalGraph

/-- A range of a buffer: it starts at the base plus the relative offset, without a wrap,
and ends inside the window of the buffer, which is inside the Metal buffer. -/
structure InWindow (buffer : MgBuffer) (relative byteCount : UInt64) : Prop where
  exact : (mgMetalBufferOffset buffer relative).toNat =
    buffer.byteOffset.toNat + relative.toNat
  inside : (mgMetalBufferOffset buffer relative).toNat + byteCount.toNat ≤
    buffer.byteOffset.toNat + buffer.length.toNat
  backed : buffer.byteOffset.toNat + buffer.length.toNat ≤ buffer.impl.length.toNat

theorem inWindow_of_le {buffer : MgBuffer} {relative byteCount : UInt64}
    (fits : relative.toNat + byteCount.toNat ≤ buffer.length.toNat) :
    InWindow buffer relative byteCount := by
  have window := buffer.window
  have exact : (mgMetalBufferOffset buffer relative).toNat =
      buffer.byteOffset.toNat + relative.toNat :=
    @toNat_add_of_le _ _ buffer.impl.length (by omega)
  exact ⟨exact, by omega, window⟩

theorem InWindow.backing {buffer : MgBuffer} {relative byteCount : UInt64}
    (inside : InWindow buffer relative byteCount) :
    (mgMetalBufferOffset buffer relative).toNat + byteCount.toNat ≤ buffer.impl.length.toNat :=
  inside.inside.trans inside.backed

/-! ### Checks -/

/-- The subtraction of the check compares the end of the range with the length. -/
theorem mgRangeValid_iff {length offset byteCount : UInt64} :
    mgRangeValid length offset byteCount = true ↔
      0 < byteCount.toNat ∧ offset.toNat + byteCount.toNat ≤ length.toNat := by
  simp only [mgRangeValid, Bool.and_eq_true, decide_eq_true_eq, gt_iff_lt, UInt64.lt_iff_toNat_lt,
    UInt64.toNat_zero]
  by_cases start : offset ≤ length
  · have below := UInt64.le_iff_toNat_le.mp start
    rw [UInt64.le_iff_toNat_le, UInt64.le_iff_toNat_le, UInt64.toNat_sub_of_le _ _ start]
    omega
  · have above := UInt64.le_iff_toNat_le.not.mp start
    simp only [start, and_false, false_and, false_iff]
    omega

theorem mgRangeValid_bound {length offset byteCount : UInt64}
    (valid : mgRangeValid length offset byteCount = true) :
    offset.toNat + byteCount.toNat ≤ length.toNat := (mgRangeValid_iff.mp valid).2

theorem inWindow_of_rangeValid {buffer : MgBuffer} {offset byteCount : UInt64}
    (valid : mgRangeValid buffer.length offset byteCount = true) :
    InWindow buffer offset byteCount := inWindow_of_le (mgRangeValid_bound valid)

theorem mgDispatchResourceRangeValid_bound {resource : MgDispatchResourceDesc}
    {length offset : UInt64}
    (valid : mgDispatchResourceRangeValid (some resource) length offset = true) :
    (offset + resource.byteOffset).toNat = offset.toNat + resource.byteOffset.toNat ∧
      (offset + resource.byteOffset).toNat + resource.byteCount.toNat ≤ length.toNat := by
  simp only [mgDispatchResourceRangeValid] at valid
  split at valid
  · cases valid
  · rename_i bounded
    have exact : (offset + resource.byteOffset).toNat =
        offset.toNat + resource.byteOffset.toNat := by
      rw [UInt64.add_comm, toNat_add_of_not_gt bounded, Nat.add_comm]
    refine ⟨exact, ?_⟩
    split at valid
    · rename_i empty
      rw [empty]
      exact UInt64.le_iff_toNat_le.mp (by simpa using valid)
    · exact mgRangeValid_bound valid

theorem prod_pos_of_nonzero {shape : List UInt64} (nonzero : ∀ dimension ∈ shape, dimension ≠ 0) :
    0 < (shape.map UInt64.toNat).prod := by
  apply List.prod_pos_iff_forall_pos_nat.mpr
  intro size member
  obtain ⟨dimension, listed, rfl⟩ := List.mem_map.mp member
  exact Nat.pos_of_ne_zero fun zero => nonzero dimension listed (UInt64.toNat_inj.mp zero)

/-- The guards of the loop refuse a shape exactly if its product needs more than a word, since
the products along the way are not larger. -/
theorem shapeElements_iff {shape : List UInt64} {start elements : UInt64} :
    shapeElements start shape = some elements ↔
      (∀ dimension ∈ shape, dimension ≠ 0) ∧
        elements.toNat = start.toNat * (shape.map UInt64.toNat).prod := by
  induction shape generalizing start with
  | nil =>
      simp only [shapeElements, Option.some.injEq, List.not_mem_nil, false_implies, implies_true,
        true_and, List.map_nil, List.prod_nil, Nat.mul_one]
      rw [← UInt64.toNat_inj, eq_comm]
  | cons dimension rest ih =>
      simp only [shapeElements, List.forall_mem_cons, List.map_cons, List.prod_cons]
      by_cases zero : dimension = 0
      · simp [zero]
      by_cases wraps : start > sizeMax / dimension
      · have beyond := (not_gt_sizeMax_div_iff zero).not.mp (not_not.mpr wraps)
        simp only [wraps, or_true, ↓reduceIte, reduceCtorEq, false_iff]
        rintro ⟨⟨_, nonzero⟩, product⟩
        have grows := Nat.le_mul_of_pos_right (start.toNat * dimension.toNat)
          (prod_pos_of_nonzero nonzero)
        have below := elements.toNat_lt
        rw [Nat.mul_assoc, ← product] at grows
        omega
      · simp only [zero, wraps, or_self, ↓reduceIte, ih, ne_eq, not_false_eq_true, true_and,
          toNat_mul_of_not_gt zero wraps, Nat.mul_assoc]

theorem mgShapeByteCount_iff {shape : List UInt64} {elementSize required : UInt64} :
    mgShapeByteCount shape elementSize = some required ↔
      shape ≠ [] ∧ elementSize ≠ 0 ∧ (∀ dimension ∈ shape, dimension ≠ 0) ∧
        required.toNat = (shape.map UInt64.toNat).prod * elementSize.toNat := by
  unfold mgShapeByteCount
  by_cases refused : shape = [] ∨ elementSize = 0
  · rw [if_pos refused]
    simp only [reduceCtorEq, false_iff]
    exact fun accepted => refused.elim accepted.1 accepted.2.1
  rw [if_neg refused]
  obtain ⟨filled, sized⟩ := not_or.mp refused
  simp only [Option.bind_eq_bind, Option.bind_eq_some_iff, shapeElements_iff, UInt64.toNat_one,
    Nat.one_mul]
  constructor
  · rintro ⟨elements, ⟨nonzero, product⟩, counted⟩
    split at counted
    · cases counted
    · rename_i bounded
      cases counted
      rw [toNat_mul_of_not_gt sized bounded, product]
      exact ⟨filled, sized, nonzero, rfl⟩
  · rintro ⟨_, _, nonzero, bytes⟩
    have positive : 0 < elementSize.toNat :=
      Nat.pos_of_ne_zero fun zero => sized (UInt64.toNat_inj.mp zero)
    have grows := Nat.le_mul_of_pos_right (shape.map UInt64.toNat).prod positive
    have below := required.toNat_lt
    have exact : (UInt64.ofNat (shape.map UInt64.toNat).prod).toNat =
        (shape.map UInt64.toNat).prod := UInt64.toNat_ofNat_of_lt' (by
      rw [UInt64.size]
      omega)
    have bounded : ¬ UInt64.ofNat (shape.map UInt64.toNat).prod > sizeMax / elementSize := by
      rw [not_gt_sizeMax_div_iff sized, exact, ← bytes]
      exact below
    refine ⟨_, ⟨nonzero, exact⟩, ?_⟩
    rw [if_neg bounded, Option.some.injEq, ← UInt64.toNat_inj, toNat_mul_of_not_gt sized bounded,
      exact, bytes]

/-- The bytes of a tensor, counted without a wrap. -/
def shapeBytes (shape : List UInt64) (dataType : MgTensorDataType) : Nat :=
  (shape.map UInt64.toNat).prod * (mgTensorDataTypeSize dataType).toNat

theorem mgShapeByteCount_exact {shape : List UInt64} {dataType : MgTensorDataType}
    {required : UInt64} (counted : mgShapeByteCount shape (mgTensorDataTypeSize dataType) =
      some required) : required.toNat = shapeBytes shape dataType := by
  obtain ⟨_, _, _, bytes⟩ := mgShapeByteCount_iff.mp counted
  exact bytes

/-! ### Nodes -/

/-- A binding starts inside the window or at its end; declared ranges are inside. -/
structure DispatchBounds (dispatch : MgDispatchNode) : Prop where
  bindings : ∀ binding ∈ dispatch.buffers, InWindow binding.buffer binding.offset 0
  resources : ∀ binding ∈ dispatch.buffers, ∀ resource ∈ dispatch.resources,
    resource.index = binding.index →
    (binding.offset + resource.byteOffset).toNat =
        binding.offset.toNat + resource.byteOffset.toNat ∧
      InWindow binding.buffer (binding.offset + resource.byteOffset) resource.byteCount

/-- Tensor data starts at the Metal buffer's first byte. -/
def TensorBounds (tensor : MgMpsgraphTensor) : Prop :=
  tensor.buffer.byteOffset = 0 ∧
    shapeBytes tensor.shape tensor.dataType ≤ tensor.buffer.length.toNat

def NodeBounds (workspace : MgWorkspacePlan) : MgExecNode → Prop
  | .dispatch node => DispatchBounds node.toMgDispatchNode
  | .copy node =>
    InWindow node.src node.srcOffset node.byteCount ∧
      InWindow node.dst node.dstOffset node.byteCount
  | .fill node => InWindow node.dst node.dstOffset node.byteCount
  | .mpsgraph node => ∀ tensor ∈ node.feeds ++ node.targets, TensorBounds tensor
  | .workspaceFill node =>
    InWindow node.dst node.dstOffset node.size ∧
      ∃ buffer, workspace.backendImpl = some buffer ∧
        node.offset.toNat + node.size.toNat ≤ buffer.length.toNat
  | .eventWait _ | .eventSignal _ | .barrier _ | .workspace _ => True
  | .unknown _ => False

theorem DispatchValid.bounds {dispatch : MgDispatchNode} (valid : DispatchValid dispatch) :
    DispatchBounds dispatch where
  bindings := fun binding member =>
    inWindow_of_le (UInt64.le_iff_toNat_le.mp (valid.offsets binding member))
  resources := by
    intro binding member resource declared same
    obtain ⟨exact, fits⟩ := mgDispatchResourceRangeValid_bound
      ((valid.resources resource declared).inside binding member same.symm)
    exact ⟨exact, inWindow_of_le fits⟩

theorem TensorValid.bounds {tensor : MgMpsgraphTensor} (valid : TensorValid tensor) :
    TensorBounds tensor := by
  obtain ⟨required, counted, fits⟩ := valid.size
  have inside := mgRangeValid_bound valid.inside
  have enough := UInt64.le_iff_toNat_le.mp fits
  rw [mgShapeByteCount_exact counted] at enough
  exact ⟨valid.base, by omega⟩

theorem ExecWf.nodeBounds {exec : MgGraphExec} (wf : ExecWf exec) {node : MgExecNode}
    (member : node ∈ exec.nodes) : NodeBounds exec.workspace node := by
  have fits := wf.nodes node member
  cases node with
  | dispatch node => exact DispatchValid.bounds fits
  | copy node => exact ⟨inWindow_of_rangeValid fits.src, inWindow_of_rangeValid fits.dst⟩
  | fill node => exact inWindow_of_rangeValid fits
  | mpsgraph node =>
      intro tensor listed
      exact (List.mem_append.mp listed).elim (fun feed => (fits.1.feeds tensor feed).bounds)
        fun target => (fits.1.targets tensor target).bounds
  | workspaceFill node =>
      obtain ⟨valid, inside⟩ := fits
      unfold PlannedInside at inside
      -- the fill is not empty, so something was planned and allocated
      have planned : exec.workspace.totalSize ≠ 0 := by
        intro zero
        rw [zero, UInt64.toNat_zero] at inside
        exact valid.workspace.nonzero (UInt64.toNat_inj.mp (by rw [UInt64.toNat_zero]; omega))
      obtain ⟨buffer, allocated, length⟩ := wf.allocated planned
      exact ⟨inWindow_of_rangeValid valid.dst, buffer, allocated, length ▸ inside⟩
  | eventWait | eventSignal | barrier | workspace => trivial
  | unknown kind => exact fits.elim

/-! ### Commands -/

def RangeInside (buffer : Option MetalBuffer) (offset size : UInt64) : Prop :=
  ∃ backing, buffer = some backing ∧ offset.toNat + size.toNat ≤ backing.length.toNat

/-- What Metal is handed stays inside the Metal buffers. -/
def Command.InBounds : Command → Prop
  | .compute _ arguments _ _ => ∀ buffer offset index,
    .setBuffer buffer offset index ∈ arguments → offset.toNat ≤ buffer.length.toNat
  | .copy src srcOffset dst dstOffset size =>
    RangeInside src srcOffset size ∧ RangeInside dst dstOffset size
  | .fill buffer offset size _ => RangeInside buffer offset size
  | .waitForEvent _ _ | .signalEvent _ _ => True
  | .mpsgraph _ inputs results => ∀ data ∈ inputs ++ results,
    shapeBytes data.shape data.dataType ≤ data.buffer.length.toNat
  | .executeCommands icb _ => ∀ command ∈ icb.commands, ∀ binding ∈ command.kernelBuffers,
    binding.2.1.toNat ≤ binding.1.length.toNat

theorem InWindow.rangeInside {buffer : MgBuffer} {relative byteCount : UInt64}
    (inside : InWindow buffer relative byteCount) :
    RangeInside (some buffer.impl) (mgMetalBufferOffset buffer relative) byteCount :=
  ⟨buffer.impl, rfl, inside.backing⟩

theorem TensorBounds.backing {tensor : MgMpsgraphTensor} (bounds : TensorBounds tensor) :
    shapeBytes tensor.shape tensor.dataType ≤ tensor.buffer.impl.length.toNat := by
  have window := tensor.buffer.window
  have fits := bounds.2
  omega

theorem nodeCommands_inBounds {workspace : MgWorkspacePlan} {node : MgExecNode}
    (bounds : NodeBounds workspace node) {command : Command}
    (member : command ∈ nodeCommands workspace.backendImpl node) : command.InBounds := by
  cases node with
  | dispatch dispatch =>
      cases List.mem_singleton.mp member
      intro buffer offset index written
      rcases List.mem_append.mp written with bound | scalar
      · obtain ⟨binding, listed, same⟩ := List.mem_map.mp bound
        cases same
        exact (bounds.bindings binding listed).backing
      · obtain ⟨_, _, same⟩ := List.mem_map.mp scalar
        cases same
  | copy copy =>
      cases List.mem_singleton.mp member
      exact ⟨bounds.1.rangeInside, bounds.2.rangeInside⟩
  | fill fill =>
      cases List.mem_singleton.mp member
      exact InWindow.rangeInside bounds
  | eventWait event | eventSignal event =>
      cases List.mem_singleton.mp member
      trivial
  | mpsgraph mpsgraph =>
      cases List.mem_singleton.mp member
      intro data listed
      rw [← List.map_append] at listed
      obtain ⟨tensor, named, rfl⟩ := List.mem_map.mp listed
      exact (bounds tensor named).backing
  | workspaceFill fill =>
      obtain ⟨inside, buffer, allocated, fits⟩ := bounds
      have filled : RangeInside workspace.backendImpl fill.offset fill.size :=
        ⟨buffer, allocated, fits⟩
      rcases List.mem_cons.mp member with rfl | copied
      · exact filled
      · cases List.mem_singleton.mp copied
        exact ⟨filled, inside.rangeInside⟩
  | barrier | workspace | unknown => cases member

/-- Recorded commands bind what the only node of the plan binds. -/
theorem ExecWf.recorded {exec : MgGraphExec} (wf : ExecWf exec) {icb : IndirectCommandBuffer}
    (usable : usableIcb exec.icb = some icb) :
    ∃ dispatch, exec.nodes = [.dispatch dispatch] ∧ icb.commands = [recordIcbCommand dispatch] := by
  obtain ⟨dispatch, only, _, same, _⟩ := wf.icb icb (usableIcb_recorded usable)
  exact ⟨dispatch, only, same ▸ rfl⟩

theorem ExecWf.launchCommands_inBounds {exec : MgGraphExec} (wf : ExecWf exec)
    {command : Command} (member : command ∈ launchCommands exec) : command.InBounds := by
  unfold launchCommands at member
  split at member
  · rename_i icb usable
    cases List.mem_singleton.mp member
    obtain ⟨dispatch, only, recorded⟩ := wf.recorded usable
    have bounds : NodeBounds exec.workspace (.dispatch dispatch) :=
      wf.nodeBounds (only ▸ List.mem_singleton_self _)
    intro command listed binding bound
    rw [recorded] at listed
    cases List.mem_singleton.mp listed
    obtain ⟨source, listed, rfl⟩ := List.mem_map.mp bound
    exact (bounds.bindings source listed).backing
  · obtain ⟨node, listed, encoded⟩ := List.mem_flatMap.mp member
    exact nodeCommands_inBounds (wf.nodeBounds listed) encoded

section Reachable

variable {system : System} {address : ExecPtr} {exec : MgGraphExec}

/-- Every range of a reachable plan is inside its buffer, and a launch, however it ends,
encodes commands of the nodes or the recorded command of the only node. -/
theorem launched_ranges_in_bounds (reachable : Reachable system)
    (live : system.world.execs.get? address = some exec) :
    (∀ node ∈ exec.nodes, NodeBounds exec.workspace node) ∧
    (∀ icb, usableIcb exec.icb = some icb → ∃ dispatch, exec.nodes = [.dispatch dispatch] ∧
      icb.commands = [recordIcbCommand dispatch]) ∧
    ∀ stream commandBuffer command, .encode commandBuffer command ∈
        (system.record (.graphLaunch (some address) stream)).events →
      command ∈ launchCommands exec ∧ command.InBounds := by
  have wf := reachable.execWf live
  refine ⟨fun node => wf.nodeBounds, fun icb => wf.recorded, ?_⟩
  intro stream commandBuffer command member
  have listed := (launch_outcome reachable live stream).encodesOnly commandBuffer command member
  exact ⟨listed, wf.launchCommands_inBounds listed⟩

theorem launched_ranges_of_mixed :
    (∀ node ∈ mixedExec.nodes, NodeBounds mixedExec.workspace node) ∧
    ∀ commandBuffer command,
      .encode commandBuffer command ∈ ((grantAll.run mixedCalls).record launchMixed).events →
      command.InBounds := by
  obtain ⟨nodes, _, commands⟩ := launched_ranges_in_bounds mixed_reachable mixed_instantiated
  exact ⟨nodes, fun commandBuffer command member => (commands _ commandBuffer command member).2⟩

end Reachable

/-! A dispatch that binds the end of its buffer. -/

def boundAtEnd : NodeAddition := .dispatch (some
  { size := 104
    metallibPath := some "library"
    kernelName := some "kernel"
    gridSize := ⟨1, 1, 1⟩
    threadsPerThreadgroup := ⟨1, 1, 1⟩
    buffers := some [⟨0, some sharedBuffer, 16⟩]
    scalars := some []
    maxGridSize := ⟨1, 1, 1⟩
    resources := some [] })

def boundAtEndCalls : List Call :=
  [.counted (.bufferCreateShared (some ⟨some 7⟩) 16), .graphCreate,
    .graphEdit (some 0) (.addNode boundAtEnd), .graphInstantiate (some 0) (some ⟨some 7⟩)]

def boundAtEndDispatch : MgExecDispatch where
  metallibPath := "library"
  kernelName := "kernel"
  gridSize := ⟨1, 1, 1⟩
  threadsPerThreadgroup := ⟨1, 1, 1⟩
  maxGridSize := ⟨1, 1, 1⟩
  buffers := [⟨0, sharedBuffer, 16⟩]
  scalars := []
  resources := []
  id := 1
  patchFlags := 0
  pipelineImpl := some ⟨"library", "kernel"⟩

theorem boundAtEnd_reachable : Reachable (grantAll.run boundAtEndCalls) :=
  (Reachable.start _ _ _).run (by decide +kernel)

theorem boundAtEnd_instantiated : ((grantAll.run boundAtEndCalls).world.execs.get? 0).map
    MgGraphExec.nodes = some [.dispatch boundAtEndDispatch] := by decide +kernel

/-- A binding may start at the end of the window, which is not inside it. -/
theorem binding_not_inside_window :
    ¬ ∀ system address exec, Reachable system → system.world.execs.get? address = some exec →
      ∀ dispatch, .dispatch dispatch ∈ exec.nodes → ∀ binding ∈ dispatch.buffers,
        (mgMetalBufferOffset binding.buffer binding.offset).toNat <
          binding.buffer.byteOffset.toNat + binding.buffer.length.toNat := by
  intro inside
  obtain ⟨exec, live, nodes⟩ := Option.map_eq_some_iff.mp boundAtEnd_instantiated
  have absurdity := inside _ 0 exec boundAtEnd_reachable live boundAtEndDispatch
    (nodes ▸ List.mem_singleton_self _) ⟨0, sharedBuffer, 16⟩ (List.mem_singleton_self _)
  revert absurdity
  decide

end MetalGraph
