import MetalGraph.Proofs.Meaning

set_option autoImplicit false

/- Which bytes a launch may change. -/
namespace MetalGraph

/-! ### Windows -/

/-- The bytes that a buffer exposes of its Metal buffer. -/
def MgBuffer.exposed (buffer : MgBuffer) : Set Location :=
  buffer.impl.range buffer.byteOffset.toNat buffer.length.toNat

/-- The buffers that a node may write. -/
def MgExecNode.written : MgExecNode → List MgBuffer
  | .dispatch node =>
    (node.buffers.filter fun binding => !node.onlyReads binding).map MgBufferBinding.buffer
  | .copy node => [node.dst]
  | .fill node => [node.dst]
  | .mpsgraph node => node.targets.map MgMpsgraphTensor.buffer
  | .workspaceFill node => [node.dst]
  | .eventWait _ | .eventSignal _ | .barrier _ | .workspace _ | .unknown _ => []

/-- Every binding of the node has a declared range. -/
def MgExecNode.Declares : MgExecNode → Prop
  | .dispatch node =>
    mgDispatchAllBindingsHaveRangeRequirements node.toMgDispatchNode = true
  | _ => True

theorem declared_resource {dispatch : MgDispatchNode}
    (declares : mgDispatchAllBindingsHaveRangeRequirements dispatch = true)
    {binding : MgBufferBinding} (member : binding ∈ dispatch.buffers) :
    ∃ resource ∈ dispatch.resources, dispatch.resourceFor binding.index = some resource ∧
      resource.index = binding.index ∧ resource.byteCount ≠ 0 := by
  have ranged := List.all_eq_true.mp declares binding member
  unfold MgDispatchNode.hasRange at ranged
  split at ranged
  · cases ranged
  · rename_i resource found
    exact ⟨resource, List.mem_of_find?_eq_some found, found, by simpa using List.find?_some found,
      by simpa using ranged⟩

theorem range_subset {buffer : MetalBuffer} {offset size offset' size' : Nat}
    (low : offset' ≤ offset) (high : offset + size ≤ offset' + size') :
    buffer.range offset size ⊆ buffer.range offset' size' := by
  rintro location ⟨position, rfl, above, below⟩
  exact ⟨position, rfl, by omega, by omega⟩

theorem InWindow.exposed {buffer : MgBuffer} {relative byteCount : UInt64}
    (inside : InWindow buffer relative byteCount) :
    buffer.impl.range (buffer.byteOffset.toNat + relative.toNat) byteCount.toNat ⊆
      buffer.exposed := by
  have bound := inside.inside
  rw [inside.exact] at bound
  exact range_subset (by omega) (by omega)

theorem boundRange_exposed {dispatch : MgDispatchNode} (bounds : DispatchBounds dispatch)
    (declares : mgDispatchAllBindingsHaveRangeRequirements dispatch = true)
    {binding : MgBufferBinding} (member : binding ∈ dispatch.buffers) :
    dispatch.boundRange binding ⊆ binding.buffer.exposed := by
  obtain ⟨resource, listed, found, index, counted⟩ := declared_resource declares member
  obtain ⟨exact, inside⟩ := bounds.resources binding member resource listed index
  simp only [MgDispatchNode.boundRange, found, if_neg counted]
  rw [Nat.add_assoc, ← exact]
  exact inside.exposed

theorem TensorValid.exposed {tensor : MgMpsgraphTensor} (valid : TensorValid tensor) :
    tensor.bytes ⊆ tensor.buffer.exposed := by
  have bound := mgRangeValid_bound valid.inside
  apply range_subset
  · simp [valid.base]
  · simp only [valid.base, UInt64.toNat_zero, Nat.zero_add]
    omega

/-- What a node of a plan may write lies in the windows of the buffers that it writes. -/
theorem MgExecNode.writes_exposed {node : MgExecNode} {plan : MgWorkspacePlan}
    (fits : NodeFits plan node) (declares : node.Declares) {buffer position : Nat}
    (written : .byte buffer position ∈ node.contents.footprint.writes) :
    ∃ held ∈ node.written, .byte buffer position ∈ held.exposed := by
  cases node with
  | dispatch node =>
      obtain ⟨binding, member, writable, inside⟩ := written
      refine ⟨binding.buffer, ?_, boundRange_exposed (DispatchValid.bounds fits) declares member
        inside⟩
      apply List.mem_map_of_mem
      exact List.mem_filter.mpr ⟨member, by simpa using writable⟩
  | copy node =>
      exact ⟨node.dst, List.mem_singleton_self _,
        (inWindow_of_rangeValid (CopyValid.dst fits)).exposed written⟩
  | fill node =>
      exact ⟨node.dst, List.mem_singleton_self _, (inWindow_of_rangeValid fits).exposed written⟩
  | eventWait node => exact absurd written (Set.notMem_empty _)
  | eventSignal node => exact absurd written (by simp [MgExecNode.contents, MgNodeAs.footprint])
  | barrier id => exact absurd written (Set.notMem_empty _)
  | mpsgraph node =>
      obtain ⟨tensor, member, inside⟩ := written
      exact ⟨tensor.buffer, List.mem_map_of_mem member,
        (MpsgraphValid.targets fits.1 tensor member).exposed inside⟩
  | workspace node => exact absurd written (Set.notMem_empty _)
  | workspaceFill node =>
      exact ⟨node.dst, List.mem_singleton_self _,
        (inWindow_of_rangeValid (WorkspaceFillValid.dst fits.1)).exposed written⟩
  | unknown kind => exact absurd written (Set.notMem_empty _)

/-! ### Launches -/

theorem Programs.perform_frame {programs : Programs} {nodes : List MgNodeAs}
    (honest : ∀ node ∈ nodes, programs.Honest node) (memory : Memory) {location : Location}
    (outside : ∀ node ∈ nodes, location ∉ node.footprint.writes) :
    programs.perform nodes memory location = memory location := by
  induction nodes generalizing memory with
  | nil => rfl
  | cons node rest ih =>
      simp only [List.forall_mem_cons] at honest outside
      calc programs.perform (node :: rest) memory location
          = programs.perform rest (programs.node node memory) location := rfl
        _ = programs.node node memory location := ih honest.2 _ outside.2
        _ = memory location := (Programs.node_confined honest.1).frame _ _ outside.1

variable {programs : Programs} {system : System} {address : ExecPtr} {exec : MgGraphExec}
  {stream : Option MgStream} {launch : LaunchPtr}

/-- A byte that a launch changes lies in its workspace or in the window of a buffer that
one of its nodes writes. -/
theorem launch_writes_in_windows (reachable : Reachable system)
    (live : system.world.execs.get? address = some exec)
    (success : (system.record (.graphLaunch (some address) stream)).result = .ok (.launch launch))
    (avoids : ∀ node ∈ exec.nodes, node.AvoidsWorkspace exec.workspace.backendImpl)
    (honest : ∀ node ∈ exec.nodes, programs.Honest node.contents)
    (declares : ∀ node ∈ exec.nodes, node.Declares) (memory : Memory) {buffer position : Nat}
    (changed : programs.run (committedCommands
        (system.record (.graphLaunch (some address) stream)).events) memory
          (.byte buffer position) ≠ memory (.byte buffer position)) :
    .byte buffer position ∈ privateBytes exec.workspace.backendImpl ∨
      ∃ node ∈ exec.nodes, ∃ held ∈ node.written, held.impl.id = buffer ∧
        held.byteOffset.toNat ≤ position ∧
        position < held.byteOffset.toNat + held.length.toNat ∧
        position < held.impl.length.toNat := by
  by_cases hidden : .byte buffer position ∈ privateBytes exec.workspace.backendImpl
  · exact .inl hidden
  right
  obtain ⟨built, _, submitted⟩ := launch_submits live success
  have agrees := launchCommands_agree (reachable.execWf live) (reachable.nodes_loaded live) avoids
    honest memory _ hidden
  rw [submitted.commands, agrees] at changed
  by_contra none
  apply changed
  apply Programs.perform_frame
  · simpa using honest
  · intro contents member written
    obtain ⟨node, listed, rfl⟩ := List.mem_map.mp member
    obtain ⟨held, target, inside⟩ := node.writes_exposed ((reachable.execWf live).nodes node listed)
      (declares node listed) written
    obtain ⟨place, same, above, below⟩ := inside
    injection same with same here
    subst here
    exact none ⟨node, listed, held, target, same.symm, above, below,
      below.trans_le held.window⟩

/-! A fill, a copy of what it filled, and a kernel on other memory. The value of the fill is
patched in the plan, and the graph is destroyed before the plan is launched. -/

/-- The word at a place of a Metal buffer, low byte first. -/
def wordAt (memory : Memory) (buffer offset : Nat) : UInt32 :=
  (List.range 4).foldr (fun byte word =>
    word * 256 + (memory (.byte buffer (offset + byte)) : UInt8).toUInt32) 0

/-- Adds one to each of `count` words. -/
def addOne (buffer : MetalBuffer) (offset count : Nat) (memory : Memory) : Memory :=
  storeRange buffer.id offset (4 * count) (fun index =>
    ((wordAt memory buffer.id (offset + index / 4 * 4) + 1) >>> (8 * (index % 4)).toUInt32).toUInt8)
    memory

def addOnePrograms : Programs where
  kernel := fun _ arguments grid _ =>
    match arguments with
    | [.setBuffer buffer offset 0] => addOne buffer offset.toNat grid.x.toNat
    | _ => id
  package := fun _ _ _ => id

theorem wordAt_eq {memory memory' : Memory} {buffer offset : Nat}
    (agree : ∀ byte < 4, memory (.byte buffer (offset + byte)) =
      memory' (.byte buffer (offset + byte))) :
    wordAt memory buffer offset = wordAt memory' buffer offset := by
  have low : ∀ byte ∈ List.range 4, memory (.byte buffer (offset + byte)) =
      memory' (.byte buffer (offset + byte)) := fun byte member =>
    agree byte (List.mem_range.mp member)
  unfold wordAt
  apply List.foldr_ext
  intro byte member word
  rw [low byte member]

theorem addOne_confined (buffer : MetalBuffer) (offset count : Nat) :
    Confined (addOne buffer offset count)
      ⟨buffer.range offset (4 * count), buffer.range offset (4 * count)⟩ where
  frame := by
    intro memory location outside
    apply storeRange_frame
    intro position same inside
    exact outside ⟨position, same, inside⟩
  inputs := by
    rintro memory memory' agree location ⟨position, rfl, inside⟩
    unfold addOne
    rw [storeRange_inside memory inside, storeRange_inside memory' inside, wordAt_eq]
    intro byte small
    exact agree _ (.inl ⟨_, rfl, by omega, by omega⟩)

def relayBuffer (address : Nat) : MgBuffer :=
  { sharedBuffer with
    address := address, impl := ⟨address, 7, 16, true⟩, window := by simp [sharedBuffer] }

def relayDispatch : MgDispatchNode where
  metallibPath := "library"
  kernelName := "mg_phase0_add_one"
  gridSize := ⟨4, 1, 1⟩
  threadsPerThreadgroup := ⟨4, 1, 1⟩
  maxGridSize := ⟨4, 1, 1⟩
  buffers := [⟨0, relayBuffer 2, 0⟩]
  scalars := []
  resources := [⟨40, 0, .readWrite, 0, 16, 4⟩]

def relayCalls : List Call :=
  [.counted (.bufferCreateShared (some ⟨some 7⟩) 16),
    .counted (.bufferCreateShared (some ⟨some 7⟩) 16),
    .counted (.bufferCreateShared (some ⟨some 7⟩) 16), .graphCreate,
    .graphEdit (some 0) (.addNode (.fill (some ⟨40, some (relayBuffer 0), 0, 16, 7⟩))),
    .graphEdit (some 0) (.addNode
      (.copy (some ⟨48, some (relayBuffer 0), 0, some (relayBuffer 1), 0, 16⟩))),
    .graphEdit (some 0) (.addNode (.dispatch (some relayDispatch.desc))),
    .graphEdit (some 0) (.addDependency (some ⟨0, 0, 1⟩) (some ⟨0, 1, 2⟩)),
    .graphEdit (some 0) (.setNodePatchFlags (some ⟨0, 0, 1⟩) mgPatchFillValue)]

def relayExec : MgGraphExec where
  nodes :=
    [.fill ⟨⟨relayBuffer 0, 0, 16, 9⟩, 1, mgPatchFillValue⟩,
      .dispatch { relayDispatch with
        id := 3, patchFlags := 0, pipelineImpl := some ⟨"library", "mg_phase0_add_one"⟩ },
      .copy ⟨⟨relayBuffer 0, 0, relayBuffer 1, 0, 16⟩, 2, 0⟩]
  deviceImpl := some 7
  workspace := .zero
  icb := (MgIcbPlan.fallBack
    { MgIcbPlan.zero with enabledFlags := mgOptimizationIcb, available := true } .ineligibleNode)
  inFlightCount := 0

def relayPatch : ExecPatch := .fillNode 1 (some ⟨40, some (relayBuffer 0), 0, 16, 9⟩)

def relayLater : List Call := [.execPatch (some 0) relayPatch, .graphDestroy (some 0)]

def relayRun : System :=
  (grantAll.run relayCalls).run (.graphInstantiate (some 0) (some ⟨some 7⟩) :: relayLater)

theorem relay_planned : relayRun.world.execs.get? 0 = some relayExec := by decide +kernel

theorem relayDispatch_footprint : (MgNodeAs.dispatch relayDispatch).footprint =
    ⟨(relayBuffer 2).impl.range 0 16, (relayBuffer 2).impl.range 0 16⟩ := by
  simp [MgNodeAs.footprint, relayDispatch, MgDispatchNode.onlyReads, MgDispatchNode.boundRange,
    MgDispatchNode.resourceFor, mgDispatchFindResource, relayBuffer, sharedBuffer]

theorem relay_reachable : Reachable (grantAll.run relayCalls) :=
  (Reachable.start _ _ _).run (by decide +kernel)

theorem relay_permitted : (grantAll.run relayCalls).permitsRun
    (.graphInstantiate (some 0) (some ⟨some 7⟩) :: relayLater) = true := by decide +kernel

def launchRelay : Call := .graphLaunch (some 0) (some ⟨some 7⟩)

theorem relayRun_reachable : Reachable relayRun := relay_reachable.run relay_permitted

theorem relay_launched : (relayRun.record launchRelay).result = .ok (.launch 0) := by
  decide +kernel

theorem relay_avoids :
    ∀ node ∈ relayExec.nodes, node.AvoidsWorkspace relayExec.workspace.backendImpl := by
  intro node _ buffer _ backing absent
  cases absent

theorem relay_outside (location : Location) :
    location ∉ privateBytes relayExec.workspace.backendImpl := by
  rintro ⟨backing, _, absent, _⟩
  cases absent

theorem relayDispatch_honest : addOnePrograms.Honest (.dispatch relayDispatch) := by
  unfold Programs.Honest
  rw [relayDispatch_footprint]
  exact addOne_confined (relayBuffer 2).impl 0 4

theorem relay_honest : ∀ node ∈ relayExec.nodes, addOnePrograms.Honest node.contents := by
  intro node member
  simp only [relayExec, List.mem_cons, List.not_mem_nil, or_false] at member
  rcases member with rfl | rfl | rfl
  · trivial
  · exact relayDispatch_honest
  · trivial

/-- The kernel changes a byte of the third buffer. -/
theorem launch_writes_in_windows_of_relay :
    ∃ node ∈ relayExec.nodes, ∃ held ∈ node.written, held.impl.id = 2 ∧
      held.byteOffset.toNat ≤ 4 ∧ 4 < held.byteOffset.toNat + held.length.toNat := by
  have changed : addOnePrograms.run (committedCommands (relayRun.record launchRelay).events)
      blankMemory (.byte 2 4) ≠ blankMemory (.byte 2 4) := by decide +kernel
  have declares : ∀ node ∈ relayExec.nodes, node.Declares := by
    have ranged : mgDispatchAllBindingsHaveRangeRequirements relayDispatch = true := by decide
    simp only [relayExec, List.forall_mem_cons]
    exact ⟨trivial, ranged, trivial, List.forall_mem_nil _⟩
  rcases @launch_writes_in_windows addOnePrograms relayRun 0 relayExec (some ⟨some 7⟩) 0
    relayRun_reachable relay_planned relay_launched relay_avoids relay_honest declares blankMemory
    2 4 changed with hidden | inside
  · exact (relay_outside _ hidden).elim
  · obtain ⟨node, member, held, target, same, above, below, _⟩ := inside
    exact ⟨node, member, held, target, same, above, below⟩

end MetalGraph
