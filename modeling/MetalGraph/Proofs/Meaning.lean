import MetalGraph.Model.Memory
import MetalGraph.Proofs.EncodeLoop
import MetalGraph.Proofs.IndirectCommands
import MetalGraph.Proofs.MemoryBounds
import MetalGraph.Proofs.Rebuilding

set_option autoImplicit false

/- What a launch does to memory: outside the workspace of the plan it does what the nodes
of the plan mean, one after the other. -/
namespace MetalGraph

/-! ### Ranges -/

section Ranges

variable {buffer other : MetalBuffer} {offset size : Nat}

theorem storeRange_frame {target : Nat} {value : Nat → UInt8} (memory : Memory)
    {location : Location} (outside : ∀ position, location = .byte target position →
      ¬ (offset ≤ position ∧ position < offset + size)) :
    storeRange target offset size value memory location = memory location := by
  cases location with
  | byte buffer position =>
      simp only [storeRange]
      rw [if_neg]
      rintro ⟨rfl, inside⟩
      exact outside position rfl inside
  | event impl => rfl

theorem storeRange_inside {target position : Nat} {value : Nat → UInt8} (memory : Memory)
    (inside : offset ≤ position ∧ position < offset + size) :
    storeRange target offset size value memory (.byte target position) =
      value (position - offset) := by
  simp [storeRange, inside]

theorem copyRange_confined {srcOffset : Nat} :
    Confined (copyRange buffer srcOffset other offset size)
      ⟨buffer.range srcOffset size, other.range offset size⟩ where
  frame := by
    intro memory location outside
    apply storeRange_frame
    intro position same inside
    exact outside ⟨position, same, inside⟩
  inputs := by
    rintro memory memory' agree location ⟨position, rfl, inside⟩
    simp only [copyRange]
    rw [storeRange_inside memory inside, storeRange_inside memory' inside]
    apply agree (.byte buffer.id (srcOffset + (position - offset)))
    exact .inl ⟨_, rfl, by omega, by omega⟩

theorem fillRange_confined {value : UInt8} :
    Confined (fillRange buffer offset size value) ⟨∅, buffer.range offset size⟩ where
  frame := by
    intro memory location outside
    apply storeRange_frame
    intro position same inside
    exact outside ⟨position, same, inside⟩
  inputs := by
    rintro memory memory' _ location ⟨position, rfl, inside⟩
    simp only [fillRange]
    rw [storeRange_inside memory inside, storeRange_inside memory' inside]

theorem signal_confined {event : Nat} {value : UInt64} :
    Confined (signal event value) ⟨∅, {.event event}⟩ where
  frame := by
    intro memory location outside
    cases location with
    | byte buffer position => rfl
    | event impl => exact if_neg fun same => outside (congrArg Location.event same)
  inputs := by
    rintro memory memory' _ location rfl
    simp [signal]

end Ranges

/-! ### Nodes -/

/-- Honest programs act on what their node declares, and so does everything else. -/
theorem Programs.node_confined {programs : Programs} {as : MgNodeAs}
    (honest : programs.Honest as) : Confined (programs.node as) as.footprint := by
  cases as with
  | dispatch node => exact honest
  | copy node => exact copyRange_confined
  | fill node => exact fillRange_confined
  | eventWait node => exact .id
  | eventSignal node => exact signal_confined
  | barrier => exact .id
  | mpsgraph node => exact honest
  | workspace node => exact .id
  | workspaceFill node => exact fillRange_confined
  | unknown kind => exact .id

/-- The descriptor fields that a node of a plan has. -/
def MgExecNode.contents : MgExecNode → MgNodeAs
  | .dispatch node => .dispatch node.toMgDispatchNode
  | .copy node => .copy node.toMgCopyNode
  | .fill node => .fill node.toMgFillNode
  | .eventWait node => .eventWait node.toMgEventNode
  | .eventSignal node => .eventSignal node.toMgEventNode
  | .mpsgraph node => .mpsgraph node.toMgMpsgraphNode
  | .barrier _ => .barrier
  | .workspace node => .workspace node.toMgWorkspaceNode
  | .workspaceFill node => .workspaceFill node.toMgWorkspaceFillNode
  | .unknown kind => .unknown kind

theorem mem_range_byte {buffer : MetalBuffer} {offset size : Nat} {location : Location}
    (member : location ∈ buffer.range offset size) :
    ∃ position, location = .byte buffer.id position := by
  obtain ⟨position, rfl, _⟩ := member
  exact ⟨position, rfl⟩

theorem mem_boundRange_byte {dispatch : MgDispatchNode} {binding : MgBufferBinding}
    {location : Location} (member : location ∈ dispatch.boundRange binding) :
    ∃ position, location = .byte binding.buffer.impl.id position := by
  unfold MgDispatchNode.boundRange at member
  split at member
  · split at member
    · exact member
    · exact mem_range_byte member
  · exact member

/-- A byte that a node touches lies in one of its buffers. -/
theorem MgExecNode.touches_buffers {node : MgExecNode} {buffer position : Nat}
    (touched : .byte buffer position ∈ node.contents.footprint.touches) :
    ∃ held ∈ node.buffers, held.impl.id = buffer := by
  have here : ∀ {other : MgBuffer}, (∃ place, Location.byte buffer position =
      .byte other.impl.id place) → other.impl.id = buffer := by
    rintro other ⟨place, same⟩
    injection same with same
    exact same.symm
  cases node with
  | dispatch node =>
      rcases touched with ⟨binding, member, inside⟩ | ⟨binding, member, _, inside⟩
      all_goals
        exact ⟨binding.buffer, List.mem_map_of_mem member, here (mem_boundRange_byte inside)⟩
  | copy node =>
      rcases touched with inside | inside
      · exact ⟨node.src, by simp [MgExecNode.buffers], here (mem_range_byte inside)⟩
      · exact ⟨node.dst, by simp [MgExecNode.buffers], here (mem_range_byte inside)⟩
  | fill node =>
      rcases touched with inside | inside
      · exact absurd inside (Set.notMem_empty _)
      · exact ⟨node.dst, by simp [MgExecNode.buffers], here (mem_range_byte inside)⟩
  | eventWait node => rcases touched with same | none <;> contradiction
  | eventSignal node => rcases touched with none | same <;> contradiction
  | mpsgraph node =>
      rcases touched with ⟨tensor, member, inside⟩ | ⟨tensor, member, inside⟩
      · refine ⟨tensor.buffer, ?_, here (mem_range_byte inside)⟩
        exact List.mem_map_of_mem (List.mem_append_left _ member)
      · refine ⟨tensor.buffer, ?_, here (mem_range_byte inside)⟩
        exact List.mem_map_of_mem (List.mem_append_right _ member)
  | barrier id => rcases touched with none | none <;> contradiction
  | workspace node => rcases touched with none | none <;> contradiction
  | workspaceFill node =>
      rcases touched with inside | inside
      · exact absurd inside (Set.notMem_empty _)
      · exact ⟨node.dst, by simp [MgExecNode.buffers], here (mem_range_byte inside)⟩
  | unknown kind => rcases touched with none | none <;> contradiction

/-! ### The workspace -/

/-- The bytes that only the plan itself uses. -/
def privateBytes (workspace : Option MetalBuffer) : Set Location :=
  {location | ∃ buffer position, workspace = some buffer ∧ location = .byte buffer.id position}

def AgreeOff (workspace : Option MetalBuffer) (memory memory' : Memory) : Prop :=
  ∀ location ∉ privateBytes workspace, memory location = memory' location

/-- No buffer of the node is backed by the workspace. -/
def MgExecNode.AvoidsWorkspace (workspace : Option MetalBuffer) (node : MgExecNode) : Prop :=
  ∀ buffer ∈ node.buffers, ∀ backing, workspace = some backing → buffer.impl.id ≠ backing.id

theorem MgExecNode.AvoidsWorkspace.disjoint {workspace : Option MetalBuffer} {node : MgExecNode}
    (avoids : node.AvoidsWorkspace workspace) :
    Disjoint (privateBytes workspace) node.contents.footprint.touches := by
  rw [Set.disjoint_left]
  rintro location ⟨buffer, position, here, rfl⟩ touched
  obtain ⟨held, member, same⟩ := node.touches_buffers touched
  exact avoids held member buffer here same

/-- What instantiation loads for a node is what the node names. -/
def MgExecNode.Loaded : MgExecNode → Prop
  | .dispatch node => node.pipelineImpl = some ⟨node.metallibPath, node.kernelName⟩
  | .mpsgraph node => node.executableImpl = some node.packagePath
  | _ => True

theorem instantiated_loaded (src : MgNode) (offset : UInt64) :
    (src.instantiated offset).Loaded := by
  obtain ⟨graph, id, index, flags, as⟩ := src
  cases as <;> first | exact rfl | trivial

theorem NodeFrozen.loaded {before after : MgExecNode} (frozen : NodeFrozen before after)
    (loaded : before.Loaded) : after.Loaded := by
  cases frozen with
  | same => exact loaded
  | dispatch kept =>
      simp only [MgExecNode.Loaded] at loaded ⊢
      rw [kept.pipelineImpl, kept.metallibPath, kept.kernelName]
      exact loaded
  | copy _ => trivial
  | fill _ => trivial
  | eventWait _ => trivial
  | eventSignal _ => trivial

theorem Instantiates.nodes_loaded {graph : MgGraph} {order : List Nat} {exec : MgGraphExec}
    (made : Instantiates graph order exec) : ∀ node ∈ exec.nodes, node.Loaded := by
  intro node member
  obtain ⟨_, _, src, offset, _, rfl, _⟩ := mem_of_forall₂' made.nodes member
  exact instantiated_loaded src offset

theorem Reachable.nodes_loaded {system : System} (reachable : Reachable system)
    {address : ExecPtr} {exec : MgGraphExec} (live : system.world.execs.get? address = some exec) :
    ∀ node ∈ exec.nodes, node.Loaded := by
  refine reachable.exec_invariant (fun _ _ _ _ _ made => made.nodes_loaded) ?_ ?_ address exec live
  · intro _ _ _ _ loaded step node member
    obtain ⟨old, listed, kept⟩ := mem_of_forall₂' step.frozen.nodes member
    exact kept.loaded (loaded old listed)
  · intro _ _ loaded same node member
    rw [same.nodes] at member
    exact loaded node member

variable {programs : Programs} {memory memory' : Memory} {plan : MgWorkspacePlan}

/-- Going through the workspace fills the destination all the same. -/
theorem workspaceFill_agrees {backing : MetalBuffer} {fill : MgExecWorkspaceFill}
    (bounds : InWindow fill.dst fill.dstOffset fill.size)
    (agree : AgreeOff (some backing) memory memory') :
    AgreeOff (some backing) (programs.run (workspaceFillCommands (some backing) fill) memory)
      (fill.toMgWorkspaceFillNode.meaning memory') := by
  intro location outside
  simp only [workspaceFillCommands, Programs.run, List.foldl_cons, List.foldl_nil,
    Programs.command, MgWorkspaceFillNode.meaning, bounds.exact]
  by_cases written : location ∈ fill.dst.impl.range
      (fill.dst.byteOffset.toNat + fill.dstOffset.toNat) fill.size.toNat
  · obtain ⟨position, rfl, inside⟩ := written
    simp only [copyRange, fillRange]
    rw [storeRange_inside _ inside, storeRange_inside _ inside, storeRange_inside]
    omega
  · rw [copyRange_confined.frame _ location written, fillRange_confined.frame _ location written,
      fillRange_confined.frame]
    · exact agree location outside
    · rintro ⟨position, rfl, _⟩
      exact outside ⟨backing, position, rfl, rfl⟩

/-- The commands of a node do what it means, as far as anyone but the plan can see. -/
theorem node_agrees {node : MgExecNode} (bounds : NodeBounds plan node) (loaded : node.Loaded)
    (avoids : node.AvoidsWorkspace plan.backendImpl) (honest : programs.Honest node.contents)
    (agree : AgreeOff plan.backendImpl memory memory') :
    AgreeOff plan.backendImpl (programs.run (nodeCommands plan.backendImpl node) memory)
      (programs.node node.contents memory') := by
  have visible : AgreeOff plan.backendImpl (programs.node node.contents memory)
      (programs.node node.contents memory') :=
    (Programs.node_confined honest).agree_off avoids.disjoint agree
  cases node with
  | dispatch node =>
      have same : programs.run (nodeCommands plan.backendImpl (.dispatch node)) memory =
          programs.node (MgExecNode.dispatch node).contents memory := by
        simp only [MgExecNode.Loaded] at loaded
        simp only [Programs.run, nodeCommands, dispatchCommand, List.foldl_cons, List.foldl_nil,
          Programs.command, loaded, MgExecNode.contents, Programs.node]
      rw [same]
      exact visible
  | copy node =>
      have same : programs.run (nodeCommands plan.backendImpl (.copy node)) memory =
          programs.node (MgExecNode.copy node).contents memory := by
        simp only [Programs.run, nodeCommands, copyCommand, List.foldl_cons, List.foldl_nil,
          Programs.command, MgExecNode.contents, Programs.node, bounds.1.exact, bounds.2.exact]
      rw [same]
      exact visible
  | fill node =>
      have same : programs.run (nodeCommands plan.backendImpl (.fill node)) memory =
          programs.node (MgExecNode.fill node).contents memory := by
        simp only [Programs.run, nodeCommands, fillCommand, List.foldl_cons, List.foldl_nil,
          Programs.command, MgExecNode.contents, Programs.node, InWindow.exact bounds]
      rw [same]
      exact visible
  | mpsgraph node =>
      have same : programs.run (nodeCommands plan.backendImpl (.mpsgraph node)) memory =
          programs.node (MgExecNode.mpsgraph node).contents memory := by
        simp only [MgExecNode.Loaded] at loaded
        simp only [Programs.run, nodeCommands, mpsgraphCommand, List.foldl_cons, List.foldl_nil,
          Programs.command, loaded, MgExecNode.contents, Programs.node]
      rw [same]
      exact visible
  | workspaceFill node =>
      obtain ⟨window, backing, here, _⟩ := bounds
      rw [here] at agree ⊢
      exact workspaceFill_agrees window agree
  | eventWait node => exact visible
  | eventSignal node => exact visible
  | barrier id => exact visible
  | workspace node => exact visible
  | unknown kind => exact visible

/-! ### Launches -/

theorem Programs.run_append (first second : List Command) :
    programs.run (first ++ second) memory = programs.run second (programs.run first memory) :=
  List.foldl_append

theorem nodes_agree {nodes : List MgExecNode} (bounds : ∀ node ∈ nodes, NodeBounds plan node)
    (loaded : ∀ node ∈ nodes, node.Loaded)
    (avoids : ∀ node ∈ nodes, node.AvoidsWorkspace plan.backendImpl)
    (honest : ∀ node ∈ nodes, programs.Honest node.contents)
    (agree : AgreeOff plan.backendImpl memory memory') :
    AgreeOff plan.backendImpl
      (programs.run (nodes.flatMap (nodeCommands plan.backendImpl)) memory)
      (programs.perform (nodes.map MgExecNode.contents) memory') := by
  induction nodes generalizing memory memory' with
  | nil => exact agree
  | cons node rest ih =>
      simp only [List.forall_mem_cons] at bounds loaded avoids honest
      rw [List.flatMap_cons, Programs.run_append]
      exact ih bounds.2 loaded.2 avoids.2 honest.2
        (node_agrees bounds.1 loaded.1 avoids.1 honest.1 agree)

/-- Executing the recorded commands does what encoding the nodes would. -/
theorem IcbMatches.run_eq {exec : MgGraphExec} {icb : IndirectCommandBuffer}
    {dispatch : MgExecDispatch} (same : IcbMatches exec icb dispatch) :
    programs.run [.executeCommands icb exec.icb.commandCount] memory =
      programs.run (exec.nodes.flatMap (nodeCommands exec.workspace.backendImpl)) memory := by
  obtain ⟨recorded, rest⟩ := icb
  have one := same.recorded
  rw [same.only, same.count]
  obtain ⟨command, rfl, command_eq⟩ := List.map_eq_singleton_iff.mp one
  have effect : ∀ memory, programs.icbCommand command memory =
      programs.command (dispatchCommand dispatch) memory := fun memory =>
    congrFun (congrArg programs.command command_eq) memory
  simp [Programs.run, Programs.command, nodeCommands, effect]

theorem launchCommands_agree {exec : MgGraphExec} (wf : ExecWf exec)
    (loaded : ∀ node ∈ exec.nodes, node.Loaded)
    (avoids : ∀ node ∈ exec.nodes, node.AvoidsWorkspace exec.workspace.backendImpl)
    (honest : ∀ node ∈ exec.nodes, programs.Honest node.contents) (memory : Memory) :
    AgreeOff exec.workspace.backendImpl (programs.run (launchCommands exec) memory)
      (programs.perform (exec.nodes.map MgExecNode.contents) memory) := by
  have direct : AgreeOff exec.workspace.backendImpl
      (programs.run (exec.nodes.flatMap (nodeCommands exec.workspace.backendImpl)) memory)
      (programs.perform (exec.nodes.map MgExecNode.contents) memory) :=
    nodes_agree (fun node member => wf.nodeBounds member) loaded avoids honest
      fun location _ => rfl
  unfold launchCommands
  rcases usable : usableIcb exec.icb with _ | icb
  · exact direct
  · have present : exec.icb.backendImpl = some icb := by
      unfold usableIcb at usable
      split at usable
      · exact usable
      · cases usable
    obtain ⟨dispatch, same⟩ := wf.icbMatches present
    simp only [same.run_eq]
    exact direct

/-- What a successful launch commits does what the nodes of its plan mean. -/
theorem launch_does_nodes {system : System} (reachable : Reachable system) {address : ExecPtr}
    {exec : MgGraphExec} (live : system.world.execs.get? address = some exec)
    {stream : Option MgStream} {launch : LaunchPtr}
    (success : (system.record (.graphLaunch (some address) stream)).result = .ok (.launch launch))
    (avoids : ∀ node ∈ exec.nodes, node.AvoidsWorkspace exec.workspace.backendImpl)
    (honest : ∀ node ∈ exec.nodes, programs.Honest node.contents) (memory : Memory) :
    AgreeOff exec.workspace.backendImpl
      (programs.run (committedCommands
        (system.record (.graphLaunch (some address) stream)).events) memory)
      (programs.perform (exec.nodes.map MgExecNode.contents) memory) := by
  obtain ⟨built, _, submitted⟩ := launch_submits live success
  rw [submitted.commands]
  exact launchCommands_agree (reachable.execWf live) (reachable.nodes_loaded live) avoids honest
    memory

end MetalGraph
