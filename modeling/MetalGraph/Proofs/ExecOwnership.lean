import MetalGraph.Proofs.ExecInvariant
import MetalGraph.Proofs.GraphOwnership

set_option autoImplicit false

/- The references that executable plans hold. -/
namespace MetalGraph

open Eff

/-! ### References -/

def MgExecNode.references : MgExecNode → List Nat
  | .dispatch node => bindingAddresses node.buffers
  | .copy node => [node.src.address, node.dst.address]
  | .fill node => [node.dst.address]
  | .eventWait node | .eventSignal node => [node.event.address]
  | .mpsgraph node => tensorAddresses node.feeds ++ tensorAddresses node.targets
  | .workspaceFill node => [node.dst.address]
  | .barrier _ | .workspace _ | .unknown _ => []

/-- The objects a plan refers to, each as often as it does. -/
def MgGraphExec.references (exec : MgGraphExec) : List Nat :=
  exec.nodes.flatMap MgExecNode.references ++ arenaAddresses exec.workspace.arena

/-! ### Destruction -/

theorem execTensorsClear_gives (tensors : List MgMpsgraphTensor) :
    Gives (tensorAddresses tensors) (mgExecMpsgraphTensorArrayClear tensors) :=
  releaseEach_gives _ tensors

theorem mgExecNodeClear_gives (node : MgExecNode) :
    Gives node.references (mgExecNodeClear node) := by
  cases node with
  | dispatch node => exact bindingsClear_gives _
  | copy node => exact (releaseObject_gives _).seq (releaseObject_gives _)
  | fill node | workspaceFill node => exact releaseObject_gives _
  | eventWait node | eventSignal node => exact releaseObject_gives _
  | mpsgraph node => exact (execTensorsClear_gives _).seq (execTensorsClear_gives _)
  | barrier id | workspace node | unknown kind => exact Gives.nothing

theorem mgWorkspacePlanClear_gives (plan : MgWorkspacePlan) :
    Gives (arenaAddresses plan.arena) (mgWorkspacePlanClear plan) := mgArenaRelease_gives plan.arena

theorem mgGraphExecDestroy_gives (exec : MgGraphExec) :
    Gives exec.references (mgGraphExecDestroy exec) :=
  (Gives.forEach mgExecNodeClear_gives exec.nodes).seq (mgWorkspacePlanClear_gives exec.workspace)

/-! ### Cloning -/

section Cloning

variable {α β : Type} {excused : Fault → Prop} {held : Multiset Nat}

/-- What a failed clone has left holds its references. -/
def Leaves (references : α → List Nat) (held : Multiset Nat) (failure : Fault × α) (env : Env) :
    Prop :=
  Ledger (references failure.2 + held) env

/-- A clone holds its references, whether it is complete or not. -/
def Clones (references : α → List Nat) (held : Multiset Nat) (body : Fills α α) : Prop :=
  Triple (Ledger held) body (fun value => Ledger (references value + held))
    (Leaves references held)

theorem holding_leaves {before : Env → Prop} {body : Run β} {after : β → Env → Prop}
    {references : α → List Nat} {partly : α} {left : Multiset Nat}
    (inner : Triple before body after (Stops (fun _ => False) (Ledger left)))
    (same : (references partly : Multiset Nat) + held = left) :
    Triple before (holding body partly) after (Leaves references held) := by
  refine Triple.catching inner fun _ => Triple.fail fun _ stopped => ?_
  rw [Leaves, same]
  exact stopped.resolve_left id

theorem wrapped_clones {wrap : α → β} {body : Fills α α} {inside : α → List Nat}
    {references : β → List Nat} (same : ∀ value, references (wrap value) = inside value)
    (inner : Clones inside held body) : Clones references held (wrapped wrap body) := by
  refine Triple.bind (Triple.catching inner fun failure => Triple.fail fun _ ledger => ?_)
    fun value => Triple.pure fun _ ledger => ?_
  · unfold Leaves at *
    rwa [same]
  · rwa [same]

/-- A refusal before anything is held. -/
theorem attempt_leaves {references : α → List Nat} {partly : α} {reason : Fault}
    (nothing : references partly = []) {body : Fills α Unit}
    (stable : Stable (fun _ => False) (Ledger held) body)
    (known : FailsOnly (· = (reason, partly)) body) :
    Triple (Ledger held) body (fun _ => Ledger held) (Leaves references held) := by
  apply Triple.of_outcomes (fun _ _ _ ledger ran => stable.ok ledger ran)
  intro env failure reached ledger ran
  rw [Leaves, known env failure reached ran, nothing, Multiset.coe_nil, zero_add]
  exact (stable.error ledger ran).resolve_left id

theorem mgCloneDispatch_clones {id : MgNodeId} {flags : MgPatchFlags} {node : MgDispatchNode}
    (given : ∀ binding ∈ node.buffers, binding.buffer.address ∈ held) :
    Clones (fun dispatch => bindingAddresses dispatch.buffers) held
      (mgCloneDispatch id flags node) := by
  apply Triple.bind (attempt_leaves rfl (attemptBoth_stable _) (attemptBoth_fails rfl))
  intro _
  apply Triple.bind (holding_leaves (copyBindings_takes given) (zero_add held))
  intro _
  refine Triple.bind (holding_leaves (copyScalarsAndResources_stable _ _ _) rfl) fun _ => ?_
  exact Triple.pure fun _ ledger => ledger

theorem mgCloneMpsgraphTensors_takes {src : List MgMpsgraphTensor}
    (given : ∀ tensor ∈ src, tensor.buffer.address ∈ held) :
    Triple (Ledger held) (mgCloneMpsgraphTensors src)
      (fun tensors => Ledger (tensorAddresses tensors + held)) (Stops excused (Ledger held)) := by
  cases src with
  | nil => exact Triple.pure fun _ ledger => by simpa [tensorAddresses] using ledger
  | cons first rest =>
      apply Triple.bind (attemptOr_stable _)
      intro _
      refine (Triple.foldEach (fun _ tensors => Ledger (tensorAddresses tensors + held)) ?_).weaken
        (fun _ ledger => by simpa [tensorAddresses] using ledger) (fun _ _ ledger => ledger)
        fun _ _ stopped => stopped
      intro done tensor tensors member
      refine Triple.bind (Triple.whenever (fun _ => cleaning_rule (attemptOr_stable _)
        (execTensorsClear_gives tensors)) fun _ _ ledger => ledger) fun _ => ?_
      refine Triple.bind (retainObject_moves
        (Multiset.mem_add.mpr (.inr (given tensor member)))).rule fun _ => ?_
      exact Triple.pure fun _ ledger => by rwa [tensorAddresses_append]

def MgExecMpsgraph.references (mpsgraph : MgExecMpsgraph) : List Nat :=
  tensorAddresses mpsgraph.feeds ++ tensorAddresses mpsgraph.targets

theorem mgCloneMpsgraph_clones {id : MgNodeId} {node : MgMpsgraphNode}
    (feeds : ∀ tensor ∈ node.feeds, tensor.buffer.address ∈ held)
    (targets : ∀ tensor ∈ node.targets, tensor.buffer.address ∈ held) :
    Clones MgExecMpsgraph.references held (mgCloneMpsgraph id node) := by
  apply Triple.bind (attempt_leaves rfl (attemptOr_stable _) (attemptOr_fails rfl))
  intro _
  refine Triple.bind (holding_leaves (mgCloneMpsgraphTensors_takes feeds) (zero_add held))
    fun cloned => ?_
  have targetsHeld : ∀ tensor ∈ node.targets,
      tensor.buffer.address ∈ (tensorAddresses cloned : Multiset Nat) + held :=
    fun tensor member => Multiset.mem_add.mpr (.inr (targets tensor member))
  refine Triple.bind (holding_leaves (mgCloneMpsgraphTensors_takes targetsHeld) ?_)
    fun cloned' => ?_
  · rw [MgExecMpsgraph.references, ← Multiset.coe_add]
    simp [tensorAddresses]
  · apply Triple.pure
    intro _ ledger
    rwa [MgExecMpsgraph.references, ← Multiset.coe_add, add_assoc, add_left_comm]

theorem holdingRetain_clones {references : α → List Nat} {partly : α} {address : Nat}
    {next : Unit → Fills α α} (member : address ∈ held)
    (rest : Triple (Ledger (address ::ₘ held)) (next ())
      (fun value => Ledger (references value + held))
      (Leaves references held)) :
    Clones references held (holding (retainObject address) partly >>= next) :=
  Triple.bind (Triple.catching (retainObject_moves member) fun _ _ never => never.elim)
    fun _ => rest

/-- The references of a graph node go to its clone. -/
theorem mgCloneExecNode_clones {src : MgNode} {plan : MgWorkspacePlan}
    (given : ∀ address ∈ src.as.references, address ∈ held) :
    Clones MgExecNode.references held (mgCloneExecNode src plan) := by
  obtain ⟨graph, id, index, flags, as⟩ := src
  cases as with
  | dispatch node =>
      refine wrapped_clones (fun _ => rfl) (mgCloneDispatch_clones fun binding member => ?_)
      exact given _ (List.mem_map_of_mem member)
  | copy node =>
      apply holdingRetain_clones (given _ (by simp [MgNodeAs.references]))
      refine Triple.bind (Triple.catching (retainObject_moves (Multiset.mem_cons_of_mem
        (given node.dst.address (by simp [MgNodeAs.references])))) fun _ _ never => never.elim)
        fun _ => Triple.pure fun _ ledger => ?_
      rwa [MgExecNode.references, coe_pair_add, Multiset.cons_swap]
  | fill node =>
      exact holdingRetain_clones (given _ (by simp [MgNodeAs.references]))
        (Triple.pure fun _ ledger => ledger)
  | eventWait node | eventSignal node =>
      exact holdingRetain_clones (given _ (by simp [MgNodeAs.references]))
        (Triple.pure fun _ ledger => ledger)
  | barrier => exact Triple.pure fun _ ledger => by simpa [MgExecNode.references] using ledger
  | mpsgraph node =>
      refine wrapped_clones (fun _ => rfl) (mgCloneMpsgraph_clones (fun tensor member => ?_)
        fun tensor member => ?_)
      · exact given _ (List.mem_append_left _ (List.mem_map_of_mem member))
      · exact given _ (List.mem_append_right _ (List.mem_map_of_mem member))
  | workspace node =>
      apply Triple.bind (holding_leaves Stable.ofExcept (zero_add held))
      intro offset
      exact Triple.pure fun _ ledger => by simpa [MgExecNode.references] using ledger
  | workspaceFill node =>
      apply holdingRetain_clones (given _ (by simp [MgNodeAs.references]))
      refine Triple.bind (holding_leaves Stable.ofExcept rfl) fun offset => ?_
      exact Triple.pure fun _ ledger => ledger
  | unknown kind =>
      exact Triple.fail fun _ ledger => by
        simpa [Leaves, MgExecNode.references] using ledger

end Cloning

/-! ### Instantiation -/

section Instantiation

variable {excused : Fault → Prop} {held : Multiset Nat}

theorem mgGraphTopologicalOrder_stable (graph : MgGraph) :
    Stable excused (Ledger held) (mgGraphTopologicalOrder graph) := by
  unfold mgGraphTopologicalOrder
  split
  · exact .pure _
  · exact .bind (attemptBoth_stable _) fun _ => .ofExcept

theorem mgGraphValidate_stable (graph : MgGraph) :
    Stable excused (Ledger held) (mgGraphValidate graph) := by
  unfold mgGraphValidate
  split
  · exact .pure _
  · exact .bind (attemptOr_stable _) fun _ =>
      .bind (mgGraphTopologicalOrder_stable graph) fun _ => .pure _

theorem instantiateOrder_stable (graph : MgGraph) :
    Stable excused (Ledger held) (instantiateOrder graph) := by
  unfold instantiateOrder
  split
  · exact .pure _
  · exact .bind (attemptOr_stable _) fun _ => mgGraphTopologicalOrder_stable graph

/-- While nodes are planned the plan has no arena. -/
theorem planWorkspaceNode_bare {plan : MgWorkspacePlan} {node : MgNode}
    (bare : plan.arena = none) :
    Triple (Ledger held) (planWorkspaceNode plan node)
      (fun next env => next.arena = none ∧ Ledger held env) (Stops excused (Ledger held)) := by
  unfold planWorkspaceNode
  split
  · exact Triple.pure fun _ ledger => ⟨bare, ledger⟩
  · rename_i size alignment need
    have clears : Gives [] (mgWorkspacePlanClear plan) := by
      simpa [bare, arenaAddresses] using mgWorkspacePlanClear_gives plan
    refine cleaning_rule ?_ clears
    rw [Multiset.coe_nil, zero_add]
    refine Triple.ofExcept (fun _ _ => ?_) fun _ _ _ ledger => .inr ledger
    refine Stable.returns (.bind .orFail fun _ => .bind .require fun _ => .bind .require fun _ =>
      .bind (attemptOr_stable _) fun _ => .pure _) fun env next reached ran => ?_
    simp only [mgWorkspacePlanAppend, bind_ok, pure_ok] at ran
    obtain ⟨_, _, _, _, _, _, _, _, _, _, _, _, rfl, _⟩ := ran
    exact bare

theorem mgGraphPlanWorkspace_takes {graph : MgGraph} {order : List Nat}
    (given : ∀ address ∈ arenaAddresses graph.arena, address ∈ held) :
    Triple (Ledger held) (mgGraphPlanWorkspace graph order)
      (fun plan => Ledger (arenaAddresses plan.arena + held)) (Stops excused (Ledger held)) := by
  have loop : Triple (Ledger held)
      (Eff.foldEach (fun plan index => do
        let node ← nodeAt graph index
        planWorkspaceNode plan node) MgWorkspacePlan.zero order)
      (fun plan env => plan.arena = none ∧ Ledger held env) (Stops excused (Ledger held)) := by
    refine (Triple.foldEach (fun _ plan env => plan.arena = none ∧ Ledger held env) ?_).weaken
      (fun _ ledger => ⟨rfl, ledger⟩) (fun _ _ holds => holds) fun _ _ stopped => stopped
    rintro done index plan member env ⟨bare, ledger⟩
    exact Triple.orFail (fun node _ => planWorkspaceNode_bare bare)
      (fun _ _ ledger => .inr ledger) env ledger
  apply Triple.bind loop
  intro plan
  rcases attached : graph.arena with _ | arena
  · exact Triple.pure fun _ holds => by
      rw [holds.1]
      simpa [arenaAddresses] using holds.2
  · rintro env ⟨bare, ledger⟩
    have clears : Gives [] (mgWorkspacePlanClear plan) := by
      simpa [bare, arenaAddresses] using mgWorkspacePlanClear_gives plan
    have member : arena.address ∈ held := given _ (by simp [attached, arenaAddresses])
    have attach : Triple (Ledger held) (attachArena plan arena)
        (fun plan => Ledger (arenaAddresses plan.arena + held))
        (Stops (fun _ => False) (Ledger held)) := by
      refine Triple.require (fun _ => ?_) fun _ _ ledger => .inr ledger
      refine Triple.require (fun _ => ?_) fun _ _ ledger => .inr ledger
      exact Triple.bind (retainObject_moves member).rule fun _ => Triple.pure fun _ ledger => ledger
    refine cleaning_rule ?_ clears env ledger
    rw [Multiset.coe_nil, zero_add]
    exact attach

theorem newBufferWithLength_stable (device : Nat) (length : UInt64) (hasContents : Bool) :
    Stable excused (Ledger held) (newBufferWithLength device length hasContents) := by
  refine .bind attempt_stable fun granted => ?_
  cases granted
  · exact .pure none
  · exact .bind newMetalObject_stable fun _ => .pure _

theorem mgWorkspaceAllocate_stable (plan : MgWorkspacePlan) (device : Nat) :
    Stable excused (Ledger held) (mgWorkspaceAllocate plan device) := by
  unfold mgWorkspaceAllocate
  split
  · exact .pure _
  · exact .bind (newBufferWithLength_stable _ _ _) fun _ => .bind .orFail fun _ => .pure _

theorem mgWorkspaceAllocate_arena {plan workspace : MgWorkspacePlan} {device : Nat}
    {env reached : Env} (success : mgWorkspaceAllocate plan device env = (.ok workspace, reached)) :
    workspace.arena = plan.arena := by
  unfold mgWorkspaceAllocate at success
  split at success
  · rw [(pure_ok.mp success).1]
  · simp only [bind_ok, orFail_ok, pure_ok] at success
    obtain ⟨_, _, _, buffer, _, _, rfl, _⟩ := success
    rfl

theorem loadNode_stable (node : MgExecNode) : Stable excused (Ledger held) (loadNode node) := by
  cases node with
  | mpsgraph mpsgraph =>
      exact .bind (.bind .read fun _ => .bind .require fun _ => .bind (attemptOr_stable _) fun _ =>
        .bind (attemptOr_stable _) fun _ => .bind (attemptOr_stable _) fun _ => .pure _)
        fun _ => .pure _
  | dispatch dispatch =>
      exact .bind (.bind (attemptOr_stable _) fun _ => .bind (attemptOr_stable _) fun _ =>
        .bind (attemptOr_stable _) fun _ => .pure _) fun _ => .pure _
  | copy | fill | eventWait | eventSignal | barrier | workspace | workspaceFill | unknown =>
      exact .pure _

theorem loadNode_references {node loaded : MgExecNode} {env reached : Env}
    (success : loadNode node env = (.ok loaded, reached)) :
    loaded.references = node.references := by
  rw [loadNode_ok success]
  cases node <;> rfl

theorem mgIcbPlanBuild_stable (nodes : List MgExecNode) :
    Stable excused (Ledger held) (mgIcbPlanBuild nodes) := by
  refine .bind attempt_stable fun available => ?_
  split
  · exact .pure _
  · split
    · exact .pure _
    · split
      · dsimp only
        split
        · exact .pure _
        · refine .bind attempt_stable fun granted => ?_
          cases granted <;> exact .pure _
      · exact .pure _
  · exact .pure _

theorem instantiateNode_clones {src : MgNode} {plan : MgWorkspacePlan}
    (given : ∀ address ∈ src.as.references, address ∈ held) :
    Clones MgExecNode.references held (instantiateNode src plan) := by
  apply Triple.bind (mgCloneExecNode_clones given)
  intro node
  refine holding_leaves ?_ rfl
  refine (Stable.returns (loadNode_stable node) fun _ _ _ => loadNode_references).weaken
    (fun _ ledger => ledger) (fun loaded env holds => ?_) fun _ _ stopped => stopped
  rw [holds.1]
  exact holds.2

/-- A failure outside of what the source defines. -/
def Undefined (reason : Fault) : Prop := reason = .undefined

theorem instantiateStep_takes {graph : MgGraph} {plan : MgWorkspacePlan}
    {nodes : List MgExecNode} {index : Nat}
    (given : ∀ node ∈ graph.nodes, ∀ address ∈ node.as.references, address ∈ held) :
    Triple (Ledger (nodes.flatMap MgExecNode.references + (arenaAddresses plan.arena + held)))
      (instantiateStep graph plan nodes index)
      (fun next => Ledger (next.flatMap MgExecNode.references + (arenaAddresses plan.arena + held)))
      (Stops Undefined (Ledger held)) := by
  refine Triple.orFail (fun src present => ?_) fun _ _ _ => .inl rfl
  have known : ∀ address ∈ src.as.references, address ∈
      (nodes.flatMap MgExecNode.references : Multiset Nat) + (arenaAddresses plan.arena + held) :=
    fun address member => Multiset.mem_add.mpr (.inr (Multiset.mem_add.mpr (.inr
      (given src (List.mem_of_getElem? present) address member))))
  have joined : ∀ node : MgExecNode, (node.references : Multiset Nat) +
      (nodes.flatMap MgExecNode.references + (arenaAddresses plan.arena + held)) =
      ((nodes ++ [node]).flatMap MgExecNode.references : List Nat) +
        (arenaAddresses plan.arena + held) := by
    intro node
    rw [List.flatMap_append, List.flatMap_singleton, ← Multiset.coe_add, add_assoc, add_left_comm]
  refine Triple.bind (Triple.catching (instantiateNode_clones known) fun failure => ?_)
    fun node => Triple.pure fun _ ledger => by rwa [← joined]
  obtain ⟨reason, partly⟩ := failure
  have gives := mgGraphExecDestroy_gives ⟨nodes ++ [partly], none, plan, .zero, 0⟩ held
  refine (Triple.bind gives.rule fun _ => Triple.fail fun _ ledger => .inr ledger).weaken
    (fun env ledger => ?_) (fun _ _ never => never) fun _ _ stopped => stopped
  rw [Leaves, joined] at ledger
  rwa [MgGraphExec.references, ← Multiset.coe_add, add_assoc]

theorem mgGraphInstantiate_takes {graph : MgGraph} {device : Option MgDevice}
    (given : ∀ address ∈ graph.references, address ∈ held) :
    Triple (Ledger held) (mgGraphInstantiate graph device)
      (fun exec => Ledger (exec.references + held)) (Stops Undefined (Ledger held)) := by
  have nodesHeld : ∀ node ∈ graph.nodes, ∀ address ∈ node.as.references, address ∈ held :=
    fun node member address listed => given address
      (List.mem_append_left _ (List.mem_flatMap.mpr ⟨node, member, listed⟩))
  refine Triple.orFail (fun metalDevice _ => ?_) fun _ _ ledger => .inr ledger
  apply Triple.bind (mgGraphValidate_stable graph)
  intro _
  apply Triple.bind (instantiateOrder_stable graph)
  intro order
  apply Triple.bind (attemptOr_stable _)
  intro _
  refine Triple.bind (mgGraphPlanWorkspace_takes fun address member =>
    given address (List.mem_append_right _ member)) fun plan => ?_
  refine Triple.bind (Triple.whenever (fun _ => cleaning_rule (attemptOr_stable _)
    (mgWorkspacePlanClear_gives plan)) fun _ _ ledger => ledger) fun _ => ?_
  have allocated : Triple (Ledger (arenaAddresses plan.arena + held))
      (cleaning (mgWorkspaceAllocate plan metalDevice)
        (mgGraphExecDestroy ⟨[], none, plan, .zero, 0⟩))
      (fun workspace => Ledger (arenaAddresses workspace.arena + held))
      (Stops Undefined (Ledger held)) := by
    refine (cleaning_rule (Stable.returns (mgWorkspaceAllocate_stable plan metalDevice)
      fun _ _ _ => mgWorkspaceAllocate_arena) (mgGraphExecDestroy_gives _)).weaken
      (fun _ ledger => ledger) (fun workspace env holds => ?_) fun _ _ stopped => stopped
    rw [holds.1]
    exact holds.2
  apply Triple.bind allocated
  intro workspace
  have cloned : Triple (Ledger (arenaAddresses workspace.arena + held))
      (Eff.foldEach (instantiateStep graph workspace) [] order)
      (fun nodes => Ledger (nodes.flatMap MgExecNode.references +
        (arenaAddresses workspace.arena + held))) (Stops Undefined (Ledger held)) := by
    refine (Triple.foldEach (fun _ nodes => Ledger (nodes.flatMap MgExecNode.references +
      (arenaAddresses workspace.arena + held))) fun _ _ _ _ =>
      instantiateStep_takes nodesHeld).weaken (fun _ ledger => ?_) (fun _ _ ledger => ledger)
      fun _ _ stopped => stopped
    rwa [List.flatMap_nil, Multiset.coe_nil, zero_add]
  apply Triple.bind cloned
  intro nodes
  refine Triple.bind ((mgIcbPlanBuild_stable nodes).certain (mgIcbPlanBuild_fails nodes))
    fun icb => Triple.pure fun _ ledger => ?_
  rwa [MgGraphExec.references, ← Multiset.coe_add, add_assoc]

end Instantiation

/-! ### Patches -/

section Patches

variable {exec : MgGraphExec} {env : Env} {held others : Multiset Nat}

theorem stored_exchange {position : Nat} {old fresh : MgExecNode} {given taken : Multiset Nat}
    (present : exec.nodes[position]? = some old)
    (exchange : (fresh.references : Multiset Nat) + given = old.references + taken) :
    ((exec.stored position fresh).references : Multiset Nat) + given =
      exec.references + taken := by
  have swapped := coe_flatMap_set MgExecNode.references present fresh
  apply add_right_cancel (b := (old.references : Multiset Nat))
  rw [MgGraphExec.references, MgGraphExec.references, ← Multiset.coe_add, ← Multiset.coe_add]
  change (exec.nodes.set position fresh).flatMap MgExecNode.references +
    (arenaAddresses exec.workspace.arena : Multiset Nat) + given + old.references = _
  calc
    _ = ((exec.nodes.set position fresh).flatMap MgExecNode.references : Multiset Nat) +
          old.references + (arenaAddresses exec.workspace.arena + given) := by ac_rfl
    _ = (exec.nodes.flatMap MgExecNode.references : Multiset Nat) +
          arenaAddresses exec.workspace.arena + (fresh.references + given) := by
      rw [swapped]
      ac_rfl
    _ = _ := by
      rw [exchange]
      ac_rfl

theorem taken_eq_given {before after given taken : Multiset Nat}
    (exchange : after + given = before + taken) (others : Multiset Nat) :
    taken + (before + others) = given + (after + others) := by
  rw [← add_assoc, add_comm taken, ← exchange, add_comm after, add_assoc]

theorem Ledger.stored (ledger : Ledger (exec.references + others) env) {position : Nat}
    {old fresh : MgExecNode} (present : exec.nodes[position]? = some old)
    (same : fresh.references = old.references) :
    Ledger ((exec.stored position fresh).references + others) env := by
  have kept : (exec.nodes.set position fresh).map MgExecNode.references =
      exec.nodes.map MgExecNode.references := map_set_of_eq present same
  have references : (exec.stored position fresh).references = exec.references := by
    simp only [MgGraphExec.references, MgGraphExec.stored, List.flatMap_def, kept]
  rwa [references]

/-- The new reference is taken before the old one is given up, so they may be the same. -/
theorem Ledger.swapped (ledger : Ledger (exec.references + others) env) {position : Nat}
    {old fresh : MgExecNode} (present : exec.nodes[position]? = some old) {taken given : Nat}
    (exchange : (fresh.references : Multiset Nat) + {given} = old.references + {taken})
    (member : taken ∈ exec.references + others) :
    Ledger ((exec.stored position fresh).references + others) (env.swapped taken given) := by
  have both := ledger.retain member
  have whole : taken ::ₘ ((exec.references : Multiset Nat) + others) =
      given ::ₘ ((exec.stored position fresh).references + others) := by
    rw [← Multiset.singleton_add, ← Multiset.singleton_add]
    exact taken_eq_given (stored_exchange present exchange) others
  rw [whole] at both
  exact both.release

theorem rebound_exchange {buffers : List MgBufferBinding} {slot : Nat}
    {old fresh : MgBufferBinding} (present : buffers[slot]? = some old) :
    (bindingAddresses (buffers.set slot fresh) : Multiset Nat) + {old.buffer.address} =
      bindingAddresses buffers + {fresh.buffer.address} := by
  have swapped := coe_flatMap_set (fun binding : MgBufferBinding => [binding.buffer.address])
    present fresh
  simpa only [bindingAddresses, List.map_eq_flatMap, Multiset.coe_singleton] using swapped

/-- A patch exchanges references, and those of the plan stay accounted for. -/
theorem PatchStep.accounts {world : World} {patch : ExecPatch} {reached : Focus MgGraphExec}
    (step : PatchStep exec env patch reached)
    (ledger : Ledger (exec.references + others) env)
    (knows : world.Knows (exec.references + others)) (alive : world.patchAlive patch = true) :
    Ledger (reached.object.references + others) reached.env := by
  cases step with
  | dispatchGrid target | dispatchScalar target => exact ledger.stored target.target.present rfl
  | optimizationFlags => exact ledger
  | @eventValue nodeId position node event value target given =>
      apply ledger.stored target.present
      cases node with
      | eventWait | eventSignal => cases given; rfl
      | _ => cases given
  | dispatchBuffer target fits bound valid =>
      exact ledger.swapped target.target.present (rebound_exchange (bindingAt_eq bound).1)
        (knows.buffers _ alive _ rfl)
  | fillNode target given =>
      refine ledger.swapped target.present (add_comm _ _) (knows.buffers _ alive _ ?_)
      rw [Option.bind_some, fillContents_buffer given, Option.map_some]
  | @copyNode nodeId position copy desc new target given =>
      obtain ⟨src, dst⟩ := Bool.and_eq_true_iff.mp alive
      obtain ⟨fromDesc, toDesc⟩ := copyContents_buffers given
      have srcHeld : new.src.address ∈ (exec.references : Multiset Nat) + others :=
        knows.buffers _ src _ (by rw [Option.bind_some, fromDesc, Option.map_some])
      have dstHeld : new.dst.address ∈ (exec.references : Multiset Nat) + others :=
        knows.buffers _ dst _ (by rw [Option.bind_some, toDesc, Option.map_some])
      have both := (ledger.retain srcHeld).retain (Multiset.mem_cons_of_mem dstHeld)
      let fresh : MgExecNode := .copy { copy with toMgCopyNode := new }
      have exchange : ((exec.stored position fresh).references : Multiset Nat) +
          ([copy.src.address, copy.dst.address] : List Nat) =
          exec.references + ([new.src.address, new.dst.address] : List Nat) :=
        stored_exchange target.present (add_comm _ _)
      have whole : new.dst.address ::ₘ new.src.address ::ₘ
          ((exec.references : Multiset Nat) + others) =
          copy.src.address ::ₘ copy.dst.address ::ₘ
            ((exec.stored position fresh).references + others) := by
        rw [Multiset.cons_swap, ← coe_pair_add, ← coe_pair_add]
        exact taken_eq_given exchange others
      rw [whole] at both
      exact both.release.release

end Patches

end MetalGraph
