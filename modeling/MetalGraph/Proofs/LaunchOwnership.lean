import MetalGraph.Proofs.ExecOwnership
import MetalGraph.Proofs.LaunchFailure

set_option autoImplicit false

/- The references that launches hold while they run. -/
namespace MetalGraph

open Eff

/-- The objects a launch keeps alive, each as often as it retains it. -/
def MgLaunch.references (launch : MgLaunch) : List Nat :=
  launch.retainedBuffers.map MgBuffer.address ++ launch.retainedEvents.map MgEvent.address

def Encoder.references (encoder : Encoder) : List Nat := encoder.launch.references

theorem mgLaunchDestroy_gives (launch : MgLaunch) :
    Gives launch.references (mgLaunchDestroy launch) :=
  (releaseEach_gives MgBuffer.address launch.retainedBuffers).seq
    (releaseEach_gives MgEvent.address launch.retainedEvents)

/-! ### Encoding -/

section Encoding

variable {others : Multiset Nat}

/-- A part of the encode loop that keeps account of what the launch retains. -/
def Retains (others : Multiset Nat) {α : Type} (body : Over Encoder α) : Prop :=
  Stable Undefined (Accounted Encoder.references others) body

theorem onEnv_retains {α : Type} {body : Run α}
    (stable : ∀ held, Stable Undefined (Ledger held) body) : Retains others (onEnv body) := by
  refine Triple.of_outcomes ?_ ?_
  · intro focus value reached ledger ran
    obtain ⟨ran, same⟩ := onEnv_ok.mp ran
    rw [Accounted, same]
    exact (stable _).ok ledger ran
  · intro focus reason reached ledger ran
    obtain ⟨ran, same⟩ := onEnv_error.mp ran
    apply ((stable _).error ledger ran).imp_right
    intro kept
    rwa [Accounted, same]

theorem modifySelf_retains {change : Encoder → Encoder}
    (same : ∀ encoder, (change encoder).references = encoder.references) :
    Retains others (modifySelf change) := by
  intro focus ledger
  change Ledger ((change focus.object).references + others) focus.env
  rw [same]
  exact ledger

/-- Retaining an object of others and storing it is accounted for. -/
theorem retained_retains {address : Nat} {room : Encoder → Prop} [DecidablePred room]
    {store : Encoder → Encoder} (member : address ∈ others)
    (stored : ∀ encoder, (store encoder).references.Perm (address :: encoder.references)) :
    Retains others (do
      onEnv (retainObject address)
      let encoder ← self
      require (room encoder) .undefined
      modifySelf store) := by
  have retained : Triple (Accounted Encoder.references others)
      (onEnv (retainObject address) : Over Encoder Unit)
      (fun _ focus => Ledger (address ::ₘ (focus.object.references + others)) focus.env)
      (Stops Undefined (Accounted Encoder.references others)) :=
    fun focus ledger => Ledger.retain ledger (Multiset.mem_add.mpr (.inr member))
  refine Triple.bind retained fun _ => self_then fun encoder => ?_
  refine Triple.require (fun _ => ?_) fun _ _ _ => .inl rfl
  intro focus ledger
  have joined : ((store focus.object).references : Multiset Nat) + others =
      address ::ₘ (focus.object.references + others) := by
    rw [Multiset.coe_eq_coe.mpr (stored focus.object), ← Multiset.cons_coe, Multiset.cons_add]
  rw [← joined] at ledger
  exact ledger

theorem retainLaunchBuffer_retains {buffer : MgBuffer} (member : buffer.address ∈ others) :
    Retains others (retainLaunchBuffer buffer) := by
  apply retained_retains member
  intro encoder
  simp only [Encoder.references, MgLaunch.references, List.map_append, List.map_singleton,
    List.append_assoc]
  exact List.perm_middle

theorem retainLaunchEvent_retains {event : MgEvent} (member : event.address ∈ others) :
    Retains others (retainLaunchEvent event) := by
  apply retained_retains member
  intro encoder
  simp only [Encoder.references, MgLaunch.references, List.map_append, List.map_singleton,
    ← List.append_assoc]
  exact List.perm_append_singleton _ _

theorem request_retains (reason : Fault) : Retains others (onEnv (attemptOr reason)) :=
  onEnv_retains fun _ => attemptOr_stable reason

theorem encodeCommand_retains (command : Command) : Retains others (encodeCommand command) :=
  .bind self_stable fun _ => onEnv_retains fun _ => emit_stable _

theorem markWork_retains : Retains others markWork := modifySelf_retains fun _ => rfl

theorem commitCurrent_retains : Retains others commitCurrent :=
  .bind self_stable fun _ => .bind (onEnv_retains fun _ => emit_stable _) fun _ =>
    .bind self_stable fun _ => .bind (.whenever fun _ => .bind (request_retains _) fun _ =>
      modifySelf_retains fun _ => rfl) fun _ => modifySelf_retains fun _ => rfl

theorem nextCommandBuffer_retains (nodeId : MgNodeId) : Retains others (nextCommandBuffer nodeId) :=
  .bind (onEnv_retains fun _ => newCommandBuffer_stable) fun _ => .bind .orFail fun _ =>
    modifySelf_retains fun _ => rfl

theorem flushWork_retains (nodeId : MgNodeId) : Retains others (flushWork nodeId) :=
  .bind self_stable fun _ => .bind commitCurrent_retains fun _ =>
    .bind (onEnv_retains fun _ => waitUntilCompleted_stable _) fun _ => .bind .require fun _ =>
    nextCommandBuffer_retains nodeId

theorem requests_retains {α : Type} (reason : Fault) (values : List α) :
    Retains others (onEnv (Eff.forEach (fun _ => attemptOr reason) values)) :=
  onEnv_retains fun _ => .forEach fun _ _ => attemptOr_stable reason

theorem mgMpsgraphEncodeNode_retains (mpsgraph : MgExecMpsgraph) :
    Retains others (mgMpsgraphEncodeNode mpsgraph) :=
  .bind (onEnv_retains fun _ => .read) fun _ => .bind .require fun _ => .bind .require fun _ =>
    .bind (requests_retains _ _) fun _ => .bind (requests_retains _ _) fun _ =>
    .bind (request_retains _) fun _ => encodeCommand_retains _

theorem MgExecNode.references_eq (node : MgExecNode) :
    node.references = node.buffers.map MgBuffer.address ++ node.events.map MgEvent.address := by
  cases node <;> simp [MgExecNode.references, MgExecNode.buffers, MgExecNode.events,
    bindingAddresses, tensorAddresses, Function.comp_def]

/-- The account is kept, and what is still to be retained is held by others. -/
def RetainsNext (others : Multiset Nat) (buffers : List MgBuffer) (events : List MgEvent)
    (focus : Focus Encoder) : Prop :=
  ((∀ buffer ∈ buffers, buffer.address ∈ others) ∧ ∀ event ∈ events, event.address ∈ others) ∧
    Accounted Encoder.references others focus

theorem Retains.next {α : Type} {body : Over Encoder α} (retains : Retains others body)
    {buffers : List MgBuffer} {events : List MgEvent} :
    Triple (RetainsNext others buffers events) body (fun _ => RetainsNext others buffers events)
      (Stops Undefined (Accounted Encoder.references others)) :=
  .known fun held => Triple.remember retains held

theorem retains_rules (commands : List Command) :
    EncodeRules (RetainsNext others) (Stops Undefined (Accounted Encoder.references others))
      commands where
  request _ _ _ _ := (request_retains _).next
  command _ _ command _ := (encodeCommand_retains command).next
  buffer buffer _ _ := .known fun ⟨buffers, events⟩ =>
    Triple.remember (retainLaunchBuffer_retains (buffers buffer (.head _)))
      ⟨fun other member => buffers other (.tail _ member), events⟩
  event event _ _ := .known fun ⟨buffers, events⟩ =>
    Triple.remember (retainLaunchEvent_retains (events event (.head _)))
      ⟨buffers, fun other member => events other (.tail _ member)⟩
  mark _ _ := markWork_retains.next
  commit _ _ := commitCurrent_retains.next
  next _ _ nodeId := (nextCommandBuffer_retains nodeId).next
  flush _ _ nodeId := (flushWork_retains nodeId).next

theorem retains_node (node : MgExecNode) :
    NodeRules (RetainsNext others) (Stops Undefined (Accounted Encoder.references others))
      node where
  mpsgraph _ _ mpsgraph _ := (mgMpsgraphEncodeNode_retains mpsgraph).next
  unknown _ _ _ _ := .fail fun _ holds => .inr holds.2

theorem RetainsNext.starts {nodes : List MgExecNode}
    (members : ∀ node ∈ nodes, ∀ address ∈ node.references, address ∈ others)
    {focus : Focus Encoder} (ledger : Accounted Encoder.references others focus) :
    RetainsNext others (nodes.flatMap MgExecNode.buffers) (nodes.flatMap MgExecNode.events)
      focus := by
  refine ⟨⟨fun buffer listed => ?_, fun event listed => ?_⟩, ledger⟩
  · obtain ⟨node, member, used⟩ := List.mem_flatMap.mp listed
    apply members node member
    rw [node.references_eq]
    exact List.mem_append_left _ (List.mem_map_of_mem used)
  · obtain ⟨node, member, used⟩ := List.mem_flatMap.mp listed
    apply members node member
    rw [node.references_eq]
    exact List.mem_append_right _ (List.mem_map_of_mem used)

/-- A launch retains only what its nodes refer to. -/
theorem encodeDirect_retains {exec : MgGraphExec}
    (members : ∀ node ∈ exec.nodes, ∀ address ∈ node.references, address ∈ others) :
    Retains others (encodeDirect exec) :=
  ((retains_rules _).direct (fun node _ => retains_node node) fun _ listed => listed).weaken
    (fun _ => RetainsNext.starts members) (fun _ _ holds => holds.2) fun _ _ stops => stops

theorem encodeIcb_retains {exec : MgGraphExec} {icb : IndirectCommandBuffer}
    (members : ∀ node ∈ exec.nodes, ∀ address ∈ node.references, address ∈ others) :
    Retains others (encodeIcb exec icb) :=
  ((retains_rules _).indirect (List.mem_singleton_self _)
    fun _ _ _ _ _ _ holds => .inr holds.2).weaken
    (fun _ => RetainsNext.starts members) (fun _ _ holds => holds.2) fun _ _ stops => stops

end Encoding

/-! ### Launches -/

section Launching

variable {held : Multiset Nat}

/-- A launch that fails while it is encoded gives up what it has retained. -/
theorem withLocal_accounts (encoder : Encoder) {body : Over Encoder Unit}
    (inner : Retains held body) :
    Triple (Ledger (encoder.launch.references + held))
      (withLocal encoder body fun encoder => mgLaunchDestroy encoder.launch)
      (fun result => Ledger (result.2.launch.references + held))
      (Stops Undefined (Ledger held)) := by
  refine Triple.of_outcomes ?_ ?_
  · intro env result reached ledger ran
    have start : Accounted Encoder.references held ⟨encoder, env⟩ := ledger
    exact inner.ok start (withLocal_ok.mp ran)
  · intro env reason reached ledger stopped
    have start : Accounted Encoder.references held ⟨encoder, env⟩ := ledger
    obtain ⟨focus, ran, cleaned⟩ :=
      withLocal_error (fun _ => (mgLaunchDestroy_total _).fails) stopped
    exact (inner.error start ran).imp_right fun left =>
      (mgLaunchDestroy_gives focus.object.launch held).ok left cleaned

theorem allocateLaunch_takes (exec : MgGraphExec) :
    Triple (Ledger held) (allocateLaunch exec) (fun launch => Ledger (launch.references + held))
      (Stops Undefined (Ledger held)) := by
  apply Triple.bind (attemptOr_stable _)
  intro _
  apply Triple.bind (Stable.whenever fun _ => attemptOr_stable _)
  intro _
  apply Triple.bind (Stable.whenever fun _ => attemptOr_stable _)
  intro _
  exact Triple.pure fun _ ledger => by simpa [MgLaunch.references, MgLaunch.zero] using ledger

/-- What a plan refers to. -/
def RefersTo (references : List Nat) (exec : MgGraphExec) : Prop := exec.references = references

variable {references : List Nat}

theorem RefersTo.nodes {exec : MgGraphExec} (refers : RefersTo references exec)
    (given : ∀ address ∈ references, address ∈ held) :
    ∀ node ∈ exec.nodes, ∀ address ∈ node.references, address ∈ held := by
  intro node listed address member
  refine given address (refers ▸ ?_)
  exact List.mem_append_left _ (List.mem_flatMap.mpr ⟨node, listed, member⟩)

/-- A launch holds what its nodes refer to once it is returned, and nothing if it fails. -/
theorem mgGraphLaunch_takes {address : ExecPtr} {stream : Option MgStream}
    (given : ∀ address ∈ references, address ∈ held) :
    Triple (Carries (RefersTo references) held) (mgGraphLaunch address stream)
      (fun launch => Carries (RefersTo references) (launch.references + held))
      (Stops Undefined (Carries (RefersTo references) held)) := by
  refine Triple.orFail (fun _ _ => ?_) fun _ _ holds => .inr holds
  apply Triple.bind (onEnv_stable newCommandBuffer_stable)
  intro created
  refine Triple.orFail (fun commandBuffer _ => ?_) fun _ _ holds => .inr holds
  apply self_knowing
  intro exec refers
  have members := refers.nodes given
  apply Triple.bind (onEnv_carries (allocateLaunch_takes exec))
  intro launch
  refine Triple.bind (modifySelf_carries ?_) fun _ => ?_
  · exact fun _ refers => refers
  have returned : ∀ launched : MgLaunch, Triple
      (Carries (RefersTo references) (launched.references + held))
      (do
        modifySelf fun exec : MgGraphExec => { exec with inFlightCount := exec.inFlightCount + 1 }
        pure { launched with exec := some address } : Over MgGraphExec MgLaunch)
      (fun launch => Carries (RefersTo references) (launch.references + held))
      (Stops Undefined (Carries (RefersTo references) held)) := by
    intro launched
    refine Triple.bind (modifySelf_carries ?_) fun _ => Triple.pure fun _ holds => holds
    exact fun _ refers => refers
  rcases usableIcb exec.icb with _ | icb
  · refine Triple.bind (onEnv_carries (withLocal_accounts
      ⟨launch, commandBuffer, exec.nodes.isEmpty⟩ (encodeDirect_retains members))) fun result => ?_
    exact returned result.2.launch
  · refine Triple.bind (onEnv_carries (withLocal_accounts ⟨launch, commandBuffer, true⟩
      (encodeIcb_retains members))) fun encoded => ?_
    refine Triple.bind (modifySelf_carries ?_) fun _ => ?_
    · exact fun _ refers => refers
    refine Triple.bind (onEnv_carries (withLocal_accounts encoded.2
      commitCurrent_retains)) fun result => ?_
    exact returned result.2.launch

end Launching

end MetalGraph
