import MetalGraph.Proofs.GraphChanges
import MetalGraph.Proofs.Ledger

set_option autoImplicit false

/- The references that graphs hold, and how calls on graphs keep account of them. -/
namespace MetalGraph

open Eff

/-! ### References -/

def bindingAddresses (buffers : List MgBufferBinding) : List Nat :=
  buffers.map fun binding => binding.buffer.address

def tensorAddresses (tensors : List MgMpsgraphTensor) : List Nat :=
  tensors.map fun tensor => tensor.buffer.address

def arenaAddresses (arena : Option MgArena) : List Nat := (arena.map MgArena.address).toList

def MgNodeAs.references : MgNodeAs → List Nat
  | .dispatch node => bindingAddresses node.buffers
  | .copy node => [node.src.address, node.dst.address]
  | .fill node => [node.dst.address]
  | .eventWait node | .eventSignal node => [node.event.address]
  | .mpsgraph node => tensorAddresses node.feeds ++ tensorAddresses node.targets
  | .workspaceFill node => [node.dst.address]
  | .barrier | .workspace _ | .unknown _ => []

def MgGraph.nodeReferences (graph : MgGraph) : List Nat :=
  graph.nodes.flatMap fun node => node.as.references

/-- The objects a graph refers to, each as often as it does. -/
def MgGraph.references (graph : MgGraph) : List Nat :=
  graph.nodeReferences ++ arenaAddresses graph.arena

/-! ### Destruction -/

theorem bindingsClear_gives (buffers : List MgBufferBinding) :
    Gives (bindingAddresses buffers) (mgDispatchNodeClear buffers) := releaseEach_gives _ buffers

theorem tensorsClear_gives (tensors : List MgMpsgraphTensor) :
    Gives (tensorAddresses tensors) (mgMpsgraphTensorArrayClear tensors) :=
  releaseEach_gives _ tensors

theorem mgNodeClear_gives (as : MgNodeAs) : Gives as.references (mgNodeClear as) := by
  cases as with
  | dispatch node => exact bindingsClear_gives _
  | copy node => exact (releaseObject_gives _).seq (releaseObject_gives _)
  | fill node | workspaceFill node => exact releaseObject_gives _
  | eventWait node | eventSignal node => exact releaseObject_gives _
  | mpsgraph node => exact (tensorsClear_gives _).seq (tensorsClear_gives _)
  | barrier | workspace node | unknown kind => exact Gives.nothing

theorem mgGraphDestroy_gives (graph : MgGraph) :
    Gives graph.references (mgGraphDestroy graph) := by
  have nodes : Gives (graph.nodes.flatMap fun node => node.as.references)
      (Eff.forEach (fun node => mgNodeClear node.as) graph.nodes) :=
    Gives.forEach (fun node => mgNodeClear_gives node.as) graph.nodes
  exact nodes.seq (mgArenaRelease_gives graph.arena)

/-! ### Copies -/

section Copies

variable {excused : Fault → Prop} {held : Multiset Nat}

theorem copyBindings_takes {stage : MgErrorStage} {buffers : List MgBufferBinding}
    (given : ∀ binding ∈ buffers, binding.buffer.address ∈ held) :
    Triple (Ledger held) (copyBindings stage buffers)
      (fun _ => Ledger (bindingAddresses buffers + held)) (Stops excused (Ledger held)) :=
  Triple.bind (Stable.whenever fun _ => attemptOr_stable _) fun _ => (retainEach_moves given).rule

theorem copyScalarsAndResources_stable (stage : MgErrorStage) (scalars : List MgScalarBinding)
    (resources : List MgDispatchResourceDesc) :
    Stable excused (Ledger held) (copyScalarsAndResources stage scalars resources) :=
  .bind (.whenever fun _ => attemptOr_stable _) fun _ =>
    .bind (.forEach fun _ _ => attemptOr_stable _) fun _ => .whenever fun _ => attemptOr_stable _

theorem mgMpsgraphTensorClone_takes {src : TensorSource} (given : src.buffer.address ∈ held) :
    Triple (Ledger held) (mgMpsgraphTensorClone src)
      (fun tensor => Ledger (tensor.buffer.address ::ₘ held)) (Stops excused (Ledger held)) := by
  refine Triple.orFail (fun required _ => ?_) fun _ _ ledger => .inr ledger
  apply Triple.bind (attemptOr_stable _)
  intro _
  exact Triple.bind (retainObject_moves given).rule fun _ => Triple.pure fun _ ledger => ledger

theorem tensorAddresses_append (tensors : List MgMpsgraphTensor) (tensor : MgMpsgraphTensor) :
    (tensorAddresses (tensors ++ [tensor]) : Multiset Nat) + held =
      tensor.buffer.address ::ₘ ((tensorAddresses tensors : Multiset Nat) + held) := by
  simp only [tensorAddresses, List.map_append, List.map_singleton, ← Multiset.coe_add,
    Multiset.coe_singleton]
  rw [add_right_comm, add_comm, Multiset.singleton_add]

theorem mgMpsgraphTensorArrayClone_takes {src : List TensorSource}
    (given : ∀ tensor ∈ src, tensor.buffer.address ∈ held) :
    Triple (Ledger held) (mgMpsgraphTensorArrayClone src)
      (fun tensors => Ledger (tensorAddresses tensors + held)) (Stops excused (Ledger held)) := by
  cases src with
  | nil => exact Triple.pure fun _ ledger => by simpa [tensorAddresses] using ledger
  | cons first rest =>
      apply Triple.bind (attemptOr_stable _)
      intro _
      refine (Triple.foldEach (fun _ tensors => Ledger (tensorAddresses tensors + held)) ?_).weaken
        (fun _ ledger => by simpa [tensorAddresses] using ledger) (fun _ _ ledger => ledger)
        fun _ _ stopped => stopped
      intro done tensor tensors member
      refine Triple.bind (cleaning_rule (mgMpsgraphTensorClone_takes
        (Multiset.mem_add.mpr (.inr (given tensor member)))) (tensorsClear_gives tensors))
        fun cloned => Triple.pure fun _ ledger => ?_
      rwa [tensorAddresses_append]

end Copies

/-! ### Edits -/

/-- The graph holds these references. -/
def HasReferences (own : Multiset Nat) (graph : MgGraph) : Prop :=
  (graph.references : Multiset Nat) = own

/-- An edit that keeps account of what its graph refers to. -/
def KeepsAccount (own others : Multiset Nat) {α : Type} (body : Over MgGraph α) : Prop :=
  Triple (Carries (HasReferences own) (own + others)) body
    (fun _ => Accounted MgGraph.references others)
    (Stops (fun _ => False) (Carries (HasReferences own) (own + others)))

section Edits

variable {α : Type} {excused : Fault → Prop} {own others held : Multiset Nat}

theorem Carries.accounted {focus : Focus MgGraph}
    (carries : Carries (HasReferences own) (own + others) focus) :
    Accounted MgGraph.references others focus := by
  obtain ⟨same, ledger⟩ := carries
  unfold Accounted
  rwa [same]

theorem KeepsAccount.of_stable {body : Over MgGraph α}
    (stable : Stable (fun _ => False) (Carries (HasReferences own) (own + others)) body) :
    KeepsAccount own others body :=
  stable.weaken (fun _ holds => holds) (fun _ _ holds => holds.accounted) fun _ _ stopped => stopped

theorem self_stable {τ : Type} {property : Focus τ → Prop} : Stable excused property self :=
  fun _ holds => holds

theorem mgGraphReserveNodes_stable (required : Nat) :
    Stable excused (Carries (HasReferences own) held) (mgGraphReserveNodes required) := by
  refine .bind self_stable fun graph => ?_
  split
  · exact .pure ()
  · exact .bind (onEnv_stable (attemptOr_stable _)) fun _ => modifySelf_stable fun _ same => same

theorem mgGraphReserveEdges_stable (required : Nat) :
    Stable excused (Carries (HasReferences own) held) (mgGraphReserveEdges required) := by
  refine .bind self_stable fun graph => ?_
  split
  · exact .pure ()
  · exact .bind (onEnv_stable (attemptOr_stable _)) fun _ => modifySelf_stable fun _ same => same

theorem mgGraphAllocNode_stable :
    Stable excused (Carries (HasReferences own) held) mgGraphAllocNode :=
  .bind self_stable fun _ => .bind (mgGraphReserveNodes_stable _) fun _ =>
    .bind (onEnv_stable (attemptOr_stable _)) fun _ => .require

/-- A committed node takes over the references that were made for it. -/
theorem mgGraphCommitNode_accounted (own others : Multiset Nat) (as : MgNodeAs) :
    Triple (Carries (HasReferences own) (as.references + (own + others))) (mgGraphCommitNode as)
      (fun _ => Accounted MgGraph.references others)
      (Stops (fun _ => False) (Carries (HasReferences own) (own + others))) := by
  apply self_carries
  intro graph same focus holds
  obtain ⟨rfl, ledger⟩ := holds
  unfold HasReferences MgGraph.references at same
  change Ledger (MgGraph.references { focus.object with
    nodes := focus.object.nodes ++ [newNode focus.object as] } + others) focus.env
  have whole : (MgGraph.references { focus.object with
      nodes := focus.object.nodes ++ [newNode focus.object as] } : Multiset Nat) + others =
      as.references + (own + others) := by
    rw [← same]
    simp only [MgGraph.references, MgGraph.nodeReferences, List.flatMap_append,
      List.flatMap_singleton, newNode, ← Multiset.coe_add]
    ac_rfl
  rwa [whole]

/-- The steps of an addition once its node is allocated. -/
theorem alloc_accounts {next : Unit → Over MgGraph α} (rest : KeepsAccount own others (next ())) :
    KeepsAccount own others (mgGraphAllocNode >>= next) :=
  Triple.bind mgGraphAllocNode_stable fun _ => rest

theorem stays {reason : Fault} {property : Focus MgGraph → Prop} :
    ∀ focus, property focus → Stops (fun _ => False) property reason focus :=
  fun _ holds => .inr holds

/-- The objects a call passes are held by somebody. -/
def Known (held : Multiset Nat) (address : Option Nat) : Prop := ∀ a, address = some a → a ∈ held

theorem mgGraphAddDispatchNode_accounts {desc : Option MgDispatchDesc}
    (known : ∀ binding ∈ (desc.bind MgDispatchDesc.buffers).getD [],
      Known (own + others) (binding.buffer.map MgBuffer.address)) :
    KeepsAccount own others (mgGraphAddDispatchNode desc) := by
  refine Triple.orFail (fun desc given => ?_) fun _ => stays
  subst given
  refine Triple.ofExcept (fun source pointers => ?_) fun _ _ => stays
  refine alloc_accounts (Triple.bind (onEnv_stable (attemptBoth_stable _)) fun _ => ?_)
  refine Triple.ofExcept (fun dispatch contents => ?_) fun _ _ => stays
  obtain ⟨dims, threads, listed⟩ := dispatchPointers_ok pointers
  have stored := (dispatchContents_valid dims threads contents).2
  have held : ∀ binding ∈ dispatch.buffers, binding.buffer.address ∈ own + others := by
    intro binding member
    refine known binding.described ?_ _ rfl
    rw [Option.bind_some, listed, Option.getD_some, stored]
    exact List.mem_map_of_mem member
  apply Triple.bind (onEnv_carries (copyBindings_takes held))
  intro _
  refine Triple.bind (onEnv_carries (cleaning_rule (copyScalarsAndResources_stable _ _ _)
    (bindingsClear_gives _))) fun _ => ?_
  exact mgGraphCommitNode_accounted own others (.dispatch dispatch)

/-- A node that refers to one object. -/
theorem retainOne_accounts {address : Nat} {as : MgNodeAs} (references : as.references = [address])
    (known : address ∈ own + others) :
    KeepsAccount own others (onEnv (retainObject address) >>= fun _ => mgGraphCommitNode as) := by
  apply Triple.bind (onEnv_moves (retainObject_moves known))
  intro _
  have committed := mgGraphCommitNode_accounted own others as
  rw [references] at committed
  exact committed

theorem copyContents_buffers {rangeValid : UInt64 → UInt64 → UInt64 → Bool} {desc : MgCopyDesc}
    {copy : MgCopyNode} (success : copyContents rangeValid desc = some copy) :
    desc.src = some copy.src ∧ desc.dst = some copy.dst := by
  unfold copyContents at success
  split at success
  · rename_i src dst fromDesc toDesc
    split at success
    · cases success
    · cases success
      exact ⟨fromDesc, toDesc⟩
  · cases success

theorem fillContents_buffer {rangeValid : UInt64 → UInt64 → UInt64 → Bool} {desc : MgFillDesc}
    {fill : MgFillNode} (success : fillContents rangeValid desc = some fill) :
    desc.dst = some fill.dst := by
  unfold fillContents at success
  split at success
  · rename_i dst toDesc
    split at success
    · cases success
    · cases success
      exact toDesc
  · cases success

theorem mgGraphAddCopyNode_accounts {desc : Option MgCopyDesc}
    (src : Known (own + others) ((desc.bind MgCopyDesc.src).map MgBuffer.address))
    (dst : Known (own + others) ((desc.bind MgCopyDesc.dst).map MgBuffer.address)) :
    KeepsAccount own others (mgGraphAddCopyNode desc) := by
  refine Triple.orFail (fun desc given => ?_) fun _ => stays
  subst given
  refine Triple.orFail (fun copy contents => ?_) fun _ => stays
  obtain ⟨fromDesc, toDesc⟩ := copyContents_buffers contents
  have srcHeld : copy.src.address ∈ own + others := src _ (by simp [fromDesc])
  have dstHeld : copy.dst.address ∈ own + others := dst _ (by simp [toDesc])
  apply alloc_accounts
  apply Triple.bind (onEnv_moves (retainObject_moves srcHeld))
  intro _
  refine Triple.bind (onEnv_moves
    (retainObject_moves (Multiset.mem_cons_of_mem dstHeld))) fun _ => ?_
  rw [Multiset.cons_swap, ← coe_pair_add]
  exact mgGraphCommitNode_accounted own others (.copy copy)

theorem mgGraphAddFillNode_accounts {desc : Option MgFillDesc}
    (dst : Known (own + others) ((desc.bind MgFillDesc.dst).map MgBuffer.address)) :
    KeepsAccount own others (mgGraphAddFillNode desc) := by
  refine Triple.orFail (fun desc given => ?_) fun _ => stays
  subst given
  refine Triple.orFail (fun fill contents => ?_) fun _ => stays
  exact alloc_accounts (retainOne_accounts rfl (dst _ (by simp [fillContents_buffer contents])))

theorem mgGraphAddEventNode_accounts {kind : MgEventNode → MgNodeAs} {event : Option MgEvent}
    {value : UInt64} (refers : ∀ node, (kind node).references = [node.event.address])
    (known : Known (own + others) (event.map MgEvent.address)) :
    KeepsAccount own others (mgGraphAddEventNode kind event value) := by
  refine Triple.orFail (fun event given => ?_) fun _ => stays
  subst given
  exact alloc_accounts (retainOne_accounts (refers _) (known _ rfl))

theorem validated_held {descs : List MgMpsgraphTensorDesc} {sources : List TensorSource}
    (success : validateTensors descs = .ok sources)
    (known : ∀ tensor ∈ descs, Known held (tensor.buffer.map MgBuffer.address)) :
    ∀ tensor ∈ sources, tensor.buffer.address ∈ held := by
  intro tensor member
  have listed : some tensor.buffer ∈ descs.map MgMpsgraphTensorDesc.buffer := by
    rw [(validateTensors_ok success).2]
    exact List.mem_map_of_mem member
  obtain ⟨desc, given, same⟩ := List.mem_map.mp listed
  exact known desc given _ (by rw [same, Option.map_some])

theorem mpsgraphPointers_ok {desc : MgMpsgraphDesc} {source : MpsgraphSource}
    (success : mpsgraphPointers desc = some source) :
    desc.feeds = some source.feeds ∧ desc.targets = some source.targets := by
  unfold mpsgraphPointers at success
  split at success
  · rename_i packagePath feeds targets _ fromDesc toDesc
    split at success
    · cases success
    · cases success
      exact ⟨fromDesc, toDesc⟩
  · cases success

theorem mgMpsgraphNodeClear_gives (feeds targets : List MgMpsgraphTensor) :
    Gives (tensorAddresses feeds ++ tensorAddresses targets) (mgMpsgraphNodeClear feeds targets) :=
  (tensorsClear_gives feeds).seq (tensorsClear_gives targets)

theorem mgGraphAddMPSGraphNode_accounts {desc : Option MgMpsgraphDesc}
    (feeds : ∀ tensor ∈ (desc.bind MgMpsgraphDesc.feeds).getD [],
      Known (own + others) (tensor.buffer.map MgBuffer.address))
    (targets : ∀ tensor ∈ (desc.bind MgMpsgraphDesc.targets).getD [],
      Known (own + others) (tensor.buffer.map MgBuffer.address)) :
    KeepsAccount own others (mgGraphAddMPSGraphNode desc) := by
  refine Triple.orFail (fun desc given => ?_) fun _ => stays
  subst given
  refine Triple.orFail (fun source pointers => ?_) fun _ => stays
  obtain ⟨fromDesc, toDesc⟩ := mpsgraphPointers_ok pointers
  rw [Option.bind_some, fromDesc, Option.getD_some] at feeds
  rw [Option.bind_some, toDesc, Option.getD_some] at targets
  refine Triple.ofExcept (fun feedSources checked => ?_) fun _ _ => stays
  refine Triple.ofExcept (fun targetSources checked' => ?_) fun _ _ => stays
  refine alloc_accounts (Triple.bind (onEnv_stable (attemptOr_stable _)) fun _ => ?_)
  refine Triple.bind (onEnv_carries (mgMpsgraphTensorArrayClone_takes
    (validated_held checked feeds))) fun stored => ?_
  have clears : Gives (tensorAddresses stored) (mgMpsgraphNodeClear stored []) := by
    simpa [tensorAddresses] using mgMpsgraphNodeClear_gives stored []
  refine Triple.bind (onEnv_carries (cleaning_rule (mgMpsgraphTensorArrayClone_takes
    fun tensor member =>
      Multiset.mem_add.mpr (.inr (validated_held checked' targets tensor member)))
    clears)) fun stored' => ?_
  have whole : (tensorAddresses stored' : Multiset Nat) +
      (tensorAddresses stored + (own + others)) =
      (tensorAddresses stored ++ tensorAddresses stored' : List Nat) + (own + others) := by
    rw [← Multiset.coe_add]
    ac_rfl
  rw [whole]
  exact mgGraphCommitNode_accounted own others
    (.mpsgraph ⟨source.packagePath, stored, stored'⟩)

theorem mgInternalGraphAddWorkspaceNode_accounts (desc : Option MgWorkspaceDesc) :
    KeepsAccount own others (mgInternalGraphAddWorkspaceNode desc) := by
  refine Triple.ofExcept (fun desc checked => ?_) fun _ _ => stays
  apply alloc_accounts
  have committed := mgGraphCommitNode_accounted own others
    (.workspace ⟨desc.byteCount, desc.alignment⟩)
  rwa [MgNodeAs.references, Multiset.coe_nil, zero_add] at committed

theorem mgInternalGraphAddWorkspaceFillNode_accounts {desc : Option MgWorkspaceDesc}
    {value : UInt8} {dst : Option MgBuffer} {dstOffset : UInt64}
    (known : Known (own + others) (dst.map MgBuffer.address)) :
    KeepsAccount own others (mgInternalGraphAddWorkspaceFillNode desc value dst dstOffset) := by
  refine Triple.orFail (fun dst given => ?_) fun _ => stays
  subst given
  refine Triple.ofExcept (fun desc checked => ?_) fun _ _ => stays
  refine Triple.require (fun inside => ?_) fun _ => stays
  exact alloc_accounts (retainOne_accounts rfl (known _ rfl))

theorem mgGraphAddBarrierNode_accounts : KeepsAccount own others mgGraphAddBarrierNode := by
  apply alloc_accounts
  have committed := mgGraphCommitNode_accounted own others .barrier
  rwa [MgNodeAs.references, Multiset.coe_nil, zero_add] at committed

/-- The new arena is held before the old one is given up, so that they may be the same. -/
theorem mgGraphSetArena_accounts {arena : Option MgArena}
    (known : Known (own + others) (arena.map MgArena.address)) :
    KeepsAccount own others (mgGraphSetArena arena) := by
  refine Triple.orFail (fun arena given => ?_) fun _ => stays
  subst given
  apply self_carries
  intro graph same
  have kept : ∀ focus, Carries (· = graph) (own + others) focus →
      Accounted MgGraph.references others focus := by
    rintro focus ⟨rfl, ledger⟩
    exact Carries.accounted ⟨same, ledger⟩
  split
  · exact Triple.pure kept
  · apply Triple.bind (onEnv_moves (retainObject_moves (known _ rfl)))
    intro _
    have taken : arena.address ::ₘ (own + others) = arenaAddresses graph.arena +
        (arena.address ::ₘ (graph.nodeReferences + others)) := by
      rw [← same, MgGraph.references, ← Multiset.coe_add, ← Multiset.singleton_add,
        ← Multiset.singleton_add]
      ac_rfl
    rw [taken]
    apply Triple.bind (onEnv_moves (mgArenaRelease_gives graph.arena _))
    intro _
    apply Triple.update
    rintro focus ⟨rfl, ledger⟩
    have whole : (MgGraph.references { focus.object with arena := some arena } : Multiset Nat) +
        others = arena.address ::ₘ (focus.object.nodeReferences + others) := by
      rw [MgGraph.references, ← Multiset.coe_add, ← Multiset.singleton_add, add_right_comm,
        add_comm]
      rfl
    change Ledger (MgGraph.references { focus.object with arena := some arena } + others) focus.env
    rwa [whole]

theorem mgGraphAddDependency_stable (before after : Option NodePtr) :
    Stable excused (Carries (HasReferences own) held) (mgGraphAddDependency before after) := by
  refine .bind self_stable fun _ => .bind .orFail fun _ => .bind .orFail fun _ =>
    .bind .require fun _ => .bind .require fun _ => ?_
  split
  · exact .pure ()
  · exact .bind (mgGraphReserveEdges_stable _) fun _ => modifySelf_stable fun _ same => same

theorem mgGraphSetNodePatchFlags_accounts (pointer : Option NodePtr) (flags : MgPatchFlags) :
    KeepsAccount own others (mgGraphSetNodePatchFlags pointer flags) := by
  apply self_carries
  intro graph same
  have stays : ∀ focus, Carries (· = graph) (own + others) focus →
      Carries (HasReferences own) (own + others) focus := by
    rintro focus ⟨rfl, ledger⟩
    exact ⟨same, ledger⟩
  refine Triple.orFail (fun pointer _ => ?_) fun _ focus holds => .inr (stays focus holds)
  refine Triple.require (fun _ => ?_) fun _ focus holds => .inr (stays focus holds)
  refine Triple.orFail (fun node present => ?_) fun _ focus holds => .inr (stays focus holds)
  refine Triple.require (fun _ => ?_) fun _ focus holds => .inr (stays focus holds)
  refine Triple.require (fun _ => ?_) fun _ focus holds => .inr (stays focus holds)
  apply Triple.update
  rintro focus ⟨rfl, ledger⟩
  refine Carries.accounted ⟨?_, ledger⟩
  refine Eq.trans ?_ same
  have references : (focus.object.nodes.set pointer.index { node with patchFlags := flags }).map
      (fun node => node.as.references) = focus.object.nodes.map fun node => node.as.references :=
    map_set_of_eq present rfl
  simp only [MgGraph.references, MgGraph.nodeReferences, List.flatMap_def, references]

end Edits

/-! ### What the caller passes -/

/-- Whatever is alive is held. -/
structure World.Knows (world : World) (held : Multiset Nat) : Prop where
  buffers : ∀ buffer, world.bufferAlive buffer = true → Known held (buffer.map MgBuffer.address)
  events : ∀ event, world.eventAlive event = true → Known held (event.map MgEvent.address)
  arenas : ∀ arena, world.arenaAlive arena = true → Known held (arena.map MgArena.address)

section Alive

variable {world : World} {held : Multiset Nat}

theorem bufferAlive_cell {buffer : MgBuffer} (alive : world.bufferAlive (some buffer) = true) :
    ∃ cell, world.env.heap.cells.get? buffer.address = some cell := by
  rw [World.bufferAlive, Option.elim_some] at alive
  split at alive
  · exact ⟨_, ‹_›⟩
  · cases alive

theorem eventAlive_cell {event : MgEvent} (alive : world.eventAlive (some event) = true) :
    ∃ cell, world.env.heap.cells.get? event.address = some cell := by
  rw [World.eventAlive, Option.elim_some] at alive
  split at alive
  · exact ⟨_, ‹_›⟩
  · cases alive

theorem arenaAlive_cell {arena : MgArena} (alive : world.arenaAlive (some arena) = true) :
    ∃ cell, world.env.heap.cells.get? arena.address = some cell := by
  rw [World.arenaAlive, Option.elim_some] at alive
  split at alive
  · exact ⟨_, ‹_›⟩
  · cases alive

theorem known_of_cell {α : Type} {address : α → Nat} {object : Option α}
    (live : ∀ value, object = some value → address value ∈ held) :
    Known held (object.map address) := by
  intro a same
  obtain ⟨value, rfl, rfl⟩ := Option.map_eq_some_iff.mp same
  exact live value rfl

theorem Ledger.knows (ledger : Ledger held world.env) :
    world.env.heap.overflowed = true ∨ world.Knows held := by
  refine ledger.imp id fun ⟨balanced, _⟩ => ⟨fun buffer alive => ?_, fun event alive => ?_,
    fun arena alive => ?_⟩
  · apply known_of_cell
    intro value same
    obtain ⟨cell, live⟩ := bufferAlive_cell (same ▸ alive)
    exact balanced.mem_of_live live
  · apply known_of_cell
    intro value same
    obtain ⟨cell, live⟩ := eventAlive_cell (same ▸ alive)
    exact balanced.mem_of_live live
  · apply known_of_cell
    intro value same
    obtain ⟨cell, live⟩ := arenaAlive_cell (same ▸ alive)
    exact balanced.mem_of_live live

variable {own others : Multiset Nat}

theorem NodeAddition.run_accounts {addition : NodeAddition} (knows : world.Knows (own + others))
    (alive : world.additionAlive addition = true) : KeepsAccount own others addition.run := by
  cases addition with
  | dispatch desc =>
      exact mgGraphAddDispatchNode_accounts fun binding member =>
        knows.buffers _ (List.all_eq_true.mp alive binding member)
  | copy desc =>
      obtain ⟨src, dst⟩ := Bool.and_eq_true_iff.mp alive
      exact mgGraphAddCopyNode_accounts (knows.buffers _ src) (knows.buffers _ dst)
  | fill desc => exact mgGraphAddFillNode_accounts (knows.buffers _ alive)
  | eventWait event value =>
      exact mgGraphAddEventNode_accounts (fun _ => rfl) (knows.events _ alive)
  | eventSignal event value =>
      exact mgGraphAddEventNode_accounts (fun _ => rfl) (knows.events _ alive)
  | barrier => exact mgGraphAddBarrierNode_accounts
  | mpsgraph desc =>
      obtain ⟨feeds, targets⟩ := Bool.and_eq_true_iff.mp alive
      exact mgGraphAddMPSGraphNode_accounts
        (fun tensor member => knows.buffers _ (List.all_eq_true.mp feeds tensor member))
        fun tensor member => knows.buffers _ (List.all_eq_true.mp targets tensor member)
  | workspace desc => exact mgInternalGraphAddWorkspaceNode_accounts desc
  | workspaceFill desc value dst dstOffset =>
      exact mgInternalGraphAddWorkspaceFillNode_accounts (knows.buffers _ alive)

theorem KeepsAccount.answer {α : Type} {body : Over MgGraph α} {response : α → Response}
    (accounts : KeepsAccount own others body) :
    KeepsAccount own others (body >>= fun value => pure (response value)) :=
  Triple.bind accounts fun _ => Triple.pure fun _ holds => holds

theorem GraphEdit.run_accounts {edit : GraphEdit} (knows : world.Knows (own + others))
    (alive : world.editAlive edit = true) : KeepsAccount own others edit.run := by
  cases edit with
  | addNode addition => exact (NodeAddition.run_accounts knows alive).answer
  | addDependency before after =>
      exact (KeepsAccount.of_stable (mgGraphAddDependency_stable before after)).answer
  | setArena arena => exact (mgGraphSetArena_accounts (knows.arenas _ alive)).answer
  | setNodePatchFlags node flags => exact (mgGraphSetNodePatchFlags_accounts node flags).answer

end Alive

end MetalGraph
