import MetalGraph.Proofs.Ownership

set_option autoImplicit false

/- A construction call that fails leaves graphs and reference counts as they were. -/
namespace MetalGraph

open Eff

/-! ### Identifiers -/

/-- The pointer the next node of the graph is handed out as. -/
def MgGraph.nextNode (graph : MgGraph) : NodePtr :=
  ⟨graph.address, graph.nodes.length, UInt64.ofNat (graph.nodes.length + 1)⟩

theorem SameContents.nextNode {graph after : MgGraph} (same : SameContents graph after) :
    after.nextNode = graph.nextNode := by
  simp only [MgGraph.nextNode, same.address, same.nodes]

/-- The body hands out nothing but the next node of the graph. -/
def HandsOut (property : MgGraph → Prop) (graph : MgGraph) (body : Over MgGraph NodePtr) : Prop :=
  Triple (Has property) body (fun pointer _ => pointer = graph.nextNode) fun _ _ => True

section Additions

variable {graph : MgGraph} {α : Type}

theorem mgGraphCommitNode_handsOut (as : MgNodeAs) :
    HandsOut (Allocated graph) graph (mgGraphCommitNode as) :=
  self_rule fun _ allocated _ _ => allocated.1.nextNode

theorem HandsOut.alloc {next : Unit → Over MgGraph NodePtr}
    (rest : HandsOut (Allocated graph) graph (next ())) :
    HandsOut (· = graph) graph (mgGraphAllocNode >>= next) :=
  Triple.bind (mgGraphAllocNode_spec.weaken (fun _ same => same) (fun _ _ allocated => allocated)
    fun _ _ _ => trivial) fun _ => rest

theorem HandsOut.onEnv {property : MgGraph → Prop} {body : Run α} {next : α → Over MgGraph NodePtr}
    (rest : ∀ value, HandsOut property graph (next value)) :
    HandsOut property graph (MetalGraph.onEnv body >>= next) :=
  onEnv_rule (fun _ _ _ => trivial) fun value _ _ _ => rest value

theorem HandsOut.orFail {property : MgGraph → Prop} {value : Option α} {reason : Fault}
    {next : α → Over MgGraph NodePtr} (rest : ∀ value, HandsOut property graph (next value)) :
    HandsOut property graph (Eff.orFail value reason >>= next) :=
  Triple.orFail (fun value _ => rest value) fun _ _ _ => trivial

theorem HandsOut.ofExcept {property : MgGraph → Prop} {result : Except Fault α}
    {next : α → Over MgGraph NodePtr} (rest : ∀ value, HandsOut property graph (next value)) :
    HandsOut property graph (Eff.ofExcept result >>= next) :=
  Triple.ofExcept (fun value _ => rest value) fun _ _ _ _ => trivial

theorem HandsOut.require {property : MgGraph → Prop} {condition : Prop} [Decidable condition]
    {reason : Fault} {next : Unit → Over MgGraph NodePtr}
    (rest : HandsOut property graph (next ())) :
    HandsOut property graph (Eff.require condition reason >>= next) :=
  Triple.require (fun _ => rest) fun _ _ _ => trivial

theorem mgGraphAddEventNode_handsOut (kind : MgEventNode → MgNodeAs) (event : Option MgEvent)
    (value : UInt64) : HandsOut (· = graph) graph (mgGraphAddEventNode kind event value) :=
  .orFail fun _ => .alloc (.onEnv fun _ => mgGraphCommitNode_handsOut _)

theorem NodeAddition.run_handsOut (addition : NodeAddition) (graph : MgGraph) :
    HandsOut (· = graph) graph addition.run := by
  cases addition with
  | dispatch desc =>
      exact .orFail fun _ => .ofExcept fun _ => .alloc (.onEnv fun _ => .ofExcept fun _ =>
        .onEnv fun _ => .onEnv fun _ => mgGraphCommitNode_handsOut _)
  | copy desc =>
      exact .orFail fun _ => .orFail fun _ => .alloc (.onEnv fun _ => .onEnv fun _ =>
        mgGraphCommitNode_handsOut _)
  | fill desc =>
      exact .orFail fun _ => .orFail fun _ => .alloc (.onEnv fun _ => mgGraphCommitNode_handsOut _)
  | eventWait event value => exact mgGraphAddEventNode_handsOut _ event value
  | eventSignal event value => exact mgGraphAddEventNode_handsOut _ event value
  | barrier => exact .alloc (mgGraphCommitNode_handsOut _)
  | mpsgraph desc =>
      exact .orFail fun _ => .orFail fun _ => .ofExcept fun _ => .ofExcept fun _ =>
        .alloc (.onEnv fun _ => .onEnv fun _ => .onEnv fun _ => mgGraphCommitNode_handsOut _)
  | workspace desc => exact .ofExcept fun _ => .alloc (mgGraphCommitNode_handsOut _)
  | workspaceFill desc value dst dstOffset =>
      exact .orFail fun _ => .ofExcept fun _ => .require (.alloc (.onEnv fun _ =>
        mgGraphCommitNode_handsOut _))

theorem NodeAddition.run_pointer {addition : NodeAddition} {env : Env} {pointer : NodePtr}
    {reached : Focus MgGraph} (success : addition.run ⟨graph, env⟩ = (.ok pointer, reached)) :
    pointer = graph.nextNode := by
  have start : Has (· = graph) (⟨graph, env⟩ : Focus MgGraph) := rfl
  exact (addition.run_handsOut graph).ok start success

end Additions

/-! ### Failed calls -/

/-- The calls that build a graph or a plan. -/
def Call.Constructs : Call → Prop
  | .graphEdit _ _ | .graphInstantiate _ _ => True
  | _ => False

/-- What a node addition leaves in `out_node`, which it clears before anything else. -/
def Entry.outNode (entry : Entry) : Option NodePtr :=
  match entry.result with
  | .ok (.node pointer) => some pointer
  | _ => none

/-- Every graph has the same contents, and plans and launches are the same. -/
structure SameObjects (before after : World) : Prop where
  graphs : ∀ address,
    Option.Rel SameContents (before.graphs.get? address) (after.graphs.get? address)
  size : after.graphs.size = before.graphs.size
  execs : after.execs = before.execs
  launches : after.launches = before.launches

theorem option_rel_refl {α : Type} {related : α → α → Prop} (same : ∀ value, related value value) :
    ∀ value : Option α, Option.Rel related value value
  | none => .none
  | some value => .some (same value)

theorem SameObjects.of_tables {before after : World} (graphs : after.graphs = before.graphs)
    (execs : after.execs = before.execs) (launches : after.launches = before.launches) :
    SameObjects before after where
  graphs := fun _ => graphs ▸ option_rel_refl .refl _
  size := congrArg Slots.size graphs
  execs := execs
  launches := launches

theorem SameContents.references {graph after : MgGraph} (same : SameContents graph after) :
    after.references = graph.references := by
  simp only [MgGraph.references, MgGraph.nodeReferences, same.nodes, same.arena]

theorem SameObjects.references {before after : World} (same : SameObjects before after) :
    after.references = before.references := by
  have graphs : after.graphs.total (fun graph => (graph.references : Multiset Nat)) =
      before.graphs.total fun graph => (graph.references : Multiset Nat) := by
    apply Slots.total_of_measures _ same.size
    intro address
    have related := same.graphs address
    generalize before.graphs.get? address = old at related ⊢
    generalize after.graphs.get? address = new at related ⊢
    cases related with
    | none => rfl
    | some contents => rw [Option.elim_some, Option.elim_some, contents.references]
  rw [World.references, World.references, graphs, same.execs, same.launches]

section Failed

variable {world after : World} {call : Call} {reason : Fault}

theorem CallStep.construction_failed (constructs : call.Constructs)
    (step : CallStep world call (.error reason) after) : SameObjects world after := by
  generalize outcome : (.error reason : Except Fault Response) = result at step
  cases step with
  | refused | nothing => exact .of_tables rfl rfl rfl
  | @graphEdit address graph edit result focus live ran =>
      subst outcome
      have changes : Changes (fun _ => True) graph edit.run :=
        edit.run_changes graph fun _ _ => trivial
      have start : Has (· = graph) (⟨graph, world.env⟩ : Focus MgGraph) := rfl
      have kept : SameContents graph focus.object := changes.error start ran
      refine ⟨fun other => ?_, Slots.size_put _ _ _, rfl, rfl⟩
      rw [Slots.get?_put live]
      split
      · rename_i here
        rw [here, live]
        exact .some kept
      · exact option_rel_refl .refl _
  | graphInstantiate => cases outcome
  | graphNotInstantiated live ran => exact .of_tables rfl rfl rfl
  | counted | graphCreate | graphNotCreated | graphDestroy | graphValidate | execDestroy
  | execPatch | graphLaunch | graphNotLaunched | launchSynchronize | launchDestroy =>
      exact constructs.elim

theorem Call.Constructs.takenBack (constructs : call.Constructs) : call.takenBack = none := by
  cases call with
  | counted => exact constructs.elim
  | _ => rfl

end Failed

section Counts

variable {system : System} {call : Call} {reason : Fault}

theorem System.failed_handles (constructs : call.Constructs)
    (failed : (system.record call).result = .error reason) :
    (system.step call).handles = system.handles := by
  simp only [System.step, Entry.handedOut, failed, constructs.takenBack, Option.toList_none,
    List.nil_append, Option.elim_none]

/-- The same holders make the same counts. -/
theorem Reachable.counts_kept (reachable : Reachable system)
    (permitted : system.permits call = true)
    (same : SameObjects system.world (system.step call).world)
    (handles : (system.step call).handles = system.handles)
    (bounded : (system.step call).world.env.heap.overflowed = false) (address : Nat) :
    (system.step call).world.env.heap.countAt address =
      system.world.env.heap.countAt address := by
  have early : system.world.env.heap.overflowed ≠ true := fun wrapped => by
    have later := (call.eval_step system.world).env_le.overflowed wrapped
    exact Bool.false_ne_true (bounded.symm.trans later)
  have ⟨before, _⟩ := reachable.holdings.ledger.resolve_left early
  have ⟨after, _⟩ := (reachable.step permitted).holdings.ledger.resolve_left (by simp [bounded])
  rw [before.counts, after.counts, World.holders, World.holders, handles, same.references]

end Counts

/-- A construction call that fails leaves the contents of every graph, every plan, the
out parameter and the identifier of the next node as they were, and, as long as no object
has `2 ^ 32` references, every reference count. -/
theorem failed_construction_changes_nothing {system : System} {call : Call} {reason : Fault}
    (reachable : Reachable system) (permitted : system.permits call = true)
    (constructs : call.Constructs) (failed : (system.record call).result = .error reason) :
    SameObjects system.world (system.step call).world ∧
      (system.record call).outNode = none ∧
      (∀ address graph kept, system.world.graphs.get? address = some graph →
        (system.step call).world.graphs.get? address = some kept →
        ∀ addition env env' pointer pointer' reached reached',
          NodeAddition.run addition ⟨graph, env⟩ = (.ok pointer, reached) →
          NodeAddition.run addition ⟨kept, env'⟩ = (.ok pointer', reached') →
          pointer'.id = pointer.id) ∧
      ((system.step call).world.env.heap.overflowed = false →
        ∀ address, (system.step call).world.env.heap.countAt address =
          system.world.env.heap.countAt address) := by
  have step := call.eval_step system.world
  rw [show (call.eval system.world).1 = .error reason from failed] at step
  have same : SameObjects system.world (system.step call).world :=
    step.construction_failed constructs
  refine ⟨same, ?_, ?_, ?_⟩
  · simp only [Entry.outNode, failed]
  · intro address graph kept live after addition env env' pointer pointer' reached reached'
      first second
    have related := same.graphs address
    rw [live, after] at related
    cases related with
    | some contents =>
        rw [NodeAddition.run_pointer first, NodeAddition.run_pointer second, contents.nextNode]
  · exact reachable.counts_kept permitted same (system.failed_handles constructs failed)

/-! ### Counts that wrap -/

section Wrapping

variable {α : Type} {heap : RefHeap α} {address : Nat}

theorem retain_iterate {cell : Counted α} (live : heap.cells.get? address = some cell)
    (times : Nat) : ((fun heap => RefHeap.retain heap address)^[times] heap).cells.get? address =
      some { cell with count := cell.count + UInt32.ofNat times } := by
  induction times with
  | zero => simpa using live
  | succ times ih =>
      rw [Function.iterate_succ_apply', retain_cells ih, Slots.get?_put ih, if_pos rfl,
        add_assoc, UInt32.ofNat_add]
      rfl

/-- As many releases as the count says free the object, and further ones find it freed. -/
theorem releaseAll_replicate {times : Nat} {env : Env}
    (few : ∀ cell, env.heap.cells.get? address = some cell →
      0 < times ∧ cell.count.toNat ≤ times) :
    (env.releaseAll (List.replicate times address)).heap.cells.get? address = none := by
  induction times generalizing env with
  | zero =>
      rcases live : env.heap.cells.get? address with _ | cell
      · exact live
      · exact absurd (few cell live).1 (Nat.lt_irrefl 0)
  | succ times ih =>
      apply ih
      intro cell live
      change (env.heap.release address).cells.get? address = some cell at live
      rcases before : env.heap.cells.get? address with _ | old
      · simp only [RefHeap.release, before] at live
        cases live
      · have bound := (few old before).2
        by_cases several : old.count > 1
        · have many : 1 < old.count.toNat := UInt32.lt_iff_toNat_lt.mp several
          have fewer : (old.count - 1).toNat = old.count.toNat - 1 := by
            rw [UInt32.toNat_sub_of_le _ _ (UInt32.le_iff_toNat_le.mpr (by simpa using many.le))]
            rfl
          simp only [RefHeap.release, before, several, ↓reduceIte, Slots.get?_put before,
            Option.some.injEq] at live
          subst live
          simp only [fewer]
          omega
        · simp only [RefHeap.release, before, several, ↓reduceIte, Slots.get?_free] at live
          cases live

end Wrapping

def sharedFloat : MgBuffer where
  address := 0
  impl := ⟨0, 7, 4, true⟩
  deviceImpl := some 7
  length := 4
  byteOffset := 0
  originKind := .libraryOwned
  isZeroCopy := false
  isExternal := false
  isHostVisible := true
  isMutable := true
  sourceFramework := "Metal Graph"
  window := by decide

def floatTensor : MgMpsgraphTensorDesc :=
  ⟨56, some sharedFloat, 0, 0, .float32, .contiguous, some [1]⟩

/-- A model that reads the same buffer this often, and writes it once. -/
def crowdedDesc (feeds : Nat) : MgMpsgraphDesc :=
  ⟨48, some "m", some (List.replicate feeds floatTensor), some [floatTensor]⟩

/-- The allocator refuses the array of targets. -/
def crowded (feeds : Nat) : System :=
  (System.initial (fun tick => tick != feeds + 8) (fun _ => false) false).run
    [.counted (.bufferCreateShared (some ⟨some 7⟩) 4), .graphCreate]

def crowdedEnv (feeds : Nat) : Env where
  heap := ⟨⟨[some ⟨1, .buffer sharedFloat none⟩]⟩, false, false⟩
  ownerCalls := []
  trace := []
  nextCommandBuffer := 0
  nextMetalObject := 1
  oracle := fun tick => tick != feeds + 8
  clock := 4
  commandBufferFails := fun _ => false
  mpsgraphEnabled := false

theorem crowded_world (feeds : Nat) : (crowded feeds).world =
    ⟨crowdedEnv feeds, ⟨[some ⟨0, [], 0, [], 0, none⟩]⟩, .empty, .empty⟩ := by
  rfl

/-! ### A refused array -/

def floatSource : TensorSource := ⟨sharedFloat, 0, 0, .float32, .contiguous, [1]⟩

def storedFloat : MgMpsgraphTensor := ⟨sharedFloat, 0, 4, .float32, .contiguous, [1]⟩

theorem validate_floats (count : Nat) :
    validateTensors (List.replicate count floatTensor) =
      .ok (List.replicate count floatSource) := by
  induction count with
  | zero => rfl
  | succ count ih =>
      rw [List.replicate_succ, List.replicate_succ, validateTensors, ih]
      rfl

/-- The environment after this many tensors of the shared buffer are cloned. -/
def clonedFloats (env : Env) (count : Nat) : Env :=
  { env with
    clock := env.clock + count
    heap := (fun heap => RefHeap.retain heap 0)^[count] env.heap }

theorem mgMpsgraphTensorClone_float {env : Env} (granted : env.oracle env.clock = true) :
    mgMpsgraphTensorClone floatSource env = (.ok storedFloat, clonedFloats env 1) := by
  have required : mgShapeByteCount floatSource.shape (mgTensorDataTypeSize floatSource.dataType) =
      some 4 := by decide
  simp only [mgMpsgraphTensorClone, required, bind_apply, orFail_some, attemptOr_at granted]
  rfl

theorem clone_floats (done : List MgMpsgraphTensor) (count : Nat) {env : Env}
    (granted : ∀ tick < count, env.oracle (env.clock + tick) = true) :
    foldEach
      (fun tensors tensor => do
        let cloned ← cleaning (mgMpsgraphTensorClone tensor) (mgMpsgraphTensorArrayClear tensors)
        pure (tensors ++ [cloned]))
      done (List.replicate count floatSource) env =
      (.ok (done ++ List.replicate count storedFloat), clonedFloats env count) := by
  induction count generalizing done env with
  | zero =>
      rw [List.replicate_zero, List.replicate_zero, List.append_nil]
      rfl
  | succ count ih =>
      have first := mgMpsgraphTensorClone_float (granted 0 (Nat.succ_pos count))
      have cleaned : cleaning (mgMpsgraphTensorClone floatSource) (mgMpsgraphTensorArrayClear done)
          env = (.ok storedFloat, clonedFloats env 1) := cleaning_ok.mpr first
      apply (bind_of_ok env (bind_of_ok env cleaned _) _).trans
      refine (ih _ fun tick early => ?_).trans ?_
      · have later := granted (tick + 1) (by omega)
        change env.oracle (env.clock + 1 + tick) = true
        rwa [Nat.add_assoc, Nat.add_comm 1]
      · simp only [clonedFloats, List.append_assoc, List.replicate_succ, Function.iterate_succ,
          Function.comp_apply, Function.iterate_zero, id, List.singleton_append, Nat.add_assoc,
          Nat.add_comm 1]

/-- What is left after the targets are refused: the feeds have been given back. -/
def refusedEnv (feeds : Nat) : Env :=
  let cloned := clonedFloats { crowdedEnv feeds with clock := 8 } feeds
  Env.releaseAll { cloned with clock := cloned.clock + 1, trace := [.refused] }
    (List.replicate feeds 0)

theorem mgGraphAddMPSGraphNode_crowded {feeds : Nat} (nonempty : feeds ≠ 0) :
    mgGraphAddMPSGraphNode (some (crowdedDesc feeds)) ⟨⟨0, [], 0, [], 0, none⟩, crowdedEnv feeds⟩ =
      (.error (mgSetOom .create), ⟨⟨0, [], 4, [], 0, none⟩, refusedEnv feeds⟩) := by
  obtain ⟨rest, rfl⟩ := Nat.exists_eq_succ_of_ne_zero nonempty
  have pointers : mpsgraphPointers (crowdedDesc (rest + 1)) =
      some ⟨"m", List.replicate (rest + 1) floatTensor, [floatTensor]⟩ := by
    simp [mpsgraphPointers, crowdedDesc, sizeofMgMpsgraphDesc, List.replicate_succ]
  have targets : validateTensors [floatTensor] = .ok [floatSource] := validate_floats 1
  have allocated : mgGraphAllocNode ⟨⟨0, [], 0, [], 0, none⟩, crowdedEnv (rest + 1)⟩ =
      (.ok (), ⟨⟨0, [], 4, [], 0, none⟩, { crowdedEnv (rest + 1) with clock := 6 }⟩) := rfl
  have path : attemptOr (mgSetOom .create) { crowdedEnv (rest + 1) with clock := 6 } =
      (.ok (), { crowdedEnv (rest + 1) with clock := 7 }) := rfl
  have array : attemptOr (mgSetOom .create) { crowdedEnv (rest + 1) with clock := 7 } =
      (.ok (), { crowdedEnv (rest + 1) with clock := 8 }) := rfl
  have feeds : mgMpsgraphTensorArrayClone (List.replicate (rest + 1) floatSource)
      { crowdedEnv (rest + 1) with clock := 7 } =
      (.ok (List.replicate (rest + 1) storedFloat),
        clonedFloats { crowdedEnv (rest + 1) with clock := 8 } (rest + 1)) := by
    refine (bind_of_ok _ array _).trans (clone_floats [] (rest + 1) fun tick early => ?_)
    simp only [crowdedEnv, bne_iff_ne]
    omega
  generalize cloned :
    clonedFloats { crowdedEnv (rest + 1) with clock := 8 } (rest + 1) = env at feeds
  have asked : env.oracle env.clock = false := by
    simp only [← cloned, clonedFloats, crowdedEnv, bne_eq_false_iff_eq]
    omega
  have refused : mgMpsgraphTensorArrayClone [floatSource] env =
      (.error (mgSetOom .create), { env with clock := env.clock + 1, trace := [.refused] }) := by
    refine bind_of_error env (attemptOr_error.mpr ⟨asked, rfl, ?_⟩) _
    rw [← cloned]
    rfl
  have cleared : cleaning (mgMpsgraphTensorArrayClone [floatSource])
      (mgMpsgraphNodeClear (List.replicate (rest + 1) storedFloat) []) env =
      (.error (mgSetOom .create), refusedEnv (rest + 1)) := by
    simp only [cleaning, catching, refused]
    have released := forEach_release_apply (fun tensor : MgMpsgraphTensor => tensor.buffer.address)
      (List.replicate (rest + 1) storedFloat)
      { env with clock := env.clock + 1, trace := [.refused] }
    rw [List.map_replicate] at released
    apply (bind_of_ok _ (bind_of_ok _ released _) _).trans
    rw [refusedEnv, cloned]
    rfl
  simp only [mgGraphAddMPSGraphNode, bind_apply, orFail_some, pointers, ofExcept_apply,
    validate_floats, targets, allocated, onEnv_apply, path, feeds, cleared]

def crowdedCall (feeds : Nat) : Call :=
  .graphEdit (some 0) (.addNode (.mpsgraph (some (crowdedDesc feeds))))

theorem crowded_permits (feeds : Nat) : (crowded feeds).permits (crowdedCall feeds) = true := by
  have alive : (crowded feeds).world.bufferAlive (some sharedFloat) = true := rfl
  have here : handleAlive (crowded feeds).world.graphs (some 0) = true := rfl
  simp [System.permits, crowdedCall, World.editAlive, World.additionAlive, crowdedDesc,
    floatTensor, here, alive, List.all_replicate]

theorem crowded_eval {feeds : Nat} (nonempty : feeds ≠ 0) :
    (crowdedCall feeds).eval (crowded feeds).world = (.error (mgSetOom .create),
      { (crowded feeds).world with
        env := refusedEnv feeds, graphs := ⟨[some ⟨0, [], 4, [], 0, none⟩]⟩ }) := by
  have live : (crowded feeds).world.graphs.get? 0 = some ⟨0, [], 0, [], 0, none⟩ := rfl
  apply (onGraph_apply _ live _).trans
  simp only [GraphEdit.run, NodeAddition.run, bind_apply, crowded_world,
    mgGraphAddMPSGraphNode_crowded nonempty]
  rfl

/-- A count that has passed `2 ^ 32` no longer covers what is given back. -/
theorem refusedEnv_freed {feeds : Nat} (many : 2 ^ 32 ≤ feeds + 1) :
    (refusedEnv feeds).heap.countAt 0 = 0 := by
  have live : (crowdedEnv feeds).heap.cells.get? 0 = some ⟨1, .buffer sharedFloat none⟩ := rfl
  have counted := retain_iterate live feeds
  refine RefHeap.countAt_of_dead (releaseAll_replicate fun cell present => ?_)
  have stored := counted.symm.trans present
  cases stored
  refine ⟨by omega, ?_⟩
  rw [UInt32.toNat_add, UInt32.toNat_ofNat']
  change (1 + feeds % 2 ^ 32) % 2 ^ 32 ≤ feeds
  omega

theorem failed_construction_of_refusal :
    ((crowded 1).record (crowdedCall 1)).result = .error (mgSetOom .create) ∧
      ((crowded 1).step (crowdedCall 1)).world.env.heap.countAt 0 = 1 := by
  have failed : ((crowded 1).record (crowdedCall 1)).result = .error (mgSetOom .create) := by
    decide +kernel
  have bounded : ((crowded 1).step (crowdedCall 1)).world.env.heap.overflowed = false := by
    decide +kernel
  have reachable : Reachable (crowded 1) := (Reachable.start _ _ _).run rfl
  obtain ⟨_, _, _, counts⟩ :=
    failed_construction_changes_nothing reachable (crowded_permits 1) trivial failed
  exact ⟨failed, (counts bounded 0).trans (by decide +kernel)⟩

theorem crowded_frees {feeds : Nat} (many : 2 ^ 32 ≤ feeds + 1) :
    Reachable (crowded feeds) ∧ (crowded feeds).permits (crowdedCall feeds) = true ∧
      ((crowded feeds).record (crowdedCall feeds)).result = .error (mgSetOom .create) ∧
      (crowded feeds).world.env.heap.countAt 0 = 1 ∧
      ((crowded feeds).step (crowdedCall feeds)).world.env.heap.countAt 0 = 0 := by
  have nonempty : feeds ≠ 0 := by omega
  refine ⟨(Reachable.start _ _ _).run rfl, crowded_permits _, ?_, ?_, ?_⟩
  · exact congrArg Prod.fst (crowded_eval nonempty)
  · rw [crowded_world]
    rfl
  · have reached := congrArg (fun result => result.2.env.heap.countAt 0) (crowded_eval nonempty)
    exact reached.trans (refusedEnv_freed many)

/-- The failed addition has freed a buffer that its caller still holds. -/
theorem failed_construction_frees :
    Reachable (crowded 4294967295) ∧
      (crowded 4294967295).permits (crowdedCall 4294967295) = true ∧
      ((crowded 4294967295).record (crowdedCall 4294967295)).result =
        .error (mgSetOom .create) ∧
      (crowded 4294967295).world.env.heap.countAt 0 = 1 ∧
      ((crowded 4294967295).step (crowdedCall 4294967295)).world.env.heap.countAt 0 = 0 :=
  crowded_frees (by decide)

end MetalGraph
