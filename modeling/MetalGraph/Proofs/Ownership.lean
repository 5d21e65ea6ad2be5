import MetalGraph.Proofs.InFlight
import MetalGraph.Proofs.LaunchEvents
import MetalGraph.Proofs.LaunchOwnership

set_option autoImplicit false

/- Every reference count is the number of holders, in every reachable state. -/
namespace MetalGraph

open Eff

/-! ### Holders -/

/-- The places of the graphs, plans and launches that hold each object. -/
def World.references (world : World) : Multiset Nat :=
  world.graphs.total (fun graph => (graph.references : Multiset Nat)) +
    world.execs.total (fun exec => (exec.references : Multiset Nat)) +
    world.launches.total fun launch => (launch.references : Multiset Nat)

/-- The caller's handles and the places that hold an object. -/
def World.holders (world : World) (handles : List Nat) : Multiset Nat := handles + world.references

structure Holdings (handles : List Nat) (world : World) : Prop where
  ledger : Ledger (world.holders handles) world.env
  distinct : world.env.heap.overflowed = true ∨ handles.Nodup

theorem Holdings.of_overflowed {handles : List Nat} {world : World}
    (wrapped : world.env.heap.overflowed = true) : Holdings handles world :=
  ⟨.inl wrapped, .inl wrapped⟩

section Tables

variable {world : World} {handles : List Nat} {address : Nat}

theorem holders_graph {graph : MgGraph} (live : world.graphs.get? address = some graph) :
    world.holders handles = graph.references + (freeGraph address world).holders handles := by
  simp only [World.holders, World.references, freeGraph, Slots.total_free _ live]
  ac_rfl

theorem holders_putGraph {graph : MgGraph} (live : world.graphs.get? address = some graph)
    (env : Env) (after : MgGraph) :
    ({ world with env := env, graphs := world.graphs.put address after } : World).holders handles =
      after.references + (freeGraph address world).holders handles := by
  simp only [World.holders, World.references, freeGraph, Slots.total_put_free _ live]
  ac_rfl

theorem holders_exec {exec : MgGraphExec} (live : world.execs.get? address = some exec) :
    world.holders handles = exec.references + (freeExec address world).holders handles := by
  simp only [World.holders, World.references, freeExec, Slots.total_free _ live]
  ac_rfl

theorem holders_putExec {exec : MgGraphExec} (live : world.execs.get? address = some exec)
    (env : Env) (after : MgGraphExec) :
    ({ world with env := env, execs := world.execs.put address after } : World).holders handles =
      after.references + (freeExec address world).holders handles := by
  simp only [World.holders, World.references, freeExec, Slots.total_put_free _ live]
  ac_rfl

theorem holders_launch {launch : MgLaunch} (live : world.launches.get? address = some launch) :
    world.holders handles = launch.references + (freeLaunch address world).holders handles := by
  simp only [World.holders, World.references, freeLaunch, Slots.total_free _ live]
  ac_rfl

theorem holders_pushGraph {graph : MgGraph} (bare : graph.references = []) (env : Env) :
    ({ world with env := env, graphs := world.graphs.push graph } : World).holders handles =
      world.holders handles := by
  simp only [World.holders, World.references, Slots.total_push, bare, Multiset.coe_nil, add_zero]

theorem holders_pushExec (exec : MgGraphExec) (env : Env) :
    ({ world with env := env, execs := world.execs.push exec } : World).holders handles =
      exec.references + world.holders handles := by
  simp only [World.holders, World.references, Slots.total_push]
  ac_rfl

theorem holders_pushLaunch (launch : MgLaunch) (env : Env) (execs : Slots MgGraphExec) :
    ({ world with
        env := env, execs := execs, launches := world.launches.push launch } : World).holders
          handles =
      launch.references + ({ world with env := env, execs := execs } : World).holders handles := by
  simp only [World.holders, World.references, Slots.total_push]
  ac_rfl

theorem graph_held {graph : MgGraph} (live : world.graphs.get? address = some graph) :
    ∀ reference ∈ graph.references, reference ∈ world.holders handles := by
  intro reference member
  rw [holders_graph live]
  exact Multiset.mem_add.mpr (.inl member)

theorem exec_held {exec : MgGraphExec} (live : world.execs.get? address = some exec) :
    ∀ reference ∈ exec.references, reference ∈ world.holders handles := by
  intro reference member
  rw [holders_exec live]
  exact Multiset.mem_add.mpr (.inl member)

end Tables

/-! ### Counted objects -/

section Objects

variable {α : Type} {held : Multiset Nat}

/-- A new object is held once, by whoever asked for it. -/
def Joined (held : Multiset Nat) (address : Nat) (env : Env) : Prop :=
  Ledger (address ::ₘ held) env ∧ (env.heap.overflowed = true ∨ address ∉ held)

/-- A body that returns a new object, or fails and leaves the account as it was. -/
def Creates (address : α → Nat) (body : Run α) : Prop :=
  ∀ held : Multiset Nat, Triple (Ledger held) body (fun value => Joined held (address value))
    (Stops (fun _ => False) (Ledger held))

theorem ownedObject_joins {owner : Option Nat} {build : Nat → α} {object : α → Object}
    {address : α → Nat} (placed : ∀ position, address (build position) = position)
    (owned : ∀ value, (object value).owner = owner) {failed : Fault → Env → Prop} :
    Triple (Ledger held) (do ownerRetain owner; placeObject build object)
      (fun value => Joined held (address value)) failed := by
  intro env ledger
  have fresh := ledger.fresh
  have joined := ledger.place (object (build env.heap.cells.size))
  rw [owned] at joined
  cases owner with
  | none =>
      change Joined held (address (build env.heap.cells.size)) _
      rw [placed]
      exact ⟨joined.of_same rfl (by simp), fresh⟩
  | some context =>
      change Joined held (address (build env.heap.cells.size)) _
      rw [placed]
      exact ⟨joined, fresh⟩

theorem placeObject_joins {build : Nat → α} {object : α → Object} {address : α → Nat}
    (placed : ∀ position, address (build position) = position)
    (unowned : ∀ value, (object value).owner = none) {failed : Fault → Env → Prop} :
    Triple (Ledger held) (placeObject build object) (fun value => Joined held (address value))
      failed := by
  have joined : Triple (Ledger held) (do ownerRetain none; placeObject build object)
      (fun value => Joined held (address value)) failed := ownedObject_joins placed unowned
  exact joined

theorem mgBufferCreateShared_creates (device : Option MgDevice) (length : UInt64) :
    Creates MgBuffer.address (mgBufferCreateShared device length) := by
  intro held
  refine Triple.orFail (fun _ _ => ?_) fun _ _ ledger => .inr ledger
  refine Triple.require (fun _ => ?_) fun _ _ ledger => .inr ledger
  apply Triple.bind (newBufferWithLength_stable _ _ _)
  intro created
  refine Triple.orFail (fun _ _ => ?_) fun _ _ ledger => .inr ledger
  refine Triple.bind (attemptOr_stable _) fun _ => Triple.bind (attemptOr_stable _) fun _ => ?_
  exact placeObject_joins (fun _ => rfl) fun _ => rfl

theorem mgMetalBufferWrap_creates (device : Option MgDevice)
    (desc : Option MgMetalBufferWrapDesc) :
    Creates MgBuffer.address (mgMetalBufferWrap device desc) := by
  intro held
  refine Triple.orFail (fun _ _ => ?_) fun _ _ ledger => .inr ledger
  refine Triple.orFail (fun desc _ => ?_) fun _ _ ledger => .inr ledger
  refine Triple.ofExcept (fun metalBuffer _ => ?_) fun _ _ _ ledger => .inr ledger
  refine Triple.require (fun _ => ?_) fun _ _ ledger => .inr ledger
  split
  · exact Triple.fail fun _ ledger => .inr ledger
  apply Triple.bind Stable.ofExcept
  intro _
  refine Triple.require (fun _ => ?_) fun _ _ ledger => .inr ledger
  split
  · exact Triple.fail fun _ ledger => .inr ledger
  refine Triple.require (fun _ => ?_) fun _ _ ledger => .inr ledger
  refine Triple.bind (attemptOr_stable _) fun _ => Triple.bind (attemptOr_stable _) fun _ => ?_
  refine ownedObject_joins ?_ ?_
  · exact fun _ => rfl
  · exact fun _ => rfl

theorem mgEventCreate_creates (device : Option MgDevice) :
    Creates MgEvent.address (mgEventCreate device) := by
  intro held
  refine Triple.orFail (fun _ _ => ?_) fun _ _ ledger => .inr ledger
  refine Triple.bind (attemptOr_stable _) fun _ => Triple.bind (attemptOr_stable _) fun _ => ?_
  refine Triple.bind (attemptOr_stable _) fun _ => Triple.bind newMetalObject_stable fun _ => ?_
  exact placeObject_joins (fun _ => rfl) fun _ => rfl

theorem mgArenaCreate_creates (device : Option MgDevice) (desc : Option MgArenaDesc) :
    Creates MgArena.address (mgArenaCreate device desc) := by
  intro held
  refine Triple.orFail (fun _ _ => ?_) fun _ _ ledger => .inr ledger
  refine Triple.ofExcept (fun _ _ => ?_) fun _ _ _ ledger => .inr ledger
  apply Triple.bind (attemptOr_stable _)
  intro _
  exact placeObject_joins (fun _ => rfl) fun _ => rfl

variable {world : World} {handles : List Nat} {env : Env} {call : Call}
  {result : Except Fault Response} {events : List MetalEvent}

/-- The caller gets a handle to a new object, which it did not have before. -/
theorem Creates.holdings {address : α → Nat} {body : Run α} {answer : α → Response}
    (creates : Creates address body) (ledger : Ledger (world.holders handles) world.env)
    (distinct : handles.Nodup)
    (handed : ∀ value, Entry.handedOut ⟨call, .ok (answer value), events⟩ = some (address value))
    (ran : (do let value ← body; pure (answer value) : Run Response) world.env = (result, env)) :
    Holdings ((Entry.handedOut ⟨call, result, events⟩).toList ++ handles)
      { world with env := env } := by
  rcases result with reason | response
  · have failed := (bind_error.mp ran).resolve_right (by simp)
    exact ⟨((creates _).error ledger failed).resolve_left id, .inr distinct⟩
  · obtain ⟨value, middle, made, finished⟩ := bind_ok.mp ran
    obtain ⟨rfl, rfl⟩ := pure_ok.mp finished
    obtain ⟨joined, fresh⟩ := (creates _).ok ledger made
    rw [handed]
    refine ⟨?_, fresh.imp_right fun unheld => ?_⟩
    · rwa [World.holders, Option.toList_some, List.singleton_append, ← Multiset.cons_coe,
        Multiset.cons_add]
    · refine List.nodup_cons.mpr ⟨fun member => unheld ?_, distinct⟩
      exact Multiset.mem_add.mpr (.inl member)

/-- The caller gives a handle back. -/
theorem Gives.holdings {given : Option Nat} {body : Run Unit} {answer : Response}
    (gives : Gives given.toList body) (ledger : Ledger (world.holders handles) world.env)
    (distinct : handles.Nodup) (owned : given.elim true handles.contains = true)
    (nothing : Entry.handedOut ⟨call, .ok answer, events⟩ = none)
    (ran : (do body; pure answer : Run Response) world.env = (result, env)) :
    Holdings ((Entry.handedOut ⟨call, result, events⟩).toList ++ given.elim handles handles.erase)
      { world with env := env } := by
  have returned : (given.toList : Multiset Nat) +
      world.holders (given.elim handles handles.erase) = world.holders handles := by
    cases given with
    | none => exact zero_add _
    | some address =>
        have member : address ∈ handles := by simpa using owned
        rw [World.holders, World.holders, ← add_assoc, Multiset.coe_add]
        exact congrArg (· + world.references)
          (Multiset.coe_eq_coe.mpr (List.perm_cons_erase member).symm)
  rw [← returned] at ledger
  rcases result with reason | response
  · have failed := (bind_error.mp ran).resolve_right (by simp)
    exact ((gives _).error ledger failed).elim
  · obtain ⟨_, middle, released, finished⟩ := bind_ok.mp ran
    obtain ⟨rfl, rfl⟩ := pure_ok.mp finished
    rw [nothing]
    refine ⟨(gives _).ok ledger released, .inr ?_⟩
    cases given with
    | none => exact distinct
    | some address => exact distinct.erase address

/-- A call on a counted object keeps the account and the caller's handles in step. -/
theorem ObjectCall.run_holdings {system : System} {call : ObjectCall}
    (ledger : Ledger (system.world.holders system.handles) system.world.env)
    (distinct : system.handles.Nodup) (permitted : system.permitsObject call = true)
    (ran : call.run system.world.env = (result, env)) :
    Holdings ((Entry.handedOut ⟨.counted call, result, events⟩).toList ++
      (Call.counted call).takenBack.elim system.handles system.handles.erase)
      { system.world with env := env } := by
  cases call with
  | bufferCreateShared device length =>
      exact (mgBufferCreateShared_creates device length).holdings ledger distinct (fun _ => rfl) ran
  | metalBufferWrap device desc =>
      exact (mgMetalBufferWrap_creates device desc).holdings ledger distinct (fun _ => rfl) ran
  | eventCreate device =>
      exact (mgEventCreate_creates device).holdings ledger distinct (fun _ => rfl) ran
  | arenaCreate device desc =>
      exact (mgArenaCreate_creates device desc).holdings ledger distinct (fun _ => rfl) ran
  | bufferDestroy buffer =>
      have gives : Gives (buffer.map MgBuffer.address).toList
          (Eff.forEach mgBufferRelease buffer.toList) := by
        rw [Option.toList_map]
        exact releaseEach_gives MgBuffer.address buffer.toList
      exact gives.holdings ledger distinct (Bool.and_eq_true_iff.mp permitted).1 rfl ran
  | eventDestroy event =>
      have gives : Gives (event.map MgEvent.address).toList
          (Eff.forEach mgEventRelease event.toList) := by
        rw [Option.toList_map]
        exact releaseEach_gives MgEvent.address event.toList
      exact gives.holdings ledger distinct (Bool.and_eq_true_iff.mp permitted).1 rfl ran
  | arenaDestroy arena =>
      exact (mgArenaRelease_gives arena).holdings ledger distinct
        (Bool.and_eq_true_iff.mp permitted).1 rfl ran

end Objects

/-! ### Origins of buffers -/

section Origins

variable {device : Option MgDevice} {env reached : Env} {buffer : MgBuffer} {outSize : UInt64}

/-- A buffer made by the library owns its bytes, all of which the client asked for. -/
theorem mgBufferGetOriginInfo_of_created {length : UInt64}
    (room : ¬ outSize < sizeofMgBufferOriginInfo)
    (made : mgBufferCreateShared device length env = (.ok buffer, reached)) :
    ∃ info, mgBufferGetOriginInfo (some buffer) outSize = .ok info ∧
      info.originKind = .libraryOwned ∧ info.isZeroCopy = false ∧ info.isExternal = false ∧
      info.isHostVisible = true ∧ info.isMutable = true ∧
      info.byteOffset = 0 ∧ info.byteLength = length := by
  simp only [mgBufferCreateShared, bind_ok, orFail_ok, require_ok, attemptOr_ok] at made
  obtain ⟨_, _, ⟨_, rfl⟩, _, _, ⟨_, rfl⟩, created, _, granted, metal, _, ⟨rfl, rfl⟩, _, _,
    ⟨_, rfl⟩, _, _, ⟨_, rfl⟩, placed⟩ := made
  cases placed
  rw [mgBufferGetOriginInfo, if_neg room]
  exact ⟨_, rfl, rfl, rfl, rfl, rfl, rfl, rfl, newBufferWithLength_ok granted⟩

/-- A wrapper shows the window and the rights of its descriptor, and is mutable when the
descriptor asked to write. -/
theorem mgBufferGetOriginInfo_of_wrapped {desc : Option MgMetalBufferWrapDesc}
    (room : ¬ outSize < sizeofMgBufferOriginInfo)
    (made : mgMetalBufferWrap device desc env = (.ok buffer, reached)) :
    ∃ given info, desc = some given ∧ mgBufferGetOriginInfo (some buffer) outSize = .ok info ∧
      info.originKind = .externalMetal ∧ info.isZeroCopy = true ∧ info.isExternal = true ∧
      info.isHostVisible = given.has wrapHostVisible ∧
      (mgMetalBufferAccessWrites given.access = true → info.isMutable = true) ∧
      info.byteOffset = given.byteOffset ∧ info.byteLength = given.byteLength := by
  simp only [mgMetalBufferWrap, bind_ok, orFail_ok, ofExcept_ok, require_ok] at made
  obtain ⟨_, _, _, given, _, ⟨rfl, _⟩, _, _, _, _, _, _, made⟩ := made
  split at made
  · cases made
  simp only [bind_ok, ofExcept_ok, require_ok] at made
  obtain ⟨_, _, ⟨flags, _⟩, _, _, _, made⟩ := made
  split at made
  · cases made
  simp only [bind_ok, require_ok, attemptOr_ok] at made
  obtain ⟨_, _, _, _, _, _, _, _, _, _, _, _, placed⟩ := made
  cases placed
  have rights : mgMetalBufferAccessWrites given.access = true → given.has wrapMutable = true := by
    simp only [wrapDescValidateFlags, except_bind_ok, demand_ok] at flags
    obtain ⟨_, _, _, _, _, _, _, _, _, _, rights⟩ := flags
    exact rights
  rw [mgBufferGetOriginInfo, if_neg room]
  exact ⟨given, _, rfl, rfl, rfl, rfl, rfl, rfl, rights, rfl, rfl⟩

end Origins

/-! ### Calls -/

section Call

variable {handles : List Nat} {result : Except Fault Response} {world : World} {env : Env}

theorem mgGraphCreate_references {address : GraphPtr} {graph : MgGraph}
    (ran : mgGraphCreate address world.env = (.ok graph, env)) : graph.references = [] := by
  rw [mgGraphCreate_ok ran]
  rfl

theorem mgGraphCreate_stable {held : Multiset Nat} (address : GraphPtr) :
    Stable (fun _ => False) (Ledger held) (mgGraphCreate address) :=
  .bind (attemptOr_stable _) fun _ => .pure _

theorem mgLaunchSynchronize_stable {held : Multiset Nat} :
    Stable (fun _ => False) (Carries (fun _ => True) held) mgLaunchSynchronize :=
  .bind self_stable fun _ => .bind .require fun _ =>
    .bind (onEnv_stable (.foldEach fun _ _ _ => .bind (waitUntilCompleted_stable _) fun _ =>
      .pure _)) fun _ =>
    .bind (.whenever fun _ => .bind self_stable fun _ =>
      .bind (.whenever fun _ => .bind self_stable fun _ => .bind .orFail fun _ =>
        modifySelf_stable fun _ _ => trivial) fun _ => modifySelf_stable fun _ _ => trivial)
      fun _ => .require

/-- A synchronization moves no reference. -/
theorem SyncOutcome.references {address : LaunchPtr} {launch : MgLaunch} {pointer : ExecPtr}
    {result : Except Fault Unit} {after : World}
    (live : world.launches.get? address = some launch)
    (outcome : SyncOutcome world address launch pointer result after)
    (graphs : after.graphs = world.graphs) (execsSize : after.execs.size = world.execs.size)
    (launchesSize : after.launches.size = world.launches.size) :
    after.references = world.references := by
  have total : (∀ index, (after.execs.get? index).elim 0
        (fun exec => (exec.references : Multiset Nat)) =
      (world.execs.get? index).elim 0 fun exec => (exec.references : Multiset Nat)) →
      (∀ index, (after.launches.get? index).elim 0
        (fun launch => (launch.references : Multiset Nat)) =
      (world.launches.get? index).elim 0 fun launch => (launch.references : Multiset Nat)) →
      after.references = world.references := by
    intro execs launches
    rw [World.references, World.references, graphs, Slots.total_of_measures _ execsSize execs,
      Slots.total_of_measures _ launchesSize launches]
  cases outcome with
  | unfinished _ _ execs launches | again _ _ _ execs launches =>
      exact total (fun index => by rw [execs]) fun index => by rw [launches]
  | @first before _ _ _ _ alive execs launches =>
      refine total (fun index => ?_) fun index => ?_
      · rw [execs]
        split
        · rename_i here
          rw [here, alive]
          change (before.finishLaunch.references : Multiset Nat) = before.references
          unfold MgGraphExec.finishLaunch
          split <;> rfl
        · rfl
      · rw [launches]
        split
        · rename_i here
          rw [here, live]
          rfl
        · rfl

theorem GraphEdit.handedOut_none {edit : GraphEdit} {call : Call} {events : List MetalEvent}
    {start focus : Focus MgGraph} (ran : edit.run start = (result, focus)) :
    Entry.handedOut ⟨call, result, events⟩ = none := by
  rcases result with reason | response
  · rfl
  · cases edit <;>
    · simp only [GraphEdit.run, bind_ok, pure_ok] at ran
      obtain ⟨_, _, _, rfl, _⟩ := ran
      rfl

/-- A permitted call keeps every count equal to the number of holders. -/
theorem CallStep.holdings {system : System} {call : Call} {events : List MetalEvent}
    (reachable : Reachable system) (holdings : Holdings system.handles system.world)
    (permitted : system.permits call = true) (step : CallStep system.world call result world) :
    Holdings ((Entry.handedOut ⟨call, result, events⟩).toList ++
      call.takenBack.elim system.handles system.handles.erase) world := by
  by_cases wrapped : world.env.heap.overflowed = true
  · exact .of_overflowed wrapped
  have early : ¬ system.world.env.heap.overflowed = true := fun before =>
    wrapped (step.env_le.overflowed before)
  obtain ⟨ledger, distinct⟩ := holdings
  have distinct := distinct.resolve_left early
  have knows := ledger.knows.resolve_left early
  cases step with
  | @refused call reason missed =>
      cases call with
      | counted => exact missed.elim
      | _ => exact ⟨ledger, .inr distinct⟩
  | @nothing call missed =>
      cases call with
      | counted => exact missed.elim
      | _ => exact ⟨ledger, .inr distinct⟩
  | counted call ran => exact call.run_holdings ledger distinct permitted ran
  | graphCreate ran =>
      refine ⟨?_, .inr distinct⟩
      rw [← holders_pushGraph (mgGraphCreate_references ran)] at ledger
      exact (mgGraphCreate_stable _).of_run ledger ran
  | graphNotCreated ran => exact ⟨(mgGraphCreate_stable _).of_run ledger ran, .inr distinct⟩
  | graphDestroy live ran =>
      rw [holders_graph live] at ledger
      exact ⟨(mgGraphDestroy_gives _ _).ok ledger ran, .inr distinct⟩
  | @graphEdit _ graph edit result _ live ran =>
      rw [holders_graph live] at ledger knows
      have keeps := edit.run_accounts knows (Bool.and_eq_true_iff.mp permitted).2
      rw [edit.handedOut_none ran]
      refine ⟨?_, .inr distinct⟩
      rw [holders_putGraph live]
      have start : Carries (HasReferences graph.references) _ ⟨graph, system.world.env⟩ :=
        ⟨rfl, ledger⟩
      cases result with
      | ok => exact keeps.ok start ran
      | error =>
          obtain ⟨same, left⟩ := (keeps.error start ran).resolve_left id
          rwa [← same] at left
  | graphValidate live ran =>
      have kept := (mgGraphValidate_stable _).of_run ledger ran
      rename_i result _
      cases result <;> exact ⟨kept, .inr distinct⟩
  | graphInstantiate live ran =>
      refine ⟨?_, .inr distinct⟩
      rw [holders_pushExec]
      exact (mgGraphInstantiate_takes (graph_held live)).ok ledger ran
  | graphNotInstantiated live ran =>
      refine ⟨((mgGraphInstantiate_takes (graph_held live)).error ledger ran).resolve_left ?_,
        .inr distinct⟩
      rintro rfl
      exact mgGraphInstantiate_fails (reachable.graphsWf _ _ live) _ _ _ _ ran
  | execDestroy live ran =>
      rw [holders_exec live] at ledger
      exact ⟨(mgGraphExecDestroy_gives _ _).ok ledger ran, .inr distinct⟩
  | @execPatch address exec patch result focus live ran =>
      have answered : Entry.handedOut ⟨.execPatch (some address) patch,
        result.map fun _ => .done, events⟩ = none := by cases result <;> rfl
      rw [answered]
      refine ⟨?_, .inr distinct⟩
      rw [holders_exec live] at ledger knows
      rw [holders_putExec live]
      rcases ExecPatch.run_cases ran with ⟨_, stepped⟩ | unchanged
      · exact stepped.accounts ledger knows (Bool.and_eq_true_iff.mp permitted).2
      · exact unchanged ▸ ledger
  | @graphLaunch _ exec _ launch focus live ran =>
      refine ⟨?_, .inr distinct⟩
      have start : Carries (RefersTo exec.references) _ ⟨exec, system.world.env⟩ := ⟨rfl, ledger⟩
      obtain ⟨refers, left⟩ := (mgGraphLaunch_takes (exec_held live)).ok start ran
      rw [holders_pushLaunch, holders_putExec live, refers, ← holders_exec live]
      exact left
  | @graphNotLaunched _ exec _ _ _ live ran =>
      refine ⟨?_, .inr distinct⟩
      have start : Carries (RefersTo exec.references) _ ⟨exec, system.world.env⟩ := ⟨rfl, ledger⟩
      have defined := (mgGraphLaunch_halts (reachable.execWf live)
        (reachable.supports _ _ live) ran).defined
      obtain ⟨refers, left⟩ :=
        ((mgGraphLaunch_takes (exec_held live)).error start ran).resolve_left defined
      rw [holders_putExec live, refers, ← holders_exec live]
      exact left
  | @launchSynchronize address launch result focus live ran =>
      obtain ⟨pointer, named, _, _⟩ := reachable.accounts.owned address launch live
      have answered : Entry.handedOut ⟨.launchSynchronize (some address),
        result.map fun _ => .done, events⟩ = none := by cases result <;> rfl
      rw [answered]
      refine ⟨?_, .inr distinct⟩
      rw [World.holders, (mgLaunchSynchronize_outcome live named ran).references live
        rfl (putLaunch_execs_size _ _ _) (putLaunch_launches_size _ _ _)]
      exact (mgLaunchSynchronize_stable.of_run ⟨trivial, ledger⟩ ran).2
  | launchDestroy live ran =>
      rw [holders_launch live] at ledger
      exact ⟨(mgLaunchDestroy_gives _ _).ok ledger ran, .inr distinct⟩

end Call

/-! ### Runs -/

theorem owners_start (oracle commandBufferFails : Nat → Bool) (mpsgraphEnabled : Bool) :
    Owners (Env.initial oracle commandBufferFails mpsgraphEnabled) where
  live := fun _ _ live => by simp [Env.initial, RefHeap.empty] at live
  freed := fun _ _ => .inl rfl
  fresh := fun _ _ => rfl

theorem Reachable.holdings {system : System} (reachable : Reachable system) :
    Holdings system.handles system.world := by
  induction reachable with
  | start oracle commandBufferFails mpsgraphEnabled =>
      exact ⟨.inr ⟨RefHeap.empty_balanced, owners_start _ _ _⟩, .inr List.nodup_nil⟩
  | @step system call earlier permitted ih =>
      exact (system.step_recorded call).holdings earlier ih permitted

/-- Somebody holds the object. -/
def System.Held (system : System) (address : Nat) : Prop :=
  address ∈ system.handles ∨ address ∈ system.world.references

/-- Nothing is touched after it is freed, an object is alive exactly while it is held,
and its count is one for the caller's handle and one for each place that holds it. -/
structure System.Counted (system : System) : Prop where
  sound : system.world.env.heap.dangling = false
  alive : ∀ address, (∃ cell, system.world.env.heap.cells.get? address = some cell) ↔
    system.Held address
  counts : ∀ address cell, system.world.env.heap.cells.get? address = some cell →
    cell.count.toNat = (if address ∈ system.handles then 1 else 0) +
      system.world.references.count address

theorem mem_holders {system : System} {address : Nat} :
    address ∈ system.world.holders system.handles ↔ system.Held address := by
  rw [World.holders, Multiset.mem_add, Multiset.mem_coe, System.Held]

theorem Reachable.counted {system : System} (reachable : Reachable system)
    (bounded : system.world.env.heap.overflowed = false) : system.Counted := by
  obtain ⟨ledger, distinct⟩ := reachable.holdings
  have room : ¬ system.world.env.heap.overflowed = true := by simp [bounded]
  have ⟨balanced, _⟩ := ledger.resolve_left room
  have distinct := distinct.resolve_left room
  refine ⟨balanced.sound, fun address => ⟨?_, ?_⟩, fun address cell live => ?_⟩
  · rintro ⟨cell, live⟩
    exact mem_holders.mp (balanced.mem_of_live live)
  · exact fun held => balanced.live_of_mem (mem_holders.mpr held)
  · rw [← RefHeap.countAt_of_live live, balanced.counts, World.holders, Multiset.count_add,
      Multiset.coe_count]
    congr 1
    split
    · exact List.count_eq_one_of_mem distinct ‹_›
    · exact List.count_eq_zero_of_not_mem ‹_›

/-! ### Owners of wrapped buffers -/

/-- The owner calls that a wrap makes itself. -/
def wrapCalls (desc : Option MgMetalBufferWrapDesc) : Except Fault MgBuffer → List OwnerCall
  | .ok buffer =>
    ((desc.bind MgMetalBufferWrapDesc.retainedOwner).map (OwnerCall.retain buffer.address)).toList
  | .error _ => []

/-- What the owners have been told so far. -/
def Told (calls : List OwnerCall) (env : Env) : Prop := env.ownerCalls = calls

theorem attemptOr_told {excused : Fault → Prop} {calls : List OwnerCall} (reason : Fault) :
    Stable excused (Told calls) (attemptOr reason) := by
  refine .bind (fun env told => ?_) fun _ => .require
  unfold attempt
  cases env.oracle env.clock <;> exact told

theorem mgMetalBufferWrap_told {calls : List OwnerCall} (device : Option MgDevice)
    (desc : Option MgMetalBufferWrapDesc) :
    Triple (Told calls) (mgMetalBufferWrap device desc)
      (fun buffer => Told (calls ++ wrapCalls desc (.ok buffer)))
      (Stops (fun _ => False) (Told calls)) := by
  refine Triple.orFail (fun _ _ => ?_) fun _ _ told => .inr told
  refine Triple.orFail (fun desc given => ?_) fun _ _ told => .inr told
  subst given
  refine Triple.ofExcept (fun metalBuffer _ => ?_) fun _ _ _ told => .inr told
  refine Triple.require (fun _ => ?_) fun _ _ told => .inr told
  split
  · exact Triple.fail fun _ told => .inr told
  apply Triple.bind Stable.ofExcept
  intro _
  refine Triple.require (fun _ => ?_) fun _ _ told => .inr told
  split
  · exact Triple.fail fun _ told => .inr told
  refine Triple.require (fun _ => ?_) fun _ _ told => .inr told
  refine Triple.bind (attemptOr_told _) fun _ => Triple.bind (attemptOr_told _) fun _ => ?_
  intro env told
  rcases owner : desc.retainedOwner with _ | context
  · simpa [Told, wrapCalls, owner, bind_apply, ownerRetain, placeObject] using told
  · simpa [Told, wrapCalls, owner, bind_apply, ownerRetain, placeObject] using told

/-- This call has wrapped the buffer on behalf of an owner that it retained. -/
def Entry.Wraps (entry : Entry) (buffer : MgBuffer) (context : Nat) : Prop :=
  ∃ device desc, entry.call = .counted (.metalBufferWrap device (some desc)) ∧
    entry.result = .ok (.buffer buffer) ∧ desc.retainedOwner = some context

/-- The owner calls that the answer of a wrap reports. -/
def Entry.wrapCalls (entry : Entry) (desc : Option MgMetalBufferWrapDesc) : List OwnerCall :=
  match entry.result with
  | .ok (.buffer buffer) => MetalGraph.wrapCalls desc (.ok buffer)
  | _ => []

/-- A wrap tells the owner once if it succeeds, and nobody anything if it fails. -/
theorem wrap_tells (system : System) (device : Option MgDevice)
    (desc : Option MgMetalBufferWrapDesc) :
    (system.step (.counted (.metalBufferWrap device desc))).world.env.ownerCalls =
      system.world.env.ownerCalls ++
        (system.record (.counted (.metalBufferWrap device desc))).wrapCalls desc := by
  have start : Told system.world.env.ownerCalls system.world.env := rfl
  rcases ran : mgMetalBufferWrap device desc system.world.env with ⟨reason | buffer, env⟩
  · have kept := ((mgMetalBufferWrap_told device desc).error start ran).resolve_left id
    simp only [System.step, System.record, Call.eval, onMachine_apply, ObjectCall.run, bind_apply,
      ran, Entry.wrapCalls, List.append_nil]
    exact kept
  · have made := (mgMetalBufferWrap_told device desc).ok start ran
    simp only [System.step, System.record, Call.eval, onMachine_apply, ObjectCall.run, bind_apply,
      ran, pure_apply, Entry.wrapCalls]
    exact made

/-- The owner of a wrapped buffer has been told once that it is in use and, once nobody
holds it any more, that it no longer is. -/
def System.OwnersTold (system : System) : Prop :=
  ∀ entry ∈ system.log, ∀ buffer context, entry.Wraps buffer context →
    (system.Held buffer.address →
      system.world.env.ownerHistory buffer.address = [.retain buffer.address context]) ∧
    (¬ system.Held buffer.address → system.world.env.ownerHistory buffer.address =
      [.retain buffer.address context, .release buffer.address context])

theorem Reachable.retained {system : System} (reachable : Reachable system) :
    ∀ entry ∈ system.log, ∀ buffer context, entry.Wraps buffer context →
      OwnerCall.retain buffer.address context ∈ system.world.env.ownerCalls := by
  induction reachable with
  | start => simp [System.initial]
  | @step system call earlier permitted ih =>
      intro entry member buffer context wraps
      rw [System.step_log, List.mem_append, List.mem_singleton] at member
      rcases member with before | rfl
      · exact (system.step_recorded call).env_le.calls.subset
          (ih entry before buffer context wraps)
      · obtain ⟨device, desc, same, answered, owner⟩ := wraps
        change call = _ at same
        subst same
        rw [wrap_tells, Entry.wrapCalls, answered]
        exact List.mem_append_right _ (by simp [MetalGraph.wrapCalls, owner])

theorem Reachable.ownersTold {system : System} (reachable : Reachable system)
    (bounded : system.world.env.heap.overflowed = false) : system.OwnersTold := by
  intro entry member buffer context wraps
  have retained : OwnerCall.retain buffer.address context ∈
      system.world.env.ownerHistory buffer.address :=
    List.mem_filter.mpr ⟨reachable.retained entry member buffer context wraps,
      by simp [OwnerCall.buffer]⟩
  have alive := (reachable.counted bounded).alive buffer.address
  obtain ⟨_, owners⟩ := reachable.holdings.ledger.resolve_left (by simp [bounded])
  refine ⟨fun held => ?_, fun unheld => ?_⟩
  · obtain ⟨cell, live⟩ := alive.mpr held
    have history := owners.live _ cell live
    rw [history] at retained ⊢
    rcases owner : cell.payload.owner with _ | other <;> simp [owner] at retained ⊢
    exact retained.symm
  · have dead : system.world.env.heap.cells.get? buffer.address = none := by
      rw [Option.eq_none_iff_forall_ne_some]
      exact fun cell live => unheld (alive.mp ⟨cell, live⟩)
    rcases owners.freed _ dead with nothing | ⟨other, history⟩
    · rw [nothing] at retained
      cases retained
    · rw [history] at retained ⊢
      simp at retained
      rw [retained]

/-- A call frees an object exactly if nobody holds it afterwards. -/
def System.FreesUnheld (system : System) (call : Call) : Prop :=
  ∀ address, (∃ cell, system.world.env.heap.cells.get? address = some cell) →
    ((system.step call).world.env.heap.cells.get? address = none ↔
      ¬ (system.step call).Held address)

theorem Reachable.freesUnheld {system : System} (reachable : Reachable system) {call : Call}
    (permitted : system.permits call = true)
    (bounded : (system.step call).world.env.heap.overflowed = false) :
    system.FreesUnheld call := by
  intro address _
  rw [← ((reachable.step permitted).counted bounded).alive address,
    Option.eq_none_iff_forall_ne_some, not_exists]

/-- In every reachable state the count of every live object is the number of its holders,
an object is freed by exactly the call after which nobody holds it, and the owner of a
wrapped buffer hears once of the wrap and once of the end. -/
theorem reference_counts_eq_holders {system : System} (reachable : Reachable system)
    (bounded : system.world.env.heap.overflowed = false) :
    system.Counted ∧ system.OwnersTold ∧
      (∀ call, system.permits call = true →
        (system.step call).world.env.heap.overflowed = false → system.FreesUnheld call) ∧
      ∀ device desc, (system.step (.counted (.metalBufferWrap device desc))).world.env.ownerCalls =
        system.world.env.ownerCalls ++
          (system.record (.counted (.metalBufferWrap device desc))).wrapCalls desc :=
  ⟨reachable.counted bounded, reachable.ownersTold bounded,
    fun _ permitted room => reachable.freesUnheld permitted room, wrap_tells system⟩

/-! A wrapped buffer that its owner gives up while a graph still fills it. -/

def ownedDesc : MgMetalBufferWrapDesc where
  size := 72
  buffer := some ⟨9, 7, 16, true⟩
  byteOffset := 0
  byteLength := 8
  access := .readWrite
  flags := wrapRetainOwner ||| wrapMutable
  ownerContext := some 5
  ownerRetain := true
  ownerRelease := true

def ownedBuffer : MgBuffer where
  address := 0
  impl := ⟨9, 7, 16, true⟩
  deviceImpl := some 7
  length := 8
  byteOffset := 0
  originKind := .externalMetal
  isZeroCopy := true
  isExternal := true
  isHostVisible := false
  isMutable := true
  sourceFramework := "Metal"
  window := by decide

def ownedCalls : List Call :=
  [.counted (.metalBufferWrap (some ⟨some 7⟩) (some ownedDesc)), .graphCreate,
    .graphEdit (some 0) (.addNode (.fill (some ⟨40, some ownedBuffer, 0, 8, 1⟩))),
    .graphInstantiate (some 0) (some ⟨some 7⟩),
    .counted (.bufferDestroy (some ownedBuffer)), .graphDestroy (some 0)]

theorem reference_counts_of_owned : (grantAll.run ownedCalls).Counted ∧
    (grantAll.run ownedCalls).world.references = {0} := by
  refine ⟨(reference_counts_eq_holders ((Reachable.start _ _ _).run ?_) ?_).1, ?_⟩
  · decide +kernel
  · decide +kernel
  · decide +kernel

end MetalGraph
