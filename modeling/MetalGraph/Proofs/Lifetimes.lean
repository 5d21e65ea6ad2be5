import MetalGraph.Proofs.LaunchRetention
import MetalGraph.Proofs.Ownership
import MetalGraph.Proofs.Synchronization

set_option autoImplicit false

/- As long as the caller keeps a launch, nothing that its commands name is freed, whatever
else is destroyed or patched meanwhile. -/
namespace MetalGraph

/-! ### What a launch holds -/

/-- Every buffer that the commands name is one the launch holds, and so is every event. -/
structure Covers (commands : List Command) (launch : MgLaunch) : Prop where
  buffers : ∀ buffer, some buffer ∈ (commands.flatMap Command.work).flatMap Command.buffers →
    (∃ held ∈ launch.retainedBuffers, held.impl = buffer) ∨
      launch.retainedWorkspaceImpl = some buffer
  events : ∀ event ∈ (commands.flatMap Command.work).flatMap Command.events,
    ∃ held ∈ launch.retainedEvents, held.impl = event

theorem mem_workspaceUses {workspace : Option MetalBuffer} {node : MgExecNode}
    {buffer : Option MetalBuffer} (member : buffer ∈ node.workspaceUses workspace) :
    buffer = workspace := by
  unfold MgExecNode.workspaceUses at member
  split at member
  · simpa using member
  · cases member

theorem FillsArrays.covers {exec : MgGraphExec} {commands : List Command} {launch : MgLaunch}
    (fills : FillsArrays exec commands launch) : Covers commands launch where
  buffers := by
    intro buffer named
    rw [fills.namedBuffers.mem_iff, List.mem_append] at named
    rcases named with retained | hidden
    · left
      obtain ⟨held, member, same⟩ := List.mem_map.mp retained
      exact ⟨held, member, Option.some.inj same⟩
    · right
      obtain ⟨node, _, member⟩ := List.mem_flatMap.mp hidden
      exact (mem_workspaceUses member).symm
  events := by
    intro event named
    rw [fills.namedEvents] at named
    exact List.mem_map.mp named

/-- What a launch holds does not change until it is destroyed. -/
structure SameHoldings (before after : MgLaunch) : Prop where
  buffers : after.retainedBuffers = before.retainedBuffers
  events : after.retainedEvents = before.retainedEvents
  workspace : after.retainedWorkspaceImpl = before.retainedWorkspaceImpl

theorem SameHoldings.refl (launch : MgLaunch) : SameHoldings launch launch := ⟨rfl, rfl, rfl⟩

theorem Covers.kept {commands : List Command} {before after : MgLaunch}
    (covers : Covers commands before) (same : SameHoldings before after) :
    Covers commands after where
  buffers := by
    rw [same.buffers, same.workspace]
    exact covers.buffers
  events := by
    rw [same.events]
    exact covers.events

theorem CallStep.holdings_kept {world world' : World} {call : Call}
    {result : Except Fault Response} (step : CallStep world call result world')
    {handle : LaunchPtr} {after : MgLaunch} (live : world'.launches.get? handle = some after)
    (old : handle < world.launches.size) :
    ∃ before, world.launches.get? handle = some before ∧ SameHoldings before after := by
  cases step with
  | launchDestroy present ran =>
      rw [Slots.get?_free] at live
      split at live
      · cases live
      · exact ⟨after, live, .refl after⟩
  | graphLaunch present ran =>
      rw [Slots.get?_push, if_neg old.ne] at live
      exact ⟨after, live, .refl after⟩
  | @launchSynchronize pointer launch result focus present ran =>
      have sync := mgLaunchSynchronize_step ⟨launch, world.execOf launch⟩ world.env
      rw [ran] at sync
      rw [World.putLaunch, Slots.get?_put present] at live
      split at live
      · rename_i here
        cases live
        subst here
        refine ⟨launch, present, ?_⟩
        cases sync with
        | idle | orphaned | again => exact .refl launch
        | first => exact ⟨rfl, rfl, rfl⟩
      · exact ⟨after, live, .refl after⟩
  | refused | nothing | counted | graphCreate | graphNotCreated | graphDestroy | graphEdit
  | graphValidate | graphInstantiate | graphNotInstantiated | execDestroy | execPatch
  | graphNotLaunched => exact ⟨after, live, .refl after⟩

/-! ### Runs -/

/-- Every launch of the log that is still there holds what its commands name. -/
def System.LaunchesCovered (system : System) : Prop :=
  ∀ entry ∈ system.log, ∀ exec handle, entry.opens = some (exec, handle) →
    handle < system.world.launches.size ∧
      ∀ launch, system.world.launches.get? handle = some launch →
        Covers (committedCommands entry.events) launch

theorem launches_size_le {world world' : World} {call : Call} {result : Except Fault Response}
    (step : CallStep world call result world') : world.launches.size ≤ world'.launches.size := by
  cases step with
  | launchSynchronize => simp
  | refused | nothing | counted | graphCreate | graphNotCreated | graphDestroy | graphEdit
  | graphValidate | graphInstantiate | graphNotInstantiated | execDestroy | execPatch
  | graphLaunch | graphNotLaunched | launchDestroy => simp

theorem opens_eq_some {entry : Entry} {exec : ExecPtr} {handle : LaunchPtr}
    (opens : entry.opens = some (exec, handle)) :
    (∃ stream, entry.call = .graphLaunch (some exec) stream) ∧
      entry.result = .ok (.launch handle) := by
  unfold Entry.opens at opens
  split at opens
  · rename_i call result
    cases opens
    exact ⟨⟨_, call⟩, result⟩
  · cases opens

/-- The launch that a call makes holds what it has committed. -/
theorem recorded_covers {system : System} (reachable : Reachable system) {call : Call}
    {exec : ExecPtr} {handle : LaunchPtr}
    (opens : (system.record call).opens = some (exec, handle)) :
    handle < (system.step call).world.launches.size ∧
      ∀ launch, (system.step call).world.launches.get? handle = some launch →
        Covers (committedCommands (system.record call).events) launch := by
  obtain ⟨⟨stream, named⟩, success⟩ := opens_eq_some opens
  change call = _ at named
  subst named
  obtain ⟨object, live⟩ := launch_live success
  obtain ⟨built, stored, submitted⟩ := launch_submits live success
  obtain ⟨built', focus, ran, here, world⟩ := launch_recorded live success
  have present : (system.step (.graphLaunch (some exec) stream)).world.launches.get? handle =
      some built' := by
    rw [world, Slots.get?_push, if_pos here]
  have storing := (mgGraphLaunch_run ran).storing
  have fills := storing.fills (reachable.execWf live)
  rw [← submitted.commands] at fills
  refine ⟨Slots.lt_size_of_get? stored, ?_⟩
  intro launch found
  rw [present] at found
  cases found
  exact fills.covers

theorem Reachable.launchesCovered {system : System} (reachable : Reachable system) :
    system.LaunchesCovered := by
  apply reachable.system_invariant
  · intro oracle commandBufferFails mpsgraphEnabled entry member
    cases member
  · intro system call earlier covered permitted step entry member exec handle opens
    rcases List.mem_append.mp member with before | now
    · obtain ⟨old, covers⟩ := covered entry before exec handle opens
      refine ⟨old.trans_le (launches_size_le step), ?_⟩
      intro launch live
      obtain ⟨kept, present, same⟩ := step.holdings_kept live old
      exact (covers kept present).kept same
    · cases List.mem_singleton.mp now
      exact recorded_covers earlier opens

/-- What a live launch holds is alive in the heap. -/
theorem held_alive {system : System} (reachable : Reachable system)
    (bounded : system.world.env.heap.overflowed = false) {handle : LaunchPtr} {launch : MgLaunch}
    (live : system.world.launches.get? handle = some launch) :
    ∀ address ∈ launch.references,
      ∃ cell, system.world.env.heap.cells.get? address = some cell := by
  intro address member
  apply ((reachable.counted bounded).alive address).mpr
  right
  have all : address ∈ system.world.holders [] := by
    rw [holders_launch live]
    exact Multiset.mem_add.mpr (.inl member)
  simpa [World.holders] using all

/-- As long as no count has run over, nothing that a launch has committed names a freed buffer
or event while the launch is there: each is the library's or the wrapped object of a live
handle that the launch holds, or its own workspace. The plan, the graph and the caller's
handles may be gone. -/
theorem launched_objects_alive {system : System} (reachable : Reachable system)
    (bounded : system.world.env.heap.overflowed = false) {entry : Entry}
    (logged : entry ∈ system.log) {exec : ExecPtr} {handle : LaunchPtr}
    (opened : entry.opens = some (exec, handle)) {launch : MgLaunch}
    (live : system.world.launches.get? handle = some launch) :
    (∀ buffer, some buffer ∈
        ((committedCommands entry.events).flatMap Command.work).flatMap Command.buffers →
      (∃ held ∈ launch.retainedBuffers, held.impl = buffer ∧
        ∃ cell, system.world.env.heap.cells.get? held.address = some cell) ∨
      launch.retainedWorkspaceImpl = some buffer) ∧
    ∀ event ∈ ((committedCommands entry.events).flatMap Command.work).flatMap Command.events,
      ∃ held ∈ launch.retainedEvents, held.impl = event ∧
        ∃ cell, system.world.env.heap.cells.get? held.address = some cell := by
  have covers := ((reachable.launchesCovered) entry logged exec handle opened).2 launch live
  have alive := held_alive reachable bounded live
  constructor
  · intro buffer named
    rcases covers.buffers buffer named with ⟨held, member, same⟩ | own
    · exact .inl ⟨held, member, same,
        alive _ (List.mem_append_left _ (List.mem_map_of_mem member))⟩
    · exact .inr own
  · intro event named
    obtain ⟨held, member, same⟩ := covers.events event named
    exact ⟨held, member, same, alive _ (List.mem_append_right _ (List.mem_map_of_mem member))⟩

/-! The caller launches a plan and gives everything but the launch away. -/

def abandonedRun : System := ((grantAll.run mixedCalls).step launchMixed).run
  [.graphDestroy (some 0), .counted (.bufferDestroy (some sharedBuffer))]

theorem abandoned_live : (abandonedRun.world.launches.get? 0).isSome = true := by decide +kernel

theorem recorded_logged (system : System) (call : Call) :
    system.record call ∈ (system.step call).log :=
  List.mem_append_right _ (List.mem_singleton_self _)

theorem logged_run {system : System} {entry : Entry} (logged : entry ∈ system.log)
    (calls : List Call) : entry ∈ (system.run calls).log := by
  induction calls generalizing system with
  | nil => exact logged
  | cons call rest ih => exact ih (List.mem_append_left _ logged)

theorem launched_objects_of_abandoned :
    ∃ launch, abandonedRun.world.launches.get? 0 = some launch ∧
      ((∃ held ∈ launch.retainedBuffers, held.impl = sharedBuffer.impl ∧
        ∃ cell, abandonedRun.world.env.heap.cells.get? held.address = some cell) ∨
      launch.retainedWorkspaceImpl = some sharedBuffer.impl) := by
  obtain ⟨launch, live⟩ := Option.isSome_iff_exists.mp abandoned_live
  have reachable : Reachable abandonedRun :=
    (mixed_reachable.step (by decide +kernel)).run (by decide +kernel)
  have bounded : abandonedRun.world.env.heap.overflowed = false := by decide +kernel
  have logged : (grantAll.run mixedCalls).record launchMixed ∈ abandonedRun.log :=
    logged_run (recorded_logged (grantAll.run mixedCalls) launchMixed) _
  have opened : ((grantAll.run mixedCalls).record launchMixed).opens = some (0, 0) := by
    decide +kernel
  have named : some sharedBuffer.impl ∈ ((committedCommands
      ((grantAll.run mixedCalls).record launchMixed).events).flatMap Command.work).flatMap
        Command.buffers := by
    decide +kernel
  exact ⟨launch, live, (launched_objects_alive reachable bounded logged opened live).1 _ named⟩

end MetalGraph
