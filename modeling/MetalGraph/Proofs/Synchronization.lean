import MetalGraph.Proofs.InFlight

set_option autoImplicit false

/- Which launches can be synchronized. -/
namespace MetalGraph

open Eff

/-- Nodes that encode nothing. -/
def MgExecNode.isIdle : MgExecNode → Bool
  | .barrier _ | .workspace _ => true
  | .dispatch _ | .copy _ | .fill _ | .eventWait _ | .eventSignal _ | .mpsgraph _
  | .workspaceFill _ | .unknown _ => false

/-- The plan is empty, or one of its nodes is to be encoded. -/
def MgGraphExec.HasWork (exec : MgGraphExec) : Prop :=
  exec.nodes = [] ∨ ∃ node ∈ exec.nodes, node.isIdle = false

/-! ### Plans with work -/

theorem hasWork_congr {before after : MgGraphExec}
    (same : after.nodes.map MgExecNode.isIdle = before.nodes.map MgExecNode.isIdle) :
    after.HasWork ↔ before.HasWork := by
  have asList : ∀ exec : MgGraphExec, exec.HasWork ↔
      exec.nodes.map MgExecNode.isIdle = [] ∨ false ∈ exec.nodes.map MgExecNode.isIdle := by
    intro exec
    rw [MgGraphExec.HasWork, List.map_eq_nil_iff, List.mem_map]
  rw [asList, asList, same]

theorem SameWork.hasWork {before after : MgGraphExec} (same : SameWork before after) :
    after.HasWork ↔ before.HasWork := hasWork_congr (by rw [same.nodes])

theorem hasWork_stored {exec : MgGraphExec} {position : Nat} {old fresh : MgExecNode}
    (present : exec.nodes[position]? = some old) (same : fresh.isIdle = old.isIdle) :
    (exec.stored position fresh).HasWork ↔ exec.HasWork :=
  hasWork_congr (map_set_of_eq present same)

/-- Patches keep the kinds of the nodes. -/
theorem PatchStep.hasWork {exec : MgGraphExec} {env : Env} {patch : ExecPatch}
    {reached : Focus MgGraphExec} (step : PatchStep exec env patch reached) :
    reached.object.HasWork ↔ exec.HasWork := by
  cases step with
  | dispatchGrid target | dispatchBuffer target | dispatchScalar target =>
      exact hasWork_stored target.target.present rfl
  | copyNode target | fillNode target => exact hasWork_stored target.present rfl
  | @eventValue nodeId position node event value target given =>
      apply hasWork_stored target.present
      cases node with
      | eventWait | eventSignal => rfl
      | _ => cases given
  | optimizationFlags => exact Iff.rfl

theorem nodeCommands_eq_nil_iff {workspace : MgWorkspacePlan} {node : MgExecNode}
    (fits : NodeFits workspace node) (backend : Option MetalBuffer) :
    nodeCommands backend node = [] ↔ node.isIdle = true := by
  cases node with
  | unknown kind => exact fits.elim
  | _ => simp [nodeCommands, MgExecNode.isIdle, workspaceFillCommands]

theorem ExecWf.hasWork_iff {exec : MgGraphExec} (wf : ExecWf exec) :
    exec.HasWork ↔
      ¬ (usableIcb exec.icb = none ∧ exec.nodes ≠ [] ∧ launchCommands exec = []) := by
  rcases usable : usableIcb exec.icb with _ | icb
  · rw [launchCommands_direct usable, List.flatMap_eq_nil_iff, MgGraphExec.HasWork]
    simp only [ne_eq, true_and, not_and, not_forall]
    constructor
    · rintro (empty | ⟨node, listed, busy⟩) filled
      · exact absurd empty filled
      · refine ⟨node, listed, fun nothing => ?_⟩
        rw [(nodeCommands_eq_nil_iff (wf.nodes node listed) _).mp nothing] at busy
        cases busy
    · intro work
      by_cases empty : exec.nodes = []
      · exact .inl empty
      · obtain ⟨node, listed, encodes⟩ := work empty
        refine .inr ⟨node, listed, Bool.not_eq_true _ ▸ fun idle => encodes ?_⟩
        exact (nodeCommands_eq_nil_iff (wf.nodes node listed) _).mpr idle
  · obtain ⟨dispatch, only, _⟩ := wf.icb icb (usableIcb_recorded usable)
    simp only [reduceCtorEq, false_and, not_false_eq_true, iff_true]
    exact .inr ⟨_, only ▸ List.mem_singleton_self _, rfl⟩

/-! ### Where a launch comes from -/

/-- Where a launch that is alive after a call comes from. -/
inductive LaunchOrigin (world : World) (call : Call) (address : LaunchPtr)
    (after : MgLaunch) : Prop
  | kept {before : MgLaunch} (live : world.launches.get? address = some before)
      (impls : after.impls = before.impls) (exec : after.exec = before.exec)
      (pending : after.completed = false → before.completed = false)
  | made {pointer : ExecPtr} {stream : Option MgStream} {exec : MgGraphExec}
      {focus : Focus MgGraphExec} (named : call = .graphLaunch (some pointer) stream)
      (live : world.execs.get? pointer = some exec)
      (ran : mgGraphLaunch pointer stream ⟨exec, world.env⟩ = (.ok after, focus))
      (fresh : address = world.launches.size)

theorem CallStep.launchOrigin {world world' : World} {call : Call}
    {result : Except Fault Response} (step : CallStep world call result world')
    {address : LaunchPtr} {after : MgLaunch} (live : world'.launches.get? address = some after) :
    LaunchOrigin world call address after := by
  cases step with
  | launchDestroy present ran =>
      rw [Slots.get?_free] at live
      split at live
      · cases live
      · exact .kept live rfl rfl id
  | graphLaunch present ran =>
      rw [Slots.get?_push] at live
      split at live
      · rename_i fresh
        cases live
        exact .made rfl present ran fresh
      · exact .kept live rfl rfl id
  | @launchSynchronize pointer launch result focus present ran =>
      have sync := mgLaunchSynchronize_step ⟨launch, world.execOf launch⟩ world.env
      rw [ran] at sync
      rw [World.putLaunch, Slots.get?_put present] at live
      split at live
      · rename_i here
        cases live
        subst here
        cases sync with
        | idle | orphaned | again => exact .kept present rfl rfl id
        | first _ pending => exact .kept present rfl rfl fun _ => pending
      · exact .kept live rfl rfl id
  | refused | nothing | counted | graphCreate | graphNotCreated | graphDestroy | graphEdit
  | graphValidate | graphInstantiate | graphNotInstantiated | execDestroy | execPatch
  | graphNotLaunched => exact .kept live rfl rfl id

/-- Only its own destruction takes a plan away. -/
theorem CallStep.exec_kept {world world' : World} {call : Call} {result : Except Fault Response}
    (step : CallStep world call result world') {address : ExecPtr} {exec : MgGraphExec}
    (live : world.execs.get? address = some exec) (kept : call ≠ .execDestroy (some address)) :
    ∃ after, world'.execs.get? address = some after := by
  have stored : ∀ pointer before fresh, world.execs.get? pointer = some before →
      ∃ after, (world.execs.put pointer fresh).get? address = some after := by
    intro pointer before fresh present
    rw [Slots.get?_put present]
    split
    · exact ⟨_, rfl⟩
    · exact ⟨exec, live⟩
  cases step with
  | graphInstantiate =>
      rw [Slots.get?_push]
      split
      · exact ⟨_, rfl⟩
      · exact ⟨exec, live⟩
  | @execDestroy pointer =>
      rw [Slots.get?_free, if_neg fun here => kept (by rw [here])]
      exact ⟨exec, live⟩
  | execPatch present | graphLaunch present | graphNotLaunched present =>
      exact stored _ _ _ present
  | @launchSynchronize pointer launch result focus present ran =>
      have sync := mgLaunchSynchronize_step ⟨launch, world.execOf launch⟩ world.env
      rw [ran] at sync
      rcases putLaunch_execs focus.env pointer sync address with same | ⟨before, _, _, same⟩
      · exact ⟨exec, same.trans live⟩
      · exact ⟨_, same⟩
  | refused | nothing | counted | graphCreate | graphNotCreated | graphDestroy | graphEdit
  | graphValidate | graphNotInstantiated | launchDestroy => exact ⟨exec, live⟩

/-- Launches that nobody has waited for keep their plan, and launches of a plan hold
command buffers exactly when it has work. -/
structure Synchronizable (world : World) : Prop where
  alive : ∀ address launch, world.launches.get? address = some launch →
    launch.completed = false → ∀ pointer, launch.exec = some pointer →
    ∃ exec, world.execs.get? pointer = some exec
  work : ∀ address launch, world.launches.get? address = some launch →
    ∀ pointer exec, launch.exec = some pointer → world.execs.get? pointer = some exec →
    (launch.impls ≠ [] ↔ exec.HasWork)

/-- A plan that calls may destroy has no launch left to wait for. -/
theorem not_busy {world : World} {pointer : ExecPtr} (idle : world.busy pointer = false)
    {address : LaunchPtr} {launch : MgLaunch}
    (live : world.launches.get? address = some launch) (named : launch.exec = some pointer) :
    launch.completed = true := by
  have member : some launch ∈ world.launches.cells :=
    List.mem_of_getElem? (Slots.get?_eq_some.mp live)
  have settled := List.any_eq_false.mp idle _ member
  simpa [named] using settled

theorem ExecOrigin.hasWork {world : World} {call : Call} {address : ExecPtr}
    {after : MgGraphExec} (origin : ExecOrigin world call address after)
    (old : address < world.execs.size) :
    ∃ before, world.execs.get? address = some before ∧ (after.HasWork ↔ before.HasWork) := by
  cases origin with
  | kept live => exact ⟨after, live, Iff.rfl⟩
  | made _ _ fresh => exact absurd fresh old.ne
  | patched named present ran same =>
      refine ⟨_, present, ?_⟩
      rcases ExecPatch.run_cases ran with ⟨_, stepped⟩ | unchanged
      · exact same ▸ stepped.hasWork
      · rw [same, unchanged]
  | launched _ present ran same => exact ⟨_, present, same ▸ (mgGraphLaunch_sameWork ran).hasWork⟩
  | finished _ _ _ present same => exact ⟨_, present, same ▸ (finishLaunch_sameWork _).hasWork⟩

theorem Synchronizable.step {system : System} {call : Call} {result : Except Fault Response}
    {world' : World} (reachable : Reachable system) (held : Synchronizable system.world)
    (permitted : system.permits call = true)
    (step : CallStep system.world call result world') : Synchronizable world' where
  alive := by
    intro address launch live pending pointer named
    cases step.launchOrigin live with
    | kept present _ same idle =>
        rw [same] at named
        obtain ⟨exec, alive⟩ := held.alive address _ present (idle pending) pointer named
        apply step.exec_kept alive
        rintro rfl
        simp only [System.permits, Option.elim_some, Bool.and_eq_true,
          Bool.not_eq_true'] at permitted
        have done := not_busy permitted.2 present named
        rw [idle pending] at done
        cases done
    | made called present ran _ =>
        have owner := (mgGraphLaunch_ok ran).2.2
        rw [named] at owner
        cases owner
        exact step.exec_kept present (by rw [called]; simp)
  work := by
    intro address launch live pointer after named alive
    cases step.launchOrigin live with
    | kept present impls same _ =>
        rw [same] at named
        obtain ⟨owner, owned, below, _⟩ := reachable.accounts.owned address _ present
        rw [named] at owned
        cases owned
        obtain ⟨before, earlier, equal⟩ := (step.execOrigin alive).hasWork below
        rw [impls, equal]
        exact held.work address _ present pointer before named earlier
    | made called present ran _ =>
        have owner := (mgGraphLaunch_ok ran).2.2
        rw [named] at owner
        cases owner
        obtain ⟨before, earlier, equal⟩ :=
          (step.execOrigin alive).hasWork (Slots.lt_size_of_get? present)
        rw [present] at earlier
        cases earlier
        obtain ⟨events, _, submitted⟩ := mgGraphLaunch_submits ran
        rw [equal, (reachable.execWf present).hasWork_iff, ← submitted.idle]

theorem Reachable.synchronizable {system : System} (reachable : Reachable system) :
    Synchronizable system.world := by
  refine reachable.invariant (fun _ _ _ => ⟨?_, ?_⟩) fun _ _ _ _ earlier held permitted step =>
    held.step earlier permitted step
  · intro address launch live
    simp [System.initial, World.initial] at live
  · intro address launch live
    simp [System.initial, World.initial] at live

/-! ### The first synchronization -/

section Synchronize

variable {system : System} {handle : LaunchPtr} {launch : MgLaunch} {address : ExecPtr}

theorem synchronize_recorded (live : system.world.launches.get? handle = some launch)
    (named : launch.exec = some address) :
    ∃ result : Except Fault Unit,
      (system.record (.launchSynchronize (some handle))).result = result.map (fun _ => .done) ∧
      SyncOutcome system.world handle launch address result
        (system.step (.launchSynchronize (some handle))).world := by
  have step := system.step_recorded (.launchSynchronize (some handle))
  change CallStep system.world (.launchSynchronize (some handle)) _ _ at step
  generalize (system.record (.launchSynchronize (some handle))).result = answer at step ⊢
  generalize (system.step (.launchSynchronize (some handle))).world = after at step ⊢
  cases step with
  | refused reason missed => simp [missed handle rfl] at live
  | nothing missed => simp [missed handle rfl] at live
  | launchSynchronize present ran =>
      rw [live] at present
      cases present
      exact ⟨_, rfl, mgLaunchSynchronize_outcome live named ran⟩

end Synchronize

end MetalGraph
