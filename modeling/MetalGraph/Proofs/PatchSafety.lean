import MetalGraph.Proofs.Synchronization

set_option autoImplicit false

/- Patches and the command buffers that launches of the plan have committed. -/
namespace MetalGraph

open Eff

/-! ### Commits and waits in a history -/

def Entry.Launches (entry : Entry) (exec : ExecPtr) : Prop :=
  ∃ stream, entry.call = .graphLaunch (some exec) stream

/-- The command buffer is committed and waited for afterwards. -/
def CommittedThenWaited (commandBuffer : Nat) (events : List MetalEvent) : Prop :=
  ∃ failed, [.commit commandBuffer, .wait commandBuffer failed].Sublist events

/-- All that the call has committed is waited for in the call or in a later one. -/
def Settled (entry : Entry) (later : List Entry) : Prop :=
  ∀ commandBuffer ∈ committed entry.events,
    CommittedThenWaited commandBuffer (entry.events ++ later.flatMap Entry.events)

/-- Refusals and failed waits strike only while all that was committed has been waited for. -/
def Quiet (events : List MetalEvent) : Prop :=
  ∀ before event after, events = before ++ event :: after → event.isSetback = true →
    ∀ commandBuffer ∈ committed before, CommittedThenWaited commandBuffer (before ++ [event])

theorem mem_committed_iff {events : List MetalEvent} {commandBuffer : Nat} :
    commandBuffer ∈ committed events ↔ .commit commandBuffer ∈ events := by
  rw [committed, List.mem_filterMap]
  constructor
  · rintro ⟨event, member, same⟩
    cases event with
    | commit => cases same; exact member
    | _ => cases same
  · exact fun member => ⟨_, member, rfl⟩

theorem CommittedThenWaited.mono {commandBuffer : Nat} {events more : List MetalEvent}
    (waited : CommittedThenWaited commandBuffer events) (longer : events.Sublist more) :
    CommittedThenWaited commandBuffer more := by
  obtain ⟨failed, found⟩ := waited
  exact ⟨failed, found.trans longer⟩

theorem Settled.append {entry : Entry} {later : List Entry} (settled : Settled entry later)
    (more : List Entry) : Settled entry (later ++ more) := by
  intro commandBuffer member
  apply (settled commandBuffer member).mono
  rw [List.flatMap_append, ← List.append_assoc]
  exact List.sublist_append_left _ _

/-- Waiting for the command buffers of a launch settles it. -/
theorem settled_of_waits {entry last : Entry} {env : Env} (later : List Entry)
    (waited : last.events = waits env (committed entry.events)) :
    Settled entry (later ++ [last]) := by
  intro commandBuffer member
  have commits : [.commit commandBuffer].Sublist entry.events :=
    List.singleton_sublist.mpr (mem_committed_iff.mp member)
  have waits : [.wait commandBuffer (env.commandBufferFails commandBuffer)].Sublist
      last.events := by
    rw [waited, List.singleton_sublist]
    exact List.mem_map_of_mem member
  refine ⟨env.commandBufferFails commandBuffer, ?_⟩
  rw [List.flatMap_append, List.flatMap_singleton, ← List.append_assoc]
  exact (commits.trans (List.sublist_append_left _ _)).append waits

theorem Quiet.settled {entry : Entry} (quiet : Quiet entry.events)
    (ends : entry.events = [] ∨ EndsInSetback entry.events) : Settled entry [] := by
  rcases ends with nothing | ⟨before, event, same, setback⟩
  · intro commandBuffer member
    rw [nothing] at member
    cases member
  · intro commandBuffer member
    rw [List.flatMap_nil, List.append_nil, same]
    rw [same, mem_committed_iff, List.mem_append, List.mem_singleton] at member
    rcases member with early | rfl
    · exact quiet before event [] same setback commandBuffer (mem_committed_iff.mpr early)
    · cases setback

theorem quiet_of_calm {events : List MetalEvent}
    (calm : ∀ event ∈ events, event.isSetback = false) : Quiet events := by
  rintro before event after rfl setback
  rw [calm event (by simp)] at setback
  cases setback

/-! ### The launches of a history -/

/-- A split of a history that one more call has extended. -/
theorem split_append_singleton {α : Type} {log before later : List α} {last entry : α}
    (split : log ++ [last] = before ++ entry :: later) :
    (last = entry ∧ log = before ∧ later = []) ∨
      ∃ rest, later = rest ++ [last] ∧ log = before ++ entry :: rest := by
  rcases later.eq_nil_or_concat with rfl | ⟨rest, other, rfl⟩
  · obtain ⟨front, back⟩ := List.append_inj' split rfl
    cases back
    exact .inl ⟨rfl, front, rfl⟩
  · rw [List.concat_eq_append, ← List.cons_append, ← List.append_assoc] at split
    obtain ⟨front, back⟩ := List.append_inj' split rfl
    cases back
    exact .inr ⟨rest, List.concat_eq_append, front⟩

/-- A recorded launch has returned a handle or stopped at a setback. -/
def Entry.Ends (entry : Entry) (exec : ExecPtr) : Prop :=
  (∃ launch, entry.opens = some (exec, launch)) ∨
    entry.events = [] ∨ EndsInSetback entry.events

theorem Reachable.ends {system : System} {address : ExecPtr} (reachable : Reachable system) :
    ∀ entry ∈ system.log, entry.Launches address → entry.Ends address := by
  induction reachable with
  | start => simp [System.initial]
  | @step system call earlier permitted ih =>
      rw [System.step_log]
      intro entry member launches
      rcases List.mem_append.mp member with old | new
      · exact ih entry old launches
      · cases List.mem_singleton.mp new
        obtain ⟨stream, rfl : call = _⟩ := launches
        obtain ⟨exec, live⟩ := Option.isSome_iff_exists.mp (show
          (system.world.execs.get? address).isSome = true from permitted)
        have outcome := launch_outcome earlier live stream
        rcases answered : (system.record (.graphLaunch (some address) stream)).result with
          reason | response
        · rw [answered] at outcome
          cases outcome with
          | halted only ends => exact .inr ends
        · rw [answered] at outcome
          cases outcome with
          | @submitted launch impls events submits =>
              have call : (system.record (.graphLaunch (some address) stream)).call =
                .graphLaunch (some address) stream := rfl
              exact .inl ⟨launch, by rw [Entry.opens, call, answered]⟩

/-- The returned launches of a history: live ones hold what they have committed, and
those that are no longer outstanding have been waited for. -/
structure Tracked (world : World) (pairs : List (ExecPtr × LaunchPtr)) (entry : Entry)
    (later : List Entry) (exec : ExecPtr) (launch : LaunchPtr) : Prop where
  known : launch < world.launches.size
  holds : ∀ object, world.launches.get? launch = some object →
    object.impls = committed entry.events
  waited : (exec, launch) ∈ pairs ∨ Settled entry later

def Tracks (system : System) : Prop :=
  ∀ before entry later, system.log = before ++ entry :: later →
    ∀ exec launch, entry.opens = some (exec, launch) →
    Tracked system.world (outstanding system.log) entry later exec launch

/-- A call that returns a launch is a launch that has run to its end. -/
theorem record_opens {system : System} {call : Call} {exec : ExecPtr} {launch : LaunchPtr}
    (opens : (system.record call).opens = some (exec, launch)) :
    ∃ stream, call = .graphLaunch (some exec) stream ∧
      (system.record call).result = .ok (.launch launch) := by
  rcases answered : (system.record call).result with reason | response
  · cases call <;> simp [Entry.opens, answered] at opens
  · have same : (system.record call).call = call := rfl
    cases call with
    | graphLaunch plan stream =>
        rcases plan with _ | plan
        · simp [Entry.opens, same, answered] at opens
        · cases response with
          | launch handle =>
              simp only [Entry.opens, same, answered] at opens
              cases opens
              exact ⟨stream, rfl, rfl⟩
          | _ => simp [Entry.opens, same, answered] at opens
    | _ => simp [Entry.opens, same] at opens

theorem CallStep.launches_size {world world' : World} {call : Call}
    {result : Except Fault Response} (step : CallStep world call result world') :
    world.launches.size ≤ world'.launches.size := by
  cases step <;> simp

section Step

variable {system : System} {call : Call}

theorem Tracked.opened {exec : ExecPtr} {launch : LaunchPtr}
    (opens : (system.record call).opens = some (exec, launch)) :
    Tracked (system.step call).world (outstanding (system.step call).log) (system.record call) []
      exec launch := by
  obtain ⟨stream, rfl, answered⟩ := record_opens opens
  obtain ⟨plan, live⟩ := launch_live answered
  obtain ⟨built, stored, submitted⟩ := launch_submits live answered
  refine ⟨Slots.lt_size_of_get? stored, fun object present => ?_, .inl ?_⟩
  · rw [stored] at present
    cases present
    exact submitted.listed
  · rw [System.step_log, outstanding_append_singleton, openStep_of_opens opens rfl]
    exact List.mem_append_right _ (List.mem_singleton_self _)

/-- A launch that a call takes off the list is one it has waited for. -/
theorem completes_waited {launch : LaunchPtr} (reachable : Reachable system)
    (permitted : system.permits call = true)
    (completes : (system.record call).completes = some launch) :
    ∃ object, system.world.launches.get? launch = some object ∧
      (system.record call).events = waits system.world.env object.impls := by
  have same : (system.record call).call = call := rfl
  cases call with
  | launchSynchronize handle =>
      rw [Entry.completes, same] at completes
      dsimp only at completes
      split at completes
      · rename_i done
        subst completes
        obtain ⟨object, live⟩ := Option.isSome_iff_exists.mp (show
          (system.world.launches.get? launch).isSome = true from permitted)
        refine ⟨object, live, ?_⟩
        obtain ⟨address, named, _⟩ := reachable.accounts.owned launch object live
        obtain ⟨result, answered, outcome⟩ := synchronize_recorded live named
        rw [answered, completed_map] at done
        have env : (system.step (.launchSynchronize (some launch))).world.env =
            system.world.env.waited object.impls := by
          cases outcome with
          | unfinished stopped => exact absurd done stopped
          | again _ _ waited => exact waited
          | first _ _ _ waited => exact waited
        change List.drop _ (system.step (.launchSynchronize (some launch))).world.env.trace = _
        rw [env]
        exact List.drop_left
      · cases completes
  | _ => cases completes

theorem Tracked.step {entry : Entry} {later : List Entry} {exec : ExecPtr} {launch : LaunchPtr}
    (reachable : Reachable system) (permitted : system.permits call = true)
    (held : Tracked system.world (outstanding system.log) entry later exec launch) :
    Tracked (system.step call).world (outstanding (system.step call).log) entry
      (later ++ [system.record call]) exec launch := by
  have step := system.step_recorded call
  refine ⟨held.known.trans_le step.launches_size, fun object present => ?_, ?_⟩
  · cases step.launchOrigin present with
    | kept before impls => rw [impls, held.holds _ before]
    | made _ _ _ fresh => exact absurd held.known (fresh ▸ lt_irrefl _)
  · rcases held.waited with listed | settled
    · by_cases completes : (system.record call).completes = some launch
      · obtain ⟨object, live, events⟩ := completes_waited reachable permitted completes
        rw [held.holds object live] at events
        exact .inr (settled_of_waits later events)
      · refine .inl ?_
        rw [System.step_log, outstanding_append_singleton, openStep, List.mem_filter]
        exact ⟨List.mem_append_left _ listed, by simpa using completes⟩
    · exact .inr (settled.append _)

end Step

theorem Reachable.tracks {system : System} (reachable : Reachable system) : Tracks system := by
  induction reachable with
  | start =>
      intro before entry later split
      simp [System.initial] at split
  | @step system call earlier permitted ih =>
      intro before entry later split exec launch opens
      rw [System.step_log] at split
      rcases split_append_singleton split with ⟨rfl, rfl, rfl⟩ | ⟨rest, rfl, front⟩
      · exact Tracked.opened opens
      · exact (ih before entry rest front exec launch opens).step earlier permitted

/-! ### Patches -/

/-- While every setback of a launch of the plan strikes it with nothing under way, patches
find all that the plan has committed waited for. -/
theorem patches_after_waits {system : System} {address : ExecPtr} {exec : MgGraphExec}
    {reached : Focus MgGraphExec} (reachable : Reachable system)
    (quiet : ∀ entry ∈ system.log, entry.Launches address → Quiet entry.events)
    (few : FewLaunches system.log address)
    (live : system.world.execs.get? address = some exec)
    (ready : mgPatchReady ⟨exec, system.world.env⟩ = (.ok (), reached)) :
    ∀ before entry later, system.log = before ++ entry :: later → entry.Launches address →
      Settled entry later := by
  intro before entry later split launches
  have member : entry ∈ system.log := split ▸ by simp
  rcases reachable.ends entry member launches with ⟨launch, opens⟩ | ends
  · have tracked := reachable.tracks before entry later split address launch opens
    apply tracked.waited.resolve_left
    intro listed
    have idle := (in_flight_count_eq reachable few live).2.mp ⟨reached, ready⟩
    rw [inFlight, List.countP_eq_zero] at idle
    exact idle _ listed (beq_self_eq_true address)
  · exact ((quiet entry member launches).settled ends).append later

def synchronizedCalls : List Call := launchedCalls ++ [.launchSynchronize (some 0)]

theorem patches_after_synchronization :
    Settled ((grantAll.run mixedCalls).record launchMixed)
      [(grantAll.run launchedCalls).record (.launchSynchronize (some 0))] := by
  have reachable : Reachable (grantAll.run synchronizedCalls) :=
    (Reachable.start _ _ _).run (by decide +kernel)
  have calm : ∀ entry ∈ (grantAll.run synchronizedCalls).log, ∀ event ∈ entry.events,
      event.isSetback = false := by decide +kernel
  have split : (grantAll.run synchronizedCalls).log = (grantAll.run mixedCalls).log ++
      (grantAll.run mixedCalls).record launchMixed ::
        [(grantAll.run launchedCalls).record (.launchSynchronize (some 0))] := by
    rw [synchronizedCalls, System.run_concat, System.step_log, launchedCalls, System.run_concat,
      System.step_log, List.append_assoc]
    rfl
  exact patches_after_waits reachable (fun entry member _ => quiet_of_calm (calm entry member))
    (fewLaunches_of_short (by decide +kernel) 0)
    (by decide +kernel : (grantAll.run synchronizedCalls).world.execs.get? 0 = some mixedExec)
    (mgPatchReady_ok.mpr ⟨rfl, rfl⟩) _ _ _ split ⟨_, rfl⟩

/-- Every request is granted but one: a command buffer after the MPSGraph node. -/
def refuseOnce : System := System.initial (· != 39) (fun _ => false) true

/-- A launch that fails after its MPSGraph node leaves that node running under patches. -/
theorem patched_while_running :
    ¬ ∀ system address exec reached, Reachable system →
      system.world.execs.get? address = some exec →
      mgPatchReady ⟨exec, system.world.env⟩ = (.ok (), reached) →
      ∀ before entry later, system.log = before ++ entry :: later → entry.Launches address →
        Settled entry later := by
  intro settled
  have reachable : Reachable (refuseOnce.run launchedCalls) :=
    (Reachable.start _ _ _).run (by decide +kernel)
  have split : (refuseOnce.run launchedCalls).log =
      (refuseOnce.run mixedCalls).log ++ [(refuseOnce.run mixedCalls).record launchMixed] := rfl
  have waited := settled _ 0 _ _ reachable
    (by decide +kernel : (refuseOnce.run launchedCalls).world.execs.get? 0 = some mixedExec)
    (mgPatchReady_ok.mpr ⟨rfl, rfl⟩) _ _ _ split ⟨_, rfl⟩ 1 (by decide +kernel)
  obtain ⟨failed, found⟩ := waited
  have events : ((refuseOnce.run mixedCalls).record launchMixed).events.contains
      (.wait 1 failed) = false := by
    cases failed <;> decide +kernel
  rw [List.flatMap_nil, List.append_nil] at found
  rw [List.contains_iff_mem.mpr (found.subset (by simp))] at events
  cases events

end MetalGraph
