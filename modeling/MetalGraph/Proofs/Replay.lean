import MetalGraph.Proofs.GraphMeaning
import MetalGraph.Proofs.RecordedPlans
import MetalGraph.Proofs.WrittenBytes

set_option autoImplicit false

/- Every state of the library is the chronicle of its log, and a launch submits the plan
that the chronicle has. -/
namespace MetalGraph

/-- The library as its caller knows it from the calls. -/
def World.chronicle (world : World) : Chronicle where
  graphs := world.graphs.map MgGraph.record
  execs := world.execs.map MgGraphExec.record
  states := world.execs.map MgGraphExec.state
  launches := world.launches.map MgLaunch.record

/-! ### One call -/

section Step

variable {system : System} {call : Call} {result : Except Fault Response} {world' : World}
  {events : List MetalEvent}

theorem perform_missed (permitted : system.permits call = true)
    (missed : call.misses system.world) (chronicle : Chronicle) :
    chronicle.perform call = chronicle := by
  cases call with
  | counted | graphCreate => exact missed.elim
  | graphDestroy graph | graphValidate graph | graphInstantiate graph
  | graphLaunch graph | launchSynchronize graph | launchDestroy graph =>
      cases handleAlive_misses permitted missed
      rfl
  | graphEdit graph | execDestroy graph | execPatch graph =>
      cases handleAlive_misses (Bool.and_eq_true_iff.mp permitted).1 missed
      rfl

theorem advance_eq_of_perform {chronicle : Chronicle} {entry : Entry}
    (same : chronicle.perform entry.call = chronicle) : chronicle.advance entry = chronicle := by
  unfold Chronicle.advance
  split
  · exact same
  · rfl

theorem advance_ok {chronicle : Chronicle} {response : Response}
    (other : ∀ launch, call ≠ .launchSynchronize launch) :
    chronicle.advance ⟨call, .ok response, events⟩ = chronicle.perform call := by
  unfold Chronicle.advance Entry.tookEffect
  split <;> simp_all [Except.isOk, Except.toBool]

theorem advance_error {chronicle : Chronicle} {reason : Fault}
    (other : ∀ launch, call ≠ .launchSynchronize launch) :
    chronicle.advance ⟨call, .error reason, events⟩ = chronicle := by
  unfold Chronicle.advance Entry.tookEffect
  split <;> simp_all [Except.isOk, Except.toBool]

theorem SameWork.record {before after : MgGraphExec} (same : SameWork before after) :
    after.record = before.record := by
  unfold MgGraphExec.record
  rw [same.nodes, same.icb.enabledFlags]

theorem graphEdit_chronicle {world : World} {address : GraphPtr} {graph : MgGraph}
    {edit : GraphEdit} {focus : Focus MgGraph} (live : world.graphs.get? address = some graph)
    (ran : edit.run ⟨graph, world.env⟩ = (result, focus)) :
    World.chronicle { world with
        env := focus.env, graphs := world.graphs.put address focus.object } =
      world.chronicle.advance ⟨.graphEdit (some address) edit, result, events⟩ := by
  have record := GraphEdit.run_record ran
  rcases result with reason | response
  · rw [advance_error (by simp)]
    exact congrArg (Chronicle.mk · _ _ _) (Slots.map_put_same MgGraph.record live record)
  · rw [advance_ok (by simp)]
    exact congrArg (Chronicle.mk · _ _ _) (Slots.map_put_adjust MgGraph.record live _ record)

theorem execPatch_chronicle {world : World} {address : ExecPtr} {exec : MgGraphExec}
    {patch : ExecPatch} {answer : Except Fault Unit} {focus : Focus MgGraphExec}
    (distinct : exec.ItemsDistinct) (live : world.execs.get? address = some exec)
    (ran : patch.run ⟨exec, world.env⟩ = (answer, focus)) :
    World.chronicle { world with
        env := focus.env, execs := world.execs.put address focus.object } =
      world.chronicle.advance ⟨.execPatch (some address) patch, answer.map fun _ => .done,
        events⟩ := by
  rcases answer with reason | _
  · have same := patch.run_failsClean _ _ _ ran
    subst same
    have kept : world.execs.put address exec = world.execs := Slots.put_same live
    rw [kept]
    exact (advance_error (by simp)).symm
  · have record := (ExecPatch.run_ok ran).record distinct
    have state := (ExecPatch.run_ok ran).state
    have advanced : world.chronicle.advance ⟨.execPatch (some address) patch, .ok .done, events⟩ =
        world.chronicle.perform (.execPatch (some address) patch) := advance_ok (by simp)
    refine Eq.trans ?_ advanced.symm
    exact congrArg₂ (Chronicle.mk _ · · _)
      (Slots.map_put_adjust MgGraphExec.record live (fun plan => plan.patched patch) record)
      (Slots.map_put_same MgGraphExec.state live state)

theorem mgGraphLaunch_record {address : ExecPtr} {stream : Option MgStream} {exec : MgGraphExec}
    {env : Env} {launch : MgLaunch} {focus : Focus MgGraphExec} (wf : ExecWf exec)
    (supported : ∀ node ∈ exec.nodes, node.Supported env)
    (ran : mgGraphLaunch address stream ⟨exec, env⟩ = (.ok launch, focus)) :
    launch.record = ⟨some address, false⟩ := by
  unfold MgLaunch.record
  rw [(mgGraphLaunch_ok ran).2.2, mgGraphLaunch_pending wf supported ran]

/-- Only the first synchronization of a launch tells its plan. -/
theorem SyncOutcome.states {world after : World} {address : LaunchPtr} {launch : MgLaunch}
    {pointer : ExecPtr} {answer : Except Fault Unit}
    (live : world.launches.get? address = some launch) (named : launch.exec = some pointer)
    (execsSize : after.execs.size = world.execs.size) (done : Completed answer)
    (outcome : SyncOutcome world address launch pointer answer after) :
    after.execs.map MgGraphExec.state = world.chronicle.finishLaunch address := by
  have recorded : world.chronicle.launches.get? address = some launch.record :=
    (Slots.get?_map _ _ _).trans (congrArg _ live)
  unfold Chronicle.finishLaunch
  rw [recorded, Option.bind_some]
  cases outcome with
  | unfinished stopped => exact (stopped done).elim
  | again done completed waited execs launches =>
      have awaits : launch.record.awaits = none := if_pos completed
      rw [awaits]
      apply Slots.ext_get? (by simp [World.chronicle, execsSize])
      intro other
      rw [Slots.get?_map, execs]
      exact (Slots.get?_map _ _ _).symm
  | first filled answer pending waited alive execs launches =>
      have awaits : launch.record.awaits = some pointer := by
        simp [LaunchRecord.awaits, MgLaunch.record, pending, named]
      rw [awaits]
      apply Slots.ext_get? (by simp [World.chronicle, execsSize])
      intro other
      simp only [World.chronicle, Option.elim_some, Slots.get?_adjust, Slots.get?_map, execs]
      split
      · rename_i here
        simp [here, alive, finishLaunch_state]
      · rfl

theorem launchSynchronize_chronicle {world after : World} {address : LaunchPtr}
    {launch : MgLaunch} {pointer : ExecPtr} {answer : Except Fault Unit}
    (live : world.launches.get? address = some launch) (named : launch.exec = some pointer)
    (graphs : after.graphs = world.graphs) (execsSize : after.execs.size = world.execs.size)
    (launchesSize : after.launches.size = world.launches.size)
    (outcome : SyncOutcome world address launch pointer answer after) :
    after.chronicle = world.chronicle.advance ⟨.launchSynchronize (some address),
      answer.map fun _ => .done, events⟩ := by
  have records : after.execs.map MgGraphExec.record = world.execs.map MgGraphExec.record := by
    apply Slots.ext_get? (by simp [execsSize])
    intro exec
    rw [Slots.get?_map, Slots.get?_map]
    cases outcome with
    | unfinished stopped why execs launches => rw [execs]
    | again done completed waited execs launches => rw [execs]
    | first filled answer pending waited alive execs launches =>
        rw [execs]
        split
        · rename_i here
          rw [here, alive, Option.map_some, Option.map_some, (finishLaunch_sameWork _).record]
        · rfl
  have finished : ∀ other, after.launches.get? other = (if other = address then
        some { launch with completed := true } else world.launches.get? other) →
      (after.launches.get? other).map MgLaunch.record =
        ((world.launches.map MgLaunch.record).adjust address fun launch =>
          { launch with completed := true }).get? other := by
    intro other same
    rw [same, Slots.get?_adjust]
    by_cases here : other = address
    · subst here
      simp [Slots.get?_map, live, MgLaunch.record]
    · simp [Slots.get?_map, here]
  have states := outcome.states live named execsSize
  unfold Chronicle.advance Entry.tookEffect
  simp only [completed_map, decide_eq_true_eq]
  cases outcome with
  | unfinished stopped why execs launches =>
      have same : after.execs = world.execs := Slots.ext_get? execsSize execs
      have open' : after.launches = world.launches := Slots.ext_get? launchesSize launches
      rw [if_neg stopped, World.chronicle, graphs, same, open']
      rfl
  | again done completed waited execs launches =>
      rw [if_pos done, World.chronicle, graphs, records, states done]
      refine congrArg (Chronicle.mk _ _ _) ?_
      apply Slots.ext_get? (by simp [World.chronicle, launchesSize])
      intro other
      rw [Slots.get?_map]
      apply finished
      rw [launches]
      split
      · rename_i here
        rw [here, live, ← completed]
      · rfl
  | first filled answer pending waited alive execs launches =>
      have done := completed_answer (launch.impls.any world.env.commandBufferFails)
      rw [← answer] at done
      rw [if_pos done, World.chronicle, graphs, records, states done]
      refine congrArg (Chronicle.mk _ _ _) ?_
      apply Slots.ext_get? (by simp [World.chronicle, launchesSize])
      intro other
      rw [Slots.get?_map]
      exact finished other (launches other)

/-- One call of the library is one entry of its chronicle. -/
theorem CallStep.chronicle (reachable : Reachable system)
    (permitted : system.permits call = true) (step : CallStep system.world call result world') :
    world'.chronicle = system.world.chronicle.advance ⟨call, result, events⟩ := by
  cases step with
  | refused reason missed =>
      exact (advance_eq_of_perform (perform_missed permitted missed _)).symm
  | nothing missed => exact (advance_eq_of_perform (perform_missed permitted missed _)).symm
  | counted | graphValidate => exact (advance_eq_of_perform rfl).symm
  | graphCreate ran =>
      rw [advance_ok (by simp), mgGraphCreate_ok ran]
      exact congrArg (Chronicle.mk · _ _ _) (Slots.map_push _ _ _)
  | graphNotCreated | graphNotInstantiated => exact (advance_error (by simp)).symm
  | graphDestroy live ran =>
      rw [advance_ok (by simp)]
      exact congrArg (Chronicle.mk · _ _ _) (Slots.map_free _ _ _)
  | graphEdit live ran => exact graphEdit_chronicle live ran
  | graphInstantiate live ran =>
      rw [advance_ok (by simp)]
      have known : (system.world.graphs.map MgGraph.record).get? _ = some _ :=
        (Slots.get?_map _ _ _).trans (congrArg _ live)
      have record := mgGraphInstantiate_record (reachable.graphsWf _ _ live) ran
      have state := mgGraphInstantiate_state ran
      simp only [Chronicle.perform, World.chronicle, known, Slots.map_push, record, state]
      rfl
  | execDestroy live ran =>
      rw [advance_ok (by simp)]
      exact congrArg₂ (Chronicle.mk _ · · _) (Slots.map_free _ _ _) (Slots.map_free _ _ _)
  | execPatch live ran => exact execPatch_chronicle (reachable.itemsDistinct live) live ran
  | graphLaunch live ran =>
      rw [advance_ok (by simp)]
      have kept := Slots.map_put_same MgGraphExec.record live (mgGraphLaunch_sameWork ran).record
      have launches := mgGraphLaunch_launches.ok (Launches.refl _) ran
      have counted := Slots.map_put_adjust MgGraphExec.state live PlanState.launched
        (Launches.state launches)
      have made := mgGraphLaunch_record (reachable.execWf live) (reachable.supports _ _ live) ran
      simp only [World.chronicle, kept, counted, Slots.map_push, made]
      rfl
  | graphNotLaunched live ran =>
      rw [advance_error (by simp)]
      have launches := mgGraphLaunch_launches.error (Launches.refl _) ran
      have uncounted := Launches.state launches
      exact congrArg₂ (Chronicle.mk _ · · _)
        (Slots.map_put_same MgGraphExec.record live (mgGraphLaunch_sameWork ran).record)
        (Slots.map_put_same MgGraphExec.state live (uncounted.trans (by simp)))
  | @launchSynchronize address launch answer focus live ran =>
      obtain ⟨pointer, named, _⟩ := reachable.accounts.owned address launch live
      exact launchSynchronize_chronicle live named rfl (by simp) (by simp)
        (mgLaunchSynchronize_outcome live named ran)
  | launchDestroy live ran =>
      rw [advance_ok (by simp)]
      exact congrArg (Chronicle.mk _ _ _) (Slots.map_free _ _ _)

end Step

/-! ### Runs -/

theorem replay_append (log : List Entry) (entry : Entry) :
    replay (log ++ [entry]) = (replay log).advance entry := by
  simp [replay]

theorem Reachable.chronicle {system : System} (reachable : Reachable system) :
    system.world.chronicle = replay system.log := by
  apply reachable.system_invariant
  · intro oracle commandBufferFails mpsgraphEnabled
    rfl
  · intro system call earlier holds permitted step
    change _ = replay (system.log ++ [_])
    rw [replay_append, ← holds]
    exact step.chronicle earlier permitted

theorem replay_exec {system : System} (reachable : Reachable system) {address : ExecPtr}
    {exec : MgGraphExec} (live : system.world.execs.get? address = some exec) :
    (replay system.log).execs.get? address = some exec.record := by
  rw [← reachable.chronicle]
  exact (Slots.get?_map _ _ _).trans (congrArg _ live)

/-- The log tells the contents of every graph and plan, the device and the open launches of
every plan, and how far every launch is: they are what the calls that took effect describe.
What was given back is not to be seen any more. -/
theorem log_tells_objects {system : System} (reachable : Reachable system) :
    system.world.graphs.map MgGraph.record = (replay system.log).graphs ∧
      system.world.execs.map MgGraphExec.record = (replay system.log).execs ∧
      system.world.execs.map MgGraphExec.state = (replay system.log).states ∧
      system.world.launches.map MgLaunch.record = (replay system.log).launches := by
  rw [← reachable.chronicle]
  exact ⟨rfl, rfl, rfl, rfl⟩

theorem log_tells_objects_of_destroyed :
    (grantAll.run destroyedCalls).world.graphs.map MgGraph.record =
        (replay (grantAll.run destroyedCalls).log).graphs ∧
      (grantAll.run destroyedCalls).world.execs.map MgGraphExec.record =
        (replay (grantAll.run destroyedCalls).log).execs ∧
      (grantAll.run destroyedCalls).world.execs.map MgGraphExec.state =
        (replay (grantAll.run destroyedCalls).log).states ∧
      (grantAll.run destroyedCalls).world.launches.map MgLaunch.record =
        (replay (grantAll.run destroyedCalls).log).launches :=
  log_tells_objects destroyed_reachable

/-- A launch does what the log says its plan is, and nothing else outside the workspace. -/
theorem launch_does_its_log {programs : Programs} {system : System}
    (reachable : Reachable system) {address : ExecPtr} {plan : PlanRecord}
    (planned : (replay system.log).execs.get? address = some plan)
    {stream : Option MgStream} {launch : LaunchPtr}
    (success : (system.record (.graphLaunch (some address) stream)).result = .ok (.launch launch))
    {exec : MgGraphExec} (live : system.world.execs.get? address = some exec)
    (avoids : ∀ node ∈ exec.nodes, node.AvoidsWorkspace exec.workspace.backendImpl)
    (honest : ∀ item ∈ plan.items, programs.Honest item.contents) (memory : Memory) :
    AgreeOff exec.workspace.backendImpl
      (programs.run (committedCommands
        (system.record (.graphLaunch (some address) stream)).events) memory)
      (programs.perform (plan.items.map PlanItem.contents) memory) := by
  rw [replay_exec reachable live] at planned
  cases planned
  have contents : exec.record.items.map PlanItem.contents =
      exec.nodes.map MgExecNode.contents := by
    simp [MgGraphExec.record, Function.comp_def]
  rw [contents]
  apply launch_does_nodes reachable live success avoids
  intro node member
  have listed := honest node.item (List.mem_map_of_mem member)
  rwa [item_contents] at listed

/-- A plan that was patched, and whose graph is gone. -/
theorem launch_does_its_log_of_relay :
    addOnePrograms.run (committedCommands (relayRun.record launchRelay).events) blankMemory =
      addOnePrograms.perform (relayExec.record.items.map PlanItem.contents) blankMemory := by
  funext location
  have planned := replay_exec relayRun_reachable relay_planned
  have honest : ∀ item ∈ relayExec.record.items, addOnePrograms.Honest item.contents := by
    intro item member
    obtain ⟨node, listed, rfl⟩ := List.mem_map.mp member
    rw [item_contents]
    exact relay_honest node listed
  exact launch_does_its_log relayRun_reachable planned relay_launched relay_planned relay_avoids
    honest blankMemory location (relay_outside location)

end MetalGraph
