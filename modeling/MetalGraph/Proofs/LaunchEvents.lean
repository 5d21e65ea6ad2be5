import MetalGraph.Proofs.LaunchFailure

set_option autoImplicit false

/- What any launch of a reachable plan may add to the log, whether it succeeds or not. -/
namespace MetalGraph

open Eff

/-! ### Supported nodes -/

theorem loadNode_supported {node loaded : MgExecNode} {env reached : Env}
    (success : loadNode node env = (.ok loaded, reached)) : loaded.Supported env := by
  rintro mpsgraph rfl
  have full := loadNode_ok success
  cases node with
  | mpsgraph inner =>
      simp only [loadNode, mgMpsgraphLoadExecutable, bind_ok, read_ok, require_ok] at success
      obtain ⟨_, _, ⟨_, _, ⟨rfl, rfl⟩, _, _, ⟨enabled, _⟩, _⟩, _⟩ := success
      exact enabled
  | dispatch | copy | fill | eventWait | eventSignal | barrier | workspace | workspaceFill
  | unknown => cases full

/-- The build is the same whenever it is asked. -/
theorem MgExecNode.Supported.of_ge {node : MgExecNode} {before after : Env}
    (supported : node.Supported after) (grown : before ≤ after) : node.Supported before :=
  fun mpsgraph same => grown.enabled.symm.trans (supported mpsgraph same)

theorem MgExecNode.Supported.of_le {node : MgExecNode} {before after : Env}
    (supported : node.Supported before) (grown : before ≤ after) : node.Supported after :=
  fun mpsgraph same => grown.enabled.trans (supported mpsgraph same)

theorem instantiateStep_supported {graph : MgGraph} {plan : MgWorkspacePlan}
    {nodes next : List MgExecNode} {index : Nat} {env reached : Env}
    (held : ∀ node ∈ nodes, node.Supported env)
    (success : instantiateStep graph plan nodes index env = (.ok next, reached)) :
    ∀ node ∈ next, node.Supported env := by
  simp only [instantiateStep, bind_ok, nodeAt_ok, catching_ok, fail_ok, and_false, exists_false,
    or_false, pure_ok] at success
  obtain ⟨src, _, ⟨_, rfl⟩, node, _, made, rfl, rfl⟩ := success
  simp only [instantiateNode, bind_ok, holding_ok] at made
  obtain ⟨cloned, middle, copied, loaded⟩ := made
  intro other member
  rcases List.mem_append.mp member with old | new
  · exact held other old
  · cases List.mem_singleton.mp new
    exact (loadNode_supported loaded).of_ge ((mgCloneExecNode_grows src plan).of_run copied)

theorem mgGraphInstantiate_supported {graph : MgGraph} {device : Option MgDevice}
    {exec : MgGraphExec} {env reached : Env}
    (success : mgGraphInstantiate graph device env = (.ok exec, reached)) :
    ∀ node ∈ exec.nodes, node.Supported reached := by
  have loop : ∀ workspace order, Triple (fun _ => True)
      (foldEach (instantiateStep graph workspace) [] order)
      (fun nodes env => ∀ node ∈ nodes, node.Supported env) fun _ _ => True := by
    intro workspace order
    refine (Triple.foldEach (fun _ nodes env => ∀ node ∈ nodes, node.Supported env)
      fun _ _ _ _ => Triple.of_ok fun _ _ _ held ran node member => ?_).weaken (by simp)
      (fun _ _ held => held) fun _ _ stopped => stopped
    exact (instantiateStep_supported held ran node member).of_le
      ((instantiateStep_grows _ _ _ _).of_run ran)
  obtain ⟨_, _, _, _, cloned, built⟩ := mgGraphInstantiate_run success
  exact fun node member => ((loop _ _).ok trivial cloned node member).of_le
    ((mgIcbPlanBuild_grows _).of_run built)

theorem PatchStep.supported {exec : MgGraphExec} {env other : Env} {patch : ExecPatch}
    {reached : Focus MgGraphExec} (step : PatchStep exec env patch reached)
    (held : ∀ node ∈ exec.nodes, node.Supported other) :
    ∀ node ∈ reached.object.nodes, node.Supported other := by
  have stored : ∀ (position : Nat) (fresh : MgExecNode), (∀ mpsgraph, fresh ≠ .mpsgraph mpsgraph) →
      ∀ node ∈ (exec.stored position fresh).nodes, node.Supported other := by
    intro position fresh unlike node member
    rcases List.mem_or_eq_of_mem_set member with old | rfl
    · exact held node old
    · exact fun mpsgraph same => absurd same (unlike mpsgraph)
  cases step with
  | dispatchGrid | dispatchBuffer | dispatchScalar | copyNode | fillNode =>
      exact stored _ _ (by simp)
  | @eventValue nodeId position node event value target given declared =>
      cases node with
      | eventWait | eventSignal => exact stored _ _ (by simp [MgExecNode.withEvent])
      | _ => cases given
  | optimizationFlags => exact held

def World.Supports (world : World) : Prop :=
  ∀ address exec, world.execs.get? address = some exec →
    ∀ node ∈ exec.nodes, node.Supported world.env

/-- A plan with MPSGraph nodes was made by a build that supports them. -/
theorem Reachable.supports {system : System} (reachable : Reachable system) :
    system.world.Supports := by
  refine reachable.invariant (fun _ _ _ address exec live => ?_) ?_
  · simp [System.initial, World.initial] at live
  · intro system call result world earlier holds permitted step address after live
    have grown := step.env_le
    have kept : ∀ exec, system.world.execs.get? address = some exec →
        ∀ node ∈ exec.nodes, node.Supported world.env := fun exec present node member =>
      (holds address exec present node member).of_le grown
    cases step.execOrigin live with
    | kept live => exact kept after live
    | made present ran fresh =>
        exact fun node member => ((mgGraphInstantiate_supported ran node member).of_ge
          ((mgGraphInstantiate_grows _ _).of_run ran)).of_le grown
    | patched named present ran same =>
        rcases ExecPatch.run_cases ran with ⟨_, stepped⟩ | unchanged
        · exact same ▸ stepped.supported (kept _ present)
        · rw [same, unchanged]
          exact kept _ present
    | launched _ present ran same =>
        rw [same, (mgGraphLaunch_sameWork ran).nodes]
        exact kept _ present
    | finished _ _ _ present same =>
        rw [same, (finishLaunch_sameWork _).nodes]
        exact kept _ present

/-! ### Recorded launches -/

/-- The outcomes of a launch of this plan, with what each leaves in the log. -/
inductive LaunchOutcome (exec : MgGraphExec) : Except Fault Response → List MetalEvent → Prop
  | submitted {launch : LaunchPtr} {impls : List Nat} {events : List MetalEvent}
      (submits : Submitted exec impls events) :
      LaunchOutcome exec (.ok (.launch launch)) events
  | halted {reason : Fault} {events : List MetalEvent}
      (only : EncodesOnly (launchCommands exec) events)
      (ends : events = [] ∨ EndsInSetback events) : LaunchOutcome exec (.error reason) events

theorem Submitted.encodesOnly {exec : MgGraphExec} {impls : List Nat} {events : List MetalEvent}
    (submitted : Submitted exec impls events) : EncodesOnly (launchCommands exec) events := by
  intro commandBuffer command member
  obtain ⟨segments, last, finished⟩ := submitted.segments
  have into : command ∈ encodedInto commandBuffer events :=
    List.mem_filterMap.mpr ⟨_, member, by simp⟩
  rw [← submitted.commands]
  exact List.mem_flatMap.mpr ⟨commandBuffer, finished.cut.mem_committed member, into⟩

theorem LaunchOutcome.encodesOnly {exec : MgGraphExec} {result : Except Fault Response}
    {events : List MetalEvent} (outcome : LaunchOutcome exec result events) :
    EncodesOnly (launchCommands exec) events := by
  cases outcome with
  | submitted submits => exact submits.encodesOnly
  | halted only ends => exact only

theorem launch_outcome {system : System} {address : ExecPtr} {exec : MgGraphExec}
    (reachable : Reachable system) (live : system.world.execs.get? address = some exec)
    (stream : Option MgStream) :
    LaunchOutcome exec (system.record (.graphLaunch (some address) stream)).result
      (system.record (.graphLaunch (some address) stream)).events := by
  rcases answered : (system.record (.graphLaunch (some address) stream)).result with
    reason | response
  · obtain ⟨world, same, step⟩ := recorded_step answered
    have events : (system.record (.graphLaunch (some address) stream)).events =
        world.env.trace.drop system.world.env.trace.length := by
      rw [← same]
      rfl
    rw [events]
    cases step with
    | refused _ missed => exact absurd live (by simp [missed address rfl])
    | graphNotLaunched present ran =>
        rw [live] at present
        cases present
        have halted := mgGraphLaunch_halts (reachable.execWf live)
          (reachable.supports address exec live) ran
        obtain ⟨added, trace, only, ends⟩ := halted.log
        rw [trace, List.drop_left]
        exact .halted only ends
  · obtain ⟨world, same, step⟩ := recorded_step answered
    cases step with
    | nothing missed => exact absurd live (by simp [missed address rfl])
    | graphLaunch present ran =>
        obtain ⟨built, _, submitted⟩ := launch_submits live answered
        exact .submitted submitted

end MetalGraph
