import MetalGraph.Proofs.Completion
import MetalGraph.Proofs.GraphValidation
import MetalGraph.Proofs.NodeLookup

set_option autoImplicit false

/- Direct launches submit the commands of the nodes in order, and do so again until
the plan is patched. -/
namespace MetalGraph

open Eff

/-- Everything of a plan but its counter and its diagnostics. -/
structure SameWork (before after : MgGraphExec) : Prop where
  nodes : after.nodes = before.nodes
  device : after.deviceImpl = before.deviceImpl
  workspace : after.workspace = before.workspace
  icb : SamePlan before.icb after.icb

theorem SameWork.refl (exec : MgGraphExec) : SameWork exec exec := ⟨rfl, rfl, rfl, .refl _⟩

theorem SameWork.trans {first second third : MgGraphExec} (left : SameWork first second)
    (right : SameWork second third) : SameWork first third where
  nodes := right.nodes.trans left.nodes
  device := right.device.trans left.device
  workspace := right.workspace.trans left.workspace
  icb := left.icb.trans right.icb

theorem SameWork.launchCommands {before after : MgGraphExec} (same : SameWork before after) :
    launchCommands after = launchCommands before := by
  unfold MetalGraph.launchCommands
  rw [same.icb.usableIcb, same.nodes, same.workspace, same.icb.commandCount]

theorem Launches.sameWork {exec object : MgGraphExec} {more : UInt32}
    (launches : Launches exec more object) : SameWork exec object := by
  obtain ⟨icb, same, rfl⟩ := launches
  exact ⟨rfl, rfl, rfl, same⟩

theorem finishLaunch_sameWork (exec : MgGraphExec) : SameWork exec exec.finishLaunch := by
  unfold MgGraphExec.finishLaunch
  split <;> exact ⟨rfl, rfl, rfl, .refl _⟩

theorem mgGraphLaunch_sameWork {address : ExecPtr} {stream : Option MgStream} {exec : MgGraphExec}
    {env : Env} {result : Except Fault MgLaunch} {reached : Focus MgGraphExec}
    (ran : mgGraphLaunch address stream ⟨exec, env⟩ = (result, reached)) :
    SameWork exec reached.object := by
  have start : Has (Launches exec 0) ⟨exec, env⟩ := Launches.refl exec
  cases result with
  | ok launch => exact Launches.sameWork (mgGraphLaunch_launches.ok start ran)
  | error reason => exact Launches.sameWork (mgGraphLaunch_launches.error start ran)

/-- Synchronizing never forgets which plan a launch belongs to. -/
theorem SyncStep.launch_exec {object : LaunchOf} {env : Env} {result : Except Fault Unit}
    {focus : Focus LaunchOf} (step : SyncStep object env result focus) :
    focus.object.launch.exec = object.launch.exec := by
  cases step <;> rfl

theorem SyncStep.exec {object : LaunchOf} {env : Env} {result : Except Fault Unit}
    {focus : Focus LaunchOf} (step : SyncStep object env result focus) :
    focus.object.exec = object.exec ∨
      focus.object.exec = object.exec.map MgGraphExec.finishLaunch := by
  cases step with
  | first =>
      dsimp only
      split
      · exact .inr rfl
      · exact .inl rfl
  | idle | orphaned | again => exact .inl rfl

/-- Writing a synchronized launch back touches at most its own plan. -/
theorem putLaunch_execs {world : World} (env : Env) (address : LaunchPtr) {launch : MgLaunch}
    {result : Except Fault Unit} {focus : Focus LaunchOf}
    (step : SyncStep ⟨launch, world.execOf launch⟩ world.env result focus) (exec : ExecPtr) :
    (World.putLaunch { world with env := env } address focus.object).execs.get? exec =
        world.execs.get? exec ∨
      ∃ before, world.execs.get? exec = some before ∧ launch.exec = some exec ∧
        (World.putLaunch { world with env := env } address focus.object).execs.get? exec =
          some before.finishLaunch := by
  unfold World.putLaunch
  rcases named : launch.exec with _ | pointer
  · left
    simp only [step.launch_exec, named]
  · rcases live : world.execs.get? pointer with _ | before
    · have nothing : focus.object.exec = none := by
        rcases step.exec with same | same <;> rw [same] <;>
          simp [World.execOf, named, live]
      left
      simp only [step.launch_exec, named, nothing]
    · have stored : focus.object.exec = some before ∨
          focus.object.exec = some before.finishLaunch := by
        rcases step.exec with same | same
        · left
          rw [same]
          simp [World.execOf, named, live]
        · right
          rw [same]
          simp [World.execOf, named, live]
      rcases stored with same | same <;> simp only [step.launch_exec, named, same] <;>
        rw [Slots.get?_put live]
      · left
        split
        · rename_i here
          rw [here, live]
        · rfl
      · split
        · rename_i here
          exact .inr ⟨before, here ▸ live, here ▸ rfl, rfl⟩
        · exact .inl rfl

/-- Where a plan that is alive after a call comes from. -/
inductive ExecOrigin (world : World) (call : Call) (address : ExecPtr) (after : MgGraphExec) : Prop
  | kept (live : world.execs.get? address = some after)
  | made {graph : GraphPtr} {object : MgGraph} {device : Option MgDevice} {env : Env}
      (live : world.graphs.get? graph = some object)
      (ran : mgGraphInstantiate object device world.env = (.ok after, env))
      (fresh : address = world.execs.size)
  | patched {before : MgGraphExec} {patch : ExecPatch} {result : Except Fault Unit}
      {focus : Focus MgGraphExec} (named : call = .execPatch (some address) patch)
      (live : world.execs.get? address = some before)
      (ran : patch.run ⟨before, world.env⟩ = (result, focus)) (same : after = focus.object)
  | launched {before : MgGraphExec} {stream : Option MgStream} {result : Except Fault MgLaunch}
      {focus : Focus MgGraphExec} (named : call = .graphLaunch (some address) stream)
      (live : world.execs.get? address = some before)
      (ran : mgGraphLaunch address stream ⟨before, world.env⟩ = (result, focus))
      (same : after = focus.object)
  | finished {before : MgGraphExec} {pointer : LaunchPtr} {launch : MgLaunch}
      (named : call = .launchSynchronize (some pointer))
      (running : world.launches.get? pointer = some launch) (owned : launch.exec = some address)
      (live : world.execs.get? address = some before) (same : after = before.finishLaunch)

theorem CallStep.execOrigin {world world' : World} {call : Call} {result : Except Fault Response}
    (step : CallStep world call result world') {address : ExecPtr} {after : MgGraphExec}
    (live : world'.execs.get? address = some after) : ExecOrigin world call address after := by
  cases step with
  | graphInstantiate present ran =>
      rw [Slots.get?_push] at live
      split at live
      · rename_i fresh
        cases live
        exact .made present ran fresh
      · exact .kept live
  | execDestroy present ran =>
      rw [Slots.get?_free] at live
      split at live
      · cases live
      · exact .kept live
  | execPatch present ran =>
      rw [Slots.get?_put present] at live
      split at live
      · rename_i here
        cases live
        subst here
        exact .patched rfl present ran rfl
      · exact .kept live
  | graphLaunch present ran | graphNotLaunched present ran =>
      rw [Slots.get?_put present] at live
      split at live
      · rename_i here
        cases live
        subst here
        exact .launched rfl present ran rfl
      · exact .kept live
  | @launchSynchronize pointer launch result focus present ran =>
      have sync := mgLaunchSynchronize_step ⟨launch, world.execOf launch⟩ world.env
      rw [ran] at sync
      rcases putLaunch_execs focus.env pointer sync address with same | ⟨before, old, owned, same⟩
      · rw [same] at live
        exact .kept live
      · rw [same] at live
        cases live
        exact .finished rfl present owned old rfl
  | refused | nothing | counted | graphCreate | graphNotCreated | graphDestroy | graphEdit
  | graphValidate | graphNotInstantiated | launchDestroy => exact .kept live

/-- Until it is patched, a plan keeps its work, or is destroyed. -/
theorem CallStep.sameWork {world world' : World} {call : Call} {result : Except Fault Response}
    (step : CallStep world call result world') {address : ExecPtr} {after : MgGraphExec}
    (old : address < world.execs.size) (unpatched : ∀ patch, call ≠ .execPatch (some address) patch)
    (live : world'.execs.get? address = some after) :
    ∃ before, world.execs.get? address = some before ∧ SameWork before after := by
  cases step.execOrigin live with
  | kept live => exact ⟨after, live, .refl _⟩
  | made _ _ fresh => exact absurd fresh old.ne
  | patched named => exact absurd named (unpatched _)
  | launched _ present ran same => exact ⟨_, present, same ▸ mgGraphLaunch_sameWork ran⟩
  | finished _ _ _ present same => exact ⟨_, present, same ▸ finishLaunch_sameWork _⟩

theorem CallStep.execs_size {world world' : World} {call : Call} {result : Except Fault Response}
    (step : CallStep world call result world') : world.execs.size ≤ world'.execs.size := by
  cases step with
  | launchSynchronize =>
      unfold World.putLaunch
      split <;> simp
  | refused | nothing | counted | graphCreate | graphNotCreated | graphDestroy | graphEdit
  | graphValidate | graphInstantiate | graphNotInstantiated | execDestroy | execPatch
  | graphLaunch | graphNotLaunched | launchDestroy => simp

/-- The same over any calls. -/
theorem System.run_sameWork {system : System} {address : ExecPtr} {after : MgGraphExec}
    {calls : List Call} (old : address < system.world.execs.size)
    (unpatched : ∀ call ∈ calls, ∀ patch, call ≠ .execPatch (some address) patch)
    (live : (system.run calls).world.execs.get? address = some after) :
    ∃ before, system.world.execs.get? address = some before ∧ SameWork before after := by
  induction calls generalizing system with
  | nil => exact ⟨after, live, .refl _⟩
  | cons call rest ih =>
      have step := call.eval_step system.world
      obtain ⟨middle, present, later⟩ := ih (old.trans_le step.execs_size)
        (fun other member => unpatched other (.tail _ member)) live
      obtain ⟨before, here, first⟩ := step.sameWork old (unpatched call (by simp)) present
      exact ⟨before, here, first.trans later⟩

/-! ### Recorded launches -/

section Recorded

variable {system : System} {address : ExecPtr} {exec : MgGraphExec} {stream : Option MgStream}
  {launch : LaunchPtr}

theorem recorded_step {call : Call} {result : Except Fault Response}
    (answered : (system.record call).result = result) :
    ∃ world, (system.step call).world = world ∧ CallStep system.world call result world :=
  ⟨_, rfl, answered ▸ call.eval_step system.world⟩

theorem launch_live
    (success : (system.record (.graphLaunch (some address) stream)).result = .ok (.launch launch)) :
    ∃ exec, system.world.execs.get? address = some exec := by
  obtain ⟨world, _, step⟩ := recorded_step success
  cases step with
  | graphLaunch present ran => exact ⟨_, present⟩

/-- A launch that is answered with a handle ran to its end. -/
theorem launch_recorded (live : system.world.execs.get? address = some exec)
    (success : (system.record (.graphLaunch (some address) stream)).result = .ok (.launch launch)) :
    ∃ built focus, mgGraphLaunch address stream ⟨exec, system.world.env⟩ = (.ok built, focus) ∧
      launch = system.world.launches.size ∧
      (system.step (.graphLaunch (some address) stream)).world = { system.world with
        env := focus.env
        execs := system.world.execs.put address focus.object
        launches := system.world.launches.push built } := by
  obtain ⟨world, same, step⟩ := recorded_step success
  rw [same]
  cases step with
  | graphLaunch present ran =>
      rw [live] at present
      cases present
      exact ⟨_, _, ran, rfl, rfl⟩

theorem launch_submits (live : system.world.execs.get? address = some exec)
    (success : (system.record (.graphLaunch (some address) stream)).result = .ok (.launch launch)) :
    ∃ built, (system.step (.graphLaunch (some address) stream)).world.launches.get? launch =
        some built ∧
      Submitted exec built.impls (system.record (.graphLaunch (some address) stream)).events := by
  obtain ⟨built, focus, ran, rfl, world⟩ := launch_recorded live success
  obtain ⟨events, trace, submitted⟩ := mgGraphLaunch_submits ran
  have logged : (system.record (.graphLaunch (some address) stream)).events = events := by
    change (system.step (.graphLaunch (some address) stream)).world.env.trace.drop _ = _
    rw [world, trace, List.drop_left]
  rw [logged, world]
  exact ⟨built, by rw [Slots.get?_push, if_pos rfl], submitted⟩

/-- A direct launch submits the commands of the nodes in order, each in one command
buffer, MPSGraph work alone and after what precedes it; the next launch repeats them. -/
theorem direct_launch_in_order (live : system.world.execs.get? address = some exec)
    (direct : usableIcb exec.icb = none)
    (success : (system.record (.graphLaunch (some address) stream)).result = .ok (.launch launch)) :
    let events := (system.record (.graphLaunch (some address) stream)).events
    let after := system.step (.graphLaunch (some address) stream)
    committedCommands events = exec.nodes.flatMap (nodeCommands exec.workspace.backendImpl) ∧
    (committed events).Nodup ∧
    (∀ commandBuffer command, .encode commandBuffer command ∈ events →
      commandBuffer ∈ committed events) ∧
    Sealed events ∧
    (after.world.launches.get? launch).map MgLaunch.impls = some (committed events) ∧
    Ordered events ∧
    (∃ left, after.world.execs.get? address = some left ∧ left.nodes = exec.nodes ∧
      left.workspace = exec.workspace) ∧
    ∀ between stream' again,
      (∀ call ∈ between, ∀ patch, call ≠ .execPatch (some address) patch) →
      ((after.run between).record (.graphLaunch (some address) stream')).result =
        .ok (.launch again) →
      committedCommands ((after.run between).record (.graphLaunch (some address) stream')).events =
        committedCommands events := by
  obtain ⟨built, stored, submitted⟩ := launch_submits live success
  obtain ⟨_, focus, ran, _, world⟩ := launch_recorded live success
  obtain ⟨segments, last, finished⟩ := submitted.segments
  have commands : launchCommands exec =
      exec.nodes.flatMap (nodeCommands exec.workspace.backendImpl) := by
    simp only [launchCommands, direct]
  have left := mgGraphLaunch_sameWork ran
  have present : (system.step (.graphLaunch (some address) stream)).world.execs.get? address =
      some focus.object := by
    rw [world, Slots.get?_put live, if_pos rfl]
  refine ⟨submitted.commands.trans commands, finished.cut.committed_nodup,
    fun _ _ => finished.cut.mem_committed, finished.cut.sealed, ?_, finished.ordered,
    ⟨focus.object, present, left.nodes, left.workspace⟩, ?_⟩
  · rw [stored, Option.map_some, submitted.listed]
  · intro between stream' again unpatched success'
    -- the second launch finds the plan the first has left, up to its counter
    obtain ⟨exec', live'⟩ := launch_live success'
    obtain ⟨before, here, same⟩ :=
      System.run_sameWork (Slots.lt_size_of_get? present) unpatched live'
    rw [present] at here
    cases here
    obtain ⟨_, _, submitted'⟩ := launch_submits live' success'
    rw [submitted'.commands, submitted.commands, same.launchCommands, left.launchCommands]

end Recorded

/-! A run that instantiates a fill, an MPSGraph node and another fill. -/

def sharedFill (value : UInt8) : NodeAddition := .fill (some ⟨40, some sharedBuffer, 0, 16, value⟩)

def sharedTensor : MgMpsgraphTensorDesc :=
  ⟨56, some sharedBuffer, 0, 16, .float32, .contiguous, some [4]⟩

def mixedCalls : List Call :=
  [.counted (.bufferCreateShared (some ⟨some 7⟩) 16), .graphCreate,
    .graphEdit (some 0) (.addNode (sharedFill 1)),
    .graphEdit (some 0) (.addNode
      (.mpsgraph (some ⟨48, some "package", some [sharedTensor], some [sharedTensor]⟩))),
    .graphEdit (some 0) (.addNode (sharedFill 2)),
    .graphInstantiate (some 0) (some ⟨some 7⟩)]

theorem mixed_reachable : Reachable (grantAll.run mixedCalls) :=
  (Reachable.start _ _ _).run (by decide +kernel)

def mixedExec : MgGraphExec where
  nodes :=
    [.fill ⟨⟨sharedBuffer, 0, 16, 1⟩, 1, 0⟩,
      .mpsgraph ⟨⟨"package", [⟨sharedBuffer, 0, 16, .float32, .contiguous, [4]⟩],
        [⟨sharedBuffer, 0, 16, .float32, .contiguous, [4]⟩]⟩, 2, some "package"⟩,
      .fill ⟨⟨sharedBuffer, 0, 16, 2⟩, 3, 0⟩]
  deviceImpl := some 7
  workspace := .zero
  icb := (MgIcbPlan.fallBack
    { MgIcbPlan.zero with enabledFlags := mgOptimizationIcb, available := true } .ineligibleNode)
  inFlightCount := 0

theorem mixed_instantiated :
    (grantAll.run mixedCalls).world.execs.get? 0 = some mixedExec := by decide +kernel

def launchMixed : Call := .graphLaunch (some 0) (some ⟨some 7⟩)

theorem mixed_launched :
    ((grantAll.run mixedCalls).record launchMixed).result = .ok (.launch 0) := by decide +kernel

theorem direct_launch_of_mixed :
    Ordered ((grantAll.run mixedCalls).record launchMixed).events ∧
    ∀ again, (((grantAll.run mixedCalls).step launchMixed).record launchMixed).result =
        .ok (.launch again) →
      committedCommands (((grantAll.run mixedCalls).step launchMixed).record launchMixed).events =
        committedCommands ((grantAll.run mixedCalls).record launchMixed).events := by
  obtain ⟨_, _, _, _, _, ordered, _, repeats⟩ :=
    direct_launch_in_order mixed_instantiated (by decide) mixed_launched
  exact ⟨ordered, fun again => repeats [] _ again (by simp)⟩

end MetalGraph
