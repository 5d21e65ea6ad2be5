import MetalGraph.Proofs.Encoding

set_option autoImplicit false

/- Finished launches: the command buffers they hold, and waiting for them. -/
namespace MetalGraph

open Eff

/-! ### What a launch commits -/

/-- The commands a launch of this plan submits. -/
def launchCommands (exec : MgGraphExec) : List Command :=
  match usableIcb exec.icb with
  | some icb => [.executeCommands icb exec.icb.commandCount]
  | none => exec.nodes.flatMap (nodeCommands exec.workspace.backendImpl)

/-- What a launch adds to the log when it succeeds. -/
structure Submitted (exec : MgGraphExec) (impls : List Nat) (events : List MetalEvent) : Prop where
  segments : ∃ segments last, Finished segments last events
  listed : impls = committed events
  commands : committedCommands events = launchCommands exec
  idle : impls = [] ↔ usableIcb exec.icb = none ∧ exec.nodes ≠ [] ∧ launchCommands exec = []

theorem submitted_single {exec : MgGraphExec} (commandBuffer : Nat) (commands : List Command)
    (raw : ∀ command ∈ commands, command.isMpsgraph = false)
    (same : launchCommands exec = commands)
    (kept : usableIcb exec.icb ≠ none ∨ exec.nodes = []) :
    Submitted exec [commandBuffer]
      (commands.map (.encode commandBuffer) ++ [.commit commandBuffer]) := by
  have finished := finished_single commandBuffer raw
  refine ⟨⟨_, _, finished⟩, ?_, ?_, ?_⟩
  · rw [finished.cut.committed_eq]
    rfl
  · rw [finished.cut.committedCommands_eq, same]
    simp
  · simp only [List.cons_ne_nil, false_iff]
    tauto

theorem startRecording_recorded (env : Env) :
    Recorded env.trace [] [] (startRecording env false) :=
  recorded_start env.trace (Nat.lt_succ_self _)

theorem launchRecording_submits (exec : MgGraphExec) (env : Env) :
    ∃ events, (launchRecording exec env).trace = env.trace ++ events ∧
      Submitted exec (launchRecording exec env).impls events := by
  rcases usable : usableIcb exec.icb with _ | icb
  · have direct : launchCommands exec =
        exec.nodes.flatMap (nodeCommands exec.workspace.backendImpl) := by
      simp only [launchCommands, usable]
    rcases nodes : exec.nodes with _ | ⟨first, rest⟩
    · -- an empty plan commits its first command buffer as it is
      rw [nodes, List.flatMap_nil] at direct
      have single := submitted_single env.nextCommandBuffer [] (by simp) direct (.inr nodes)
      refine ⟨[.commit env.nextCommandBuffer], ?_, ?_⟩
      · simp [launchRecording, usable, nodes, startRecording, Recording.nodes, Recording.finish,
          Recording.commit]
      · simpa [launchRecording, usable, nodes, startRecording, Recording.nodes, Recording.finish,
          Recording.commit] using single
    · obtain ⟨segments, current, recorded, commands⟩ :=
        (startRecording_recorded env).nodes exec.workspace.backendImpl exec.nodes
      obtain ⟨last, events, trace, finished, impls, held, filled⟩ := recorded.finish
      have result : launchRecording exec env =
          ((startRecording env false).nodes exec.workspace.backendImpl exec.nodes).finish := by
        simp only [launchRecording, usable, nodes, List.isEmpty_cons]
      have submitted : committedCommands events = launchCommands exec := by
        rw [held, commands, direct]
        simp
      refine ⟨events, by rw [result, trace], ⟨_, _, finished⟩, by rw [result, impls], submitted, ?_⟩
      rw [result, impls, finished.cut.committed_eq, ← submitted,
        finished.cut.committedCommands_eq]
      simp only [usable, nodes, ne_eq, reduceCtorEq, not_false_eq_true, true_and,
        List.map_eq_nil_iff, List.flatMap_eq_nil_iff]
      constructor
      · intro none segment member
        rw [none] at member
        cases member
      · intro empty
        by_contra some
        obtain ⟨segment, member⟩ := List.exists_mem_of_ne_nil _ some
        exact filled segment member (empty segment member)
  · have indirect : launchCommands exec = [.executeCommands icb exec.icb.commandCount] := by
      simp only [launchCommands, usable]
    have single := submitted_single env.nextCommandBuffer _ (by simp [Command.isMpsgraph])
      indirect (.inl (by simp [usable]))
    refine ⟨[.encode env.nextCommandBuffer (.executeCommands icb exec.icb.commandCount),
      .commit env.nextCommandBuffer], ?_, ?_⟩
    · simp [launchRecording, usable, startRecording, Recording.encode, Recording.commit]
    · simpa [launchRecording, usable, startRecording, Recording.encode, Recording.commit]
        using single

theorem mgGraphLaunch_submits {address : ExecPtr} {stream : Option MgStream} {exec : MgGraphExec}
    {env : Env} {launch : MgLaunch} {reached : Focus MgGraphExec}
    (success : mgGraphLaunch address stream ⟨exec, env⟩ = (.ok launch, reached)) :
    ∃ events, reached.env.trace = env.trace ++ events ∧ Submitted exec launch.impls events := by
  obtain ⟨trace, impls, _⟩ := mgGraphLaunch_ok success
  rw [trace, impls]
  exact launchRecording_submits exec env

/-! ### Waiting -/

/-- The log of waiting for some command buffers. -/
def waits (env : Env) (impls : List Nat) : List MetalEvent :=
  impls.map fun commandBuffer => .wait commandBuffer (env.commandBufferFails commandBuffer)

def Env.waited (env : Env) (impls : List Nat) : Env :=
  { env with trace := env.trace ++ waits env impls }

private theorem waitLoop_apply (impls : List Nat) (failed : Bool) (env : Env) :
    foldEach
      (fun failed commandBuffer => do
        let now ← waitUntilCompleted commandBuffer
        pure (failed || now)) failed impls env =
      ((.ok (failed || impls.any env.commandBufferFails), env.waited impls) :
        Except Fault Bool × Env) := by
  induction impls generalizing failed env with
  | nil => simp [foldEach, Eff.pure, Env.waited, waits]
  | cons commandBuffer rest ih =>
      refine (ih (failed || env.commandBufferFails commandBuffer)
        (env.waited [commandBuffer])).trans ?_
      simp [Env.waited, waits, Bool.or_assoc]

/-- Every command buffer is waited for, whatever the earlier ones reported. -/
theorem waitForAll_apply (impls : List Nat) (env : Env) :
    waitForAll impls env = (.ok (impls.any env.commandBufferFails), env.waited impls) := by
  apply (waitLoop_apply impls false env).trans
  rw [Bool.false_or]

/-- The outcomes of a synchronization. -/
inductive SyncStep (object : LaunchOf) (env : Env) :
    Except Fault Unit → Focus LaunchOf → Prop
  | idle (nothing : object.launch.impls = []) :
      SyncStep object env
        (.error (mgSetError .invalidArgument .sync mgNodeIdInvalid "launch is required"))
        ⟨object, env⟩
  | orphaned (filled : object.launch.impls ≠ []) (pending : object.launch.completed = false)
      (named : object.launch.exec.isSome = true) (freed : object.exec = none) :
      SyncStep object env (.error .undefined) ⟨object, env.waited object.launch.impls⟩
  | again (filled : object.launch.impls ≠ []) (done : object.launch.completed = true) :
      SyncStep object env
        (if object.launch.impls.any env.commandBufferFails then
          .error (mgSetError .backendError .complete mgNodeIdInvalid "Metal command buffer failed")
        else .ok ()) ⟨object, env.waited object.launch.impls⟩
  | first (filled : object.launch.impls ≠ []) (pending : object.launch.completed = false)
      (alive : object.launch.exec.isSome = true → object.exec.isSome = true) :
      SyncStep object env
        (if object.launch.impls.any env.commandBufferFails then
          .error (mgSetError .backendError .complete mgNodeIdInvalid "Metal command buffer failed")
        else .ok ())
        ⟨⟨{ object.launch with completed := true },
            if object.launch.exec.isSome then object.exec.map MgGraphExec.finishLaunch
            else object.exec⟩,
          env.waited object.launch.impls⟩

theorem completeLaunch_apply {object : LaunchOf} (env : Env)
    (alive : object.launch.exec.isSome = true → object.exec.isSome = true) :
    completeLaunch ⟨object, env⟩ = (.ok (),
      ⟨⟨{ object.launch with completed := true },
          if object.launch.exec.isSome then object.exec.map MgGraphExec.finishLaunch
          else object.exec⟩, env⟩) := by
  obtain ⟨launch, exec⟩ := object
  rw [completeLaunch, bind_of_ok _ (self_apply _)]
  cases named : launch.exec.isSome with
  | false => simp [bind_apply, Eff.whenever, Eff.pure]
  | true =>
      obtain ⟨exec', rfl⟩ := Option.isSome_iff_exists.mp (alive named)
      simp [bind_apply, Eff.whenever, finishExec]

theorem completeLaunch_orphaned {object : LaunchOf} (env : Env)
    (named : object.launch.exec.isSome = true) (freed : object.exec = none) :
    completeLaunch ⟨object, env⟩ = (.error .undefined, ⟨object, env⟩) := by
  rw [completeLaunch, bind_of_ok _ (self_apply _)]
  simp [bind_apply, Eff.whenever, named, finishExec, freed]

theorem mgLaunchSynchronize_step (object : LaunchOf) (env : Env) :
    SyncStep object env (mgLaunchSynchronize ⟨object, env⟩).1
      (mgLaunchSynchronize ⟨object, env⟩).2 := by
  by_cases filled : object.launch.impls ≠ []
  · have waited : ∀ next : Bool → Over LaunchOf Unit,
        (onEnv (waitForAll object.launch.impls) >>= next) ⟨object, env⟩ =
          next (object.launch.impls.any env.commandBufferFails)
            ⟨object, env.waited object.launch.impls⟩ := fun next =>
      bind_of_ok _ (by rw [onEnv_apply, waitForAll_apply]) next
    rw [mgLaunchSynchronize, bind_of_ok _ (self_apply _),
      bind_of_ok _ (require_of _ _ _ filled), waited]
    cases pending : object.launch.completed with
    | true =>
        have step : SyncStep object env _ _ := .again filled pending
        cases failed : object.launch.impls.any env.commandBufferFails <;>
          simpa [bind_apply, Eff.whenever, Eff.pure, Eff.require, failed] using step
    | false =>
        by_cases alive : object.launch.exec.isSome = true → object.exec.isSome = true
        · have step : SyncStep object env _ _ := .first filled pending alive
          have done := completeLaunch_apply (env.waited object.launch.impls) alive
          cases failed : object.launch.impls.any env.commandBufferFails <;>
            simpa [bind_apply, Eff.whenever, done, Eff.require, failed] using step
        · simp only [Classical.not_imp, Bool.not_eq_true, Option.isSome_eq_false_iff,
            Option.isNone_iff_eq_none] at alive
          have stuck := completeLaunch_orphaned (env.waited object.launch.impls)
            alive.1 alive.2
          have step : SyncStep object env _ _ := .orphaned filled pending alive.1 alive.2
          simpa [bind_apply, Eff.whenever, stuck] using step
  · have nothing := not_not.mp filled
    rw [mgLaunchSynchronize, bind_of_ok _ (self_apply _),
      bind_of_error _ (require_of_not _ _ _ filled)]
    exact .idle nothing

end MetalGraph
