import MetalGraph.Base.Lockstep
import MetalGraph.Proofs.Alignment

set_option autoImplicit false

/- Executing the recorded commands of a plan does the work of encoding its nodes. -/
namespace MetalGraph

open Eff

/-! ### Recorded commands -/

/-- The dispatch that a recorded command stands for. -/
def IcbCommand.command (recorded : IcbCommand) : Command :=
  .compute recorded.pipeline
    (recorded.kernelBuffers.map fun entry => .setBuffer entry.1 entry.2.1 entry.2.2)
    recorded.grid recorded.threadsPerThreadgroup

/-- Executing recorded commands is to do the first `count` of them. -/
def Command.work : Command → List Command
  | .executeCommands icb count => (icb.commands.take count).map IcbCommand.command
  | other => [other]

def MetalEvent.work : MetalEvent → List MetalEvent
  | .encode commandBuffer command => command.work.map (.encode commandBuffer)
  | other => [other]

/-- The log with every execution of recorded commands spelled out. -/
def Env.work (env : Env) : List MetalEvent := env.trace.flatMap MetalEvent.work

def MgResourceAccess.Known (access : MgResourceAccess) : Prop :=
  access = .read ∨ access = .write ∨ access = .readWrite

/-- The plan is one fixed dispatch, and the recorded command is the one that encoding
it now would give. -/
structure IcbMatches (exec : MgGraphExec) (icb : IndirectCommandBuffer)
    (dispatch : MgExecDispatch) : Prop where
  only : exec.nodes = [.dispatch dispatch]
  scalars : dispatch.scalars = []
  fixed : dispatch.patchFlags = 0
  declared : ∀ binding ∈ dispatch.buffers, ∃ resource ∈ dispatch.resources,
    resource.index = binding.index ∧ resource.byteCount ≠ 0 ∧ resource.access.Known
  recorded : icb.commands.map IcbCommand.command = [dispatchCommand dispatch]
  count : exec.icb.commandCount = 1
  slots : ∀ command ∈ icb.commands, ∀ entry ∈ command.kernelBuffers,
    entry.2.2.toNat < icb.maxKernelBufferBindCount

theorem mgIcbDispatchEligible_none {dispatch : MgExecDispatch}
    (eligible : mgIcbDispatchEligible dispatch = .none) :
    dispatch.patchFlags = 0 ∧ dispatch.scalars = [] ∧
      ∀ binding ∈ dispatch.buffers, ∃ resource ∈ dispatch.resources,
        resource.index = binding.index ∧ resource.byteCount ≠ 0 ∧ resource.access ≠ .unknown := by
  unfold mgIcbDispatchEligible at eligible
  split at eligible
  · cases eligible
  · rename_i unpatched
    obtain ⟨fixed, scalars⟩ := not_or.mp unpatched
    split at eligible
    · rename_i every
      refine ⟨not_not.mp fixed, not_not.mp scalars, fun binding member => ?_⟩
      have declared := List.all_eq_true.mp every binding member
      split at declared
      · cases declared
      · rename_i resource found
        simp only [Bool.and_eq_true, bne_iff_ne] at declared
        exact ⟨resource, List.mem_of_find?_eq_some found, by simpa using List.find?_some found,
          declared⟩
    · cases eligible

theorem known_of_valid {access : MgResourceAccess} (valid : mgResourceAccessValid access = true)
    (known : access ≠ .unknown) : access.Known := by
  cases access with
  | unknown => exact absurd rfl known
  | read => exact .inl rfl
  | write => exact .inr (.inl rfl)
  | readWrite => exact .inr (.inr rfl)
  | other value => cases valid

theorem le_foldl_max (buffers : List MgBufferBinding) (start : Nat) :
    start ≤ buffers.foldl (fun count binding => max count (binding.index.toNat + 1)) start := by
  induction buffers generalizing start with
  | nil => exact Nat.le_refl start
  | cons binding rest ih => exact (Nat.le_max_left _ _).trans (ih _)

theorem lt_maxKernelBufferBindCount {buffers : List MgBufferBinding} {binding : MgBufferBinding}
    (member : binding ∈ buffers) : binding.index.toNat < maxKernelBufferBindCount buffers := by
  have every : ∀ start, binding.index.toNat <
      buffers.foldl (fun count binding => max count (binding.index.toNat + 1)) start := by
    induction buffers with
    | nil => cases member
    | cons first rest ih =>
        intro start
        rcases List.mem_cons.mp member with rfl | later
        · exact (Nat.le_max_right _ _).trans (le_foldl_max rest _)
        · exact ih later _
  exact every 0

/-- With no scalars the recorded bindings are all the arguments. -/
theorem recordIcbCommand_command {dispatch : MgExecDispatch} (scalars : dispatch.scalars = []) :
    (recordIcbCommand dispatch).command = dispatchCommand dispatch := by
  simp only [recordIcbCommand, IcbCommand.command, dispatchCommand, dispatchArguments, scalars,
    List.map_nil, List.append_nil, List.map_map]
  rfl

theorem ExecWf.icbMatches {exec : MgGraphExec} (wf : ExecWf exec) {icb : IndirectCommandBuffer}
    (present : exec.icb.backendImpl = some icb) : ∃ dispatch, IcbMatches exec icb dispatch := by
  obtain ⟨dispatch, only, eligible, rfl, count⟩ := wf.icb icb present
  obtain ⟨fixed, scalars, declared⟩ := mgIcbDispatchEligible_none eligible
  have member : MgExecNode.dispatch dispatch ∈ exec.nodes := only ▸ List.mem_singleton_self _
  have valid : DispatchValid dispatch.toMgDispatchNode := wf.nodes _ member
  refine ⟨dispatch, only, scalars, fixed, fun binding bound => ?_, ?_, count, ?_⟩
  · obtain ⟨resource, listed, named, sized, known⟩ := declared binding bound
    exact ⟨resource, listed, named, sized,
      known_of_valid (valid.resources resource listed).access known⟩
  · exact congrArg (fun command => [command]) (recordIcbCommand_command scalars)
  · intro command listed entry used
    cases List.mem_singleton.mp listed
    obtain ⟨binding, bound, rfl⟩ := List.mem_map.mp used
    exact lt_maxKernelBufferBindCount bound

/-! ### Machines that did the same work -/

/-- The machines differ at most in how their logs spell the work. -/
structure SameMachine (left right : Env) : Prop where
  work : left.work = right.work
  rest : { left with trace := right.trace } = right

section Machines

variable {left right : Env}

theorem SameMachine.refl (env : Env) : SameMachine env env := ⟨rfl, rfl⟩

/-- A change that does not look at the log. -/
theorem SameMachine.change (same : SameMachine left right) (change : Env → Env)
    (blind : ∀ env trace, change { env with trace := trace } = { change env with trace := trace })
    (log : ∀ env, (change env).trace = env.trace) : SameMachine (change left) (change right) where
  work := by
    have kept : ∀ env, (change env).work = env.work := fun env => by
      simp only [Env.work, log]
    rw [kept, kept]
    exact same.work
  rest := by
    have equal := congrArg change same.rest
    rw [blind] at equal
    rw [log]
    exact equal

/-- Logs grow by events that are the same work. -/
theorem SameMachine.append (same : SameMachine left right) {events events' : List MetalEvent}
    (alike : events.flatMap MetalEvent.work = events'.flatMap MetalEvent.work) :
    SameMachine { left with trace := left.trace ++ events }
      { right with trace := right.trace ++ events' } where
  work := by
    have work := same.work
    simp only [Env.work] at work
    simp only [Env.work, List.flatMap_append, work, alike]
  rest := congrArg (fun env : Env => { env with trace := right.trace ++ events' }) same.rest

end Machines

section Primitives

variable {ε δ : Type}

theorem attempt_inStep :
    InStep SameMachine (attempt : Eff Env ε Bool) (attempt : Eff Env δ Bool) := by
  intro left right same
  have oracle : left.oracle left.clock = right.oracle right.clock := by
    rw [← same.rest]
  have ticked := same.change (fun env => { env with clock := env.clock + 1 }) (fun _ _ => rfl)
    fun _ => rfl
  unfold attempt
  rw [oracle]
  by_cases granted : right.oracle right.clock = true
  · rw [if_pos granted, if_pos granted]
    exact ⟨rfl, ticked⟩
  · rw [if_neg granted, if_neg granted]
    exact ⟨rfl, ticked.append rfl⟩

theorem attemptOr_inStep (reason : ε) (reason' : δ) :
    InStep SameMachine (attemptOr reason) (attemptOr reason') :=
  .bind attempt_inStep fun _ => .require

theorem retainObject_inStep (address : Nat) :
    InStep SameMachine (retainObject address) (retainObject address) :=
  .update fun _ _ same => same.change (fun env => { env with heap := env.heap.retain address })
    (fun _ _ => rfl) fun _ => rfl

theorem releaseObject_inStep (address : Nat) :
    InStep SameMachine (releaseObject address) (releaseObject address) :=
  .update fun _ _ same => same.change (fun env => env.release address) (fun _ _ => rfl)
    fun _ => rfl

theorem emit_inStep {event event' : MetalEvent} (alike : event.work = event'.work) :
    InStep SameMachine (emit event) (emit event') :=
  .update fun _ _ same => same.append (by simpa using alike)

theorem newCommandBuffer_inStep : InStep SameMachine newCommandBuffer newCommandBuffer := by
  refine .bind attempt_inStep fun granted => ?_
  cases granted with
  | false => exact .pure none
  | true =>
      intro left right same
      have next : left.nextCommandBuffer = right.nextCommandBuffer := by
        rw [← same.rest]
      have numbered := same.change (fun env =>
        { env with nextCommandBuffer := env.nextCommandBuffer + 1 }) (fun _ _ => rfl) fun _ => rfl
      exact ⟨congrArg some next, numbered⟩

theorem mgLaunchDestroy_inStep (launch : MgLaunch) :
    InStep SameMachine (mgLaunchDestroy launch) (mgLaunchDestroy launch) :=
  .bind (.forEach (fun _ => releaseObject_inStep _) _) fun _ =>
    .forEach (fun _ => releaseObject_inStep _) _

theorem allocateLaunch_inStep (exec : MgGraphExec) :
    InStep SameMachine (allocateLaunch exec) (allocateLaunch exec) :=
  .bind (attemptOr_inStep _ _) fun _ =>
    .bind (.whenever (attemptOr_inStep _ _)) fun _ =>
    .bind (.whenever (attemptOr_inStep _ _)) fun _ => .pure _

end Primitives

/-! ### Objects side by side -/

/-- Related objects on machines that did the same work. -/
def Beside {τ υ : Type} (objects : τ → υ → Prop) (left : Focus τ) (right : Focus υ) : Prop :=
  objects left.object right.object ∧ SameMachine left.env right.env

/-- Steps on the machines leave the objects as they are. -/
theorem onEnv_lockstep {τ υ α β : Type} {objects : τ → υ → Prop} {body : Run α}
    {body' : Run β} {fact : α → β → Prop}
    (inner : Lockstep SameMachine body body' (fun value other left right =>
      fact value other ∧ SameMachine left right) SameMachine) :
    Lockstep (Beside objects) (onEnv body) (onEnv body') (fun value other left right =>
      fact value other ∧ Beside objects left right) (Beside objects) := by
  intro left right same
  have ran := inner left.env right.env same.2
  rw [onEnv_apply, onEnv_apply]
  rcases outcome : body left.env with ⟨reason | value, reached⟩ <;>
    rcases outcome' : body' right.env with ⟨reason' | value', reached'⟩ <;>
    simp only [outcome, outcome'] at ran ⊢
  · exact ⟨same.1, ran⟩
  · exact ⟨ran.1, same.1, ran.2⟩

theorem onEnv_inStep {τ υ α : Type} {objects : τ → υ → Prop} {body body' : Run α}
    (inner : InStep SameMachine body body') :
    InStep (Beside objects) (onEnv body) (onEnv body') := onEnv_lockstep inner

/-- Encoders that are equal but for work that the left one has marked already. -/
def Ahead (left right : Encoder) : Prop := left = { right with hasWork := true }

theorem Ahead.launch {left right : Encoder} (ahead : Ahead left right) :
    left.launch = right.launch := by
  have equal : left = { right with hasWork := true } := ahead
  rw [equal]

/-- Equal encoders with work to commit. -/
def Busy (left right : Encoder) : Prop := left = right ∧ right.hasWork = true

section Encoders

theorem retainLaunchBuffer_inStep (buffer : MgBuffer) :
    InStep (Beside Ahead) (retainLaunchBuffer buffer) (retainLaunchBuffer buffer) := by
  refine .bind (onEnv_inStep (retainObject_inStep _)) fun _ => ?_
  rintro ⟨_, env⟩ ⟨encoder, env'⟩ ⟨rfl, machine⟩
  by_cases room : encoder.launch.retainedBuffers.length < encoder.launch.retainedBufferSlots
  · simp only [bind_apply, self_apply, require_of _ _ _ room, modifySelf_apply]
    exact ⟨trivial, rfl, machine⟩
  · simp only [bind_apply, self_apply, require_of_not _ _ _ room]
    exact ⟨rfl, machine⟩

theorem encodeCommand_inStep {command command' : Command} (alike : command.work = command'.work) :
    InStep (Beside Ahead) (encodeCommand command) (encodeCommand command') := by
  rintro ⟨_, env⟩ ⟨encoder, env'⟩ ⟨rfl, machine⟩
  have events : MetalEvent.work (.encode encoder.commandBuffer command) =
      MetalEvent.work (.encode encoder.commandBuffer command') :=
    congrArg (List.map (MetalEvent.encode encoder.commandBuffer)) alike
  have emitted := emit_inStep events env env' machine
  exact ⟨rfl, rfl, emitted.2⟩

/-- The direct path marks the work that the indirect path starts with. -/
theorem markWork_catchesUp :
    Lockstep (Beside Ahead) (Pure.pure () : Over Encoder Unit) markWork
      (fun _ _ => Beside Busy) (Beside Ahead) := by
  rintro ⟨_, env⟩ ⟨encoder, env'⟩ ⟨rfl, machine⟩
  exact ⟨⟨rfl, rfl⟩, machine⟩

theorem self_inStep {τ : Type} : InStep (Beside (@Eq τ)) self self :=
  fun _ _ same => ⟨same.1, same⟩

theorem modifySelf_inStep {τ : Type} (change : τ → τ) :
    InStep (Beside (@Eq τ)) (modifySelf change) (modifySelf change) :=
  fun _ _ same => ⟨rfl, congrArg change same.1, same.2⟩

theorem commitCurrent_inStep : InStep (Beside Eq) commitCurrent commitCurrent := by
  have grown : InStep (Beside Eq) growImpls growImpls :=
    .bind (onEnv_inStep (attemptOr_inStep _ _)) fun _ => modifySelf_inStep _
  have retained : InStep (Beside Eq) mgLaunchRetainCommandBuffer mgLaunchRetainCommandBuffer :=
    .bind self_inStep fun _ => .bind (.whenever grown) fun _ => modifySelf_inStep _
  exact .bind self_inStep fun _ => .bind (onEnv_inStep (emit_inStep rfl)) fun _ => retained

end Encoders

/-! ### Launches side by side -/

section Launches

variable {exec : MgGraphExec} {icb : IndirectCommandBuffer} {dispatch : MgExecDispatch}

theorem IcbMatches.work (same : IcbMatches exec icb dispatch) :
    (Command.executeCommands icb exec.icb.commandCount).work = (dispatchCommand dispatch).work := by
  have all : icb.commands.take 1 = icb.commands := by
    apply List.take_of_length_le
    have length := congrArg List.length same.recorded
    rw [List.length_map, List.length_singleton] at length
    exact length.le
  simp only [Command.work, same.count, all, same.recorded, dispatchCommand]

theorem IcbMatches.encode_lockstep (same : IcbMatches exec icb dispatch) :
    Lockstep (Beside Ahead) (encodeIcb exec icb) (encodeDispatch dispatch)
      (fun _ _ => Beside Busy) (Beside Ahead) := by
  have retention : forEach retainDispatchBuffers exec.nodes =
      forEach (fun binding => retainLaunchBuffer binding.buffer) dispatch.buffers >>= fun _ =>
        (Pure.pure () : Over Encoder Unit) := by
    rw [same.only]
    rfl
  unfold encodeIcb encodeDispatch
  rw [retention]
  apply InStep.andThen (onEnv_inStep (attemptOr_inStep _ _)) (fun _ _ kept => kept)
  intro _
  apply InStep.andThen (encodeCommand_inStep same.work) (fun _ _ kept => kept)
  intro _
  refine InStep.andThen (.forEach (fun _ => retainLaunchBuffer_inStep _) _)
    (fun _ _ kept => kept) fun _ => ?_
  exact markWork_catchesUp

theorem commit_lockstep :
    Lockstep (Beside Busy) commitCurrent (do
      let encoder ← self
      whenever (encoder.hasWork = true) commitCurrent) (fun _ _ => Beside Eq) (Beside Eq) := by
  rintro ⟨encoder, env⟩ ⟨_, env'⟩ ⟨⟨rfl, busy⟩, machine⟩
  have committed := commitCurrent_inStep ⟨encoder, env⟩ ⟨encoder, env'⟩ ⟨rfl, machine⟩
  simp only [bind_apply, self_apply, Eff.whenever, if_pos busy]
  rcases outcome : commitCurrent ⟨encoder, env⟩ with ⟨reason | value, reached⟩ <;>
    rcases outcome' : commitCurrent ⟨encoder, env'⟩ with ⟨reason' | value', reached'⟩ <;>
    simp only [outcome, outcome'] at committed ⊢
  · exact committed
  · exact committed.2

/-- Local objects side by side; what a failure leaves is destroyed on both sides. -/
theorem withLocal_lockstep {before after stopped : Encoder → Encoder → Prop}
    {body body' : Over Encoder Unit} {encoder encoder' : Encoder}
    (inner : Lockstep (Beside before) body body' (fun _ _ => Beside after) (Beside stopped))
    (start : before encoder encoder')
    (launches : ∀ left right, stopped left right → left.launch = right.launch) :
    Lockstep SameMachine
      (withLocal encoder body fun encoder => mgLaunchDestroy encoder.launch)
      (withLocal encoder' body' fun encoder => mgLaunchDestroy encoder.launch)
      (fun result result' left right => after result.2 result'.2 ∧ SameMachine left right)
      SameMachine := by
  intro left right machine
  have ran := inner ⟨encoder, left⟩ ⟨encoder', right⟩ ⟨start, machine⟩
  unfold withLocal
  rcases outcome : body ⟨encoder, left⟩ with ⟨reason | value, reached⟩ <;>
    rcases outcome' : body' ⟨encoder', right⟩ with ⟨reason' | value', reached'⟩ <;>
    simp only [outcome, outcome'] at ran ⊢
  · have destroyed := mgLaunchDestroy_inStep reached.object.launch reached.env reached'.env ran.2
    rw [← launches _ _ ran.1]
    simp only [bind_apply]
    rcases gone : mgLaunchDestroy reached.object.launch reached.env with ⟨_ | _, _⟩ <;>
      rcases gone' : mgLaunchDestroy reached.object.launch reached'.env with ⟨_ | _, _⟩ <;>
      simp only [gone, gone'] at destroyed ⊢
    · exact destroyed
    · exact destroyed.2
  · exact ran

theorem IcbMatches.encodeDirect_eq (same : IcbMatches exec icb dispatch) :
    encodeDirect exec = encodeDispatch dispatch >>= fun _ => (do
      let encoder ← self
      whenever (encoder.hasWork = true) commitCurrent) := by
  have only : forEach (encodeNode exec.workspace.backendImpl) exec.nodes =
      encodeDispatch dispatch >>= fun _ => (Pure.pure () : Over Encoder Unit) := by
    rw [same.only]
    rfl
  unfold encodeDirect
  rw [only, Eff.bind_assoc]
  rfl

/-- The plan under other optimization flags. -/
def MgGraphExec.withFlags (exec : MgGraphExec) (flags : MgOptimizationFlags) : MgGraphExec :=
  { exec with icb := { exec.icb with enabledFlags := flags } }

theorem IcbMatches.withFlags (same : IcbMatches exec icb dispatch) (flags : MgOptimizationFlags) :
    IcbMatches (exec.withFlags flags) icb dispatch := { same with }

theorem usableIcb_on {on : MgOptimizationFlags} (present : exec.icb.backendImpl = some icb)
    (enabled : on &&& mgOptimizationIcb ≠ 0) : usableIcb (exec.withFlags on).icb = some icb := by
  simp only [usableIcb, icbEnabled, MgGraphExec.withFlags, bne_iff_ne.mpr enabled, ↓reduceIte,
    present]

theorem usableIcb_off {off : MgOptimizationFlags} (disabled : off &&& mgOptimizationIcb = 0) :
    usableIcb (exec.withFlags off).icb = none := by
  simp [usableIcb, icbEnabled, MgGraphExec.withFlags, disabled]

/-- The plan under these flags, and the other under those. -/
def Flagged (exec : MgGraphExec) (on off : MgOptimizationFlags) (left right : MgGraphExec) : Prop :=
  left = exec.withFlags on ∧ right = exec.withFlags off

/-- Nothing is said of the plans. -/
def Anything (_ _ : MgGraphExec) : Prop := True

theorem modifySelf_anything (change change' : MgGraphExec → MgGraphExec) :
    InStep (Beside Anything) (modifySelf change) (modifySelf change') :=
  fun _ _ start => ⟨rfl, trivial, start.2⟩

theorem IcbMatches.launch_lockstep (same : IcbMatches exec icb dispatch)
    (present : exec.icb.backendImpl = some icb) {on off : MgOptimizationFlags}
    (enabled : on &&& mgOptimizationIcb ≠ 0) (disabled : off &&& mgOptimizationIcb = 0)
    (address : ExecPtr) (stream : Option MgStream) :
    Lockstep (Beside (Flagged exec on off)) (mgGraphLaunch address stream)
      (mgGraphLaunch address stream)
      (fun launch launch' left right => launch = launch' ∧ Beside Anything left right)
      (Beside Anything) := by
  have forget : ∀ left right, Beside (Flagged exec on off) left right →
      Beside Anything left right := fun _ _ start => ⟨trivial, start.2⟩
  have read : Lockstep (Beside (Flagged exec on off)) self self (fun value other left right =>
      Flagged exec on off value other ∧ Beside Anything left right) (Beside Anything) :=
    fun _ _ start => ⟨start.1, trivial, start.2⟩
  apply InStep.andThen .orFail forget
  intro _
  apply InStep.andThen (onEnv_inStep newCommandBuffer_inStep) forget
  intro _
  apply InStep.andThen .orFail forget
  intro commandBuffer
  refine Lockstep.bind read fun _ _ => .known ?_
  rintro ⟨rfl, rfl⟩
  refine InStep.andThen (onEnv_inStep (allocateLaunch_inStep exec)) (fun _ _ kept => kept)
    fun launch => ?_
  simp only [usableIcb_on present enabled, usableIcb_off disabled]
  apply InStep.andThen (modifySelf_anything _ _) (fun _ _ kept => kept)
  intro _
  rw [(same.withFlags off).encodeDirect_eq, withLocal_bind, onEnv_bind, Eff.bind_assoc]
  -- the indirect path records its use between encoding and committing
  have encoded := withLocal_lockstep (same.withFlags on).encode_lockstep
    (show Ahead ⟨launch, commandBuffer, true⟩
      ⟨launch, commandBuffer, (exec.withFlags off).nodes.isEmpty⟩ from rfl)
    fun _ _ ahead => ahead.launch
  refine Lockstep.bind (onEnv_lockstep encoded) fun left right => .known fun busy => ?_
  refine .update_left (Beside Anything) (fun _ _ start => ⟨trivial, start.2⟩) ?_
  have committed := withLocal_lockstep commit_lockstep busy
    fun _ _ equal => congrArg Encoder.launch equal
  refine Lockstep.bind (onEnv_lockstep committed) fun left right => .known fun equal => ?_
  rw [equal]
  exact InStep.bind (.pure _) fun launched => .bind (modifySelf_anything _ _) fun _ => .pure _

end Launches

/-- Recorded commands never change what is executed: they are present only for a plan of
one fixed dispatch, they are the command that encoding the plan now would give, and a
launch that executes them does the work of a direct launch and returns the same launch. -/
theorem icb_never_changes_work {system : System} {address : ExecPtr} {exec : MgGraphExec}
    {icb : IndirectCommandBuffer} (reachable : Reachable system)
    (live : system.world.execs.get? address = some exec)
    (present : exec.icb.backendImpl = some icb) :
    (∃ dispatch, IcbMatches exec icb dispatch) ∧
    ∀ on off stream env, on &&& mgOptimizationIcb ≠ 0 → off &&& mgOptimizationIcb = 0 →
      let executed := mgGraphLaunch address stream ⟨exec.withFlags on, env⟩
      let direct := mgGraphLaunch address stream ⟨exec.withFlags off, env⟩
      (∀ launch, executed.1 = .ok launch ↔ direct.1 = .ok launch) ∧
      executed.2.env.work = direct.2.env.work ∧
      executed.2.env.heap = direct.2.env.heap := by
  obtain ⟨dispatch, same⟩ := (reachable.execWf live).icbMatches present
  refine ⟨⟨dispatch, same⟩, fun on off stream env enabled disabled => ?_⟩
  have ran := same.launch_lockstep present enabled disabled address stream
    ⟨exec.withFlags on, env⟩ ⟨exec.withFlags off, env⟩ ⟨⟨rfl, rfl⟩, .refl env⟩
  rcases outcome : mgGraphLaunch address stream ⟨exec.withFlags on, env⟩ with
    ⟨reason | launch, reached⟩ <;>
    rcases outcome' : mgGraphLaunch address stream ⟨exec.withFlags off, env⟩ with
      ⟨reason' | launch', reached'⟩ <;>
    simp only [outcome, outcome'] at ran ⊢
  · exact ⟨by simp, ran.2.work, by rw [← ran.2.rest]⟩
  · exact ⟨by simp [ran.1], ran.2.2.work, by rw [← ran.2.2.rest]⟩

/-- The plan of one fixed dispatch, whose command was recorded. -/
def recordedExec : MgGraphExec where
  nodes := [.dispatch misalignedDispatch]
  deviceImpl := some 7
  workspace := .zero
  icb :=
    { MgIcbPlan.zero with
      enabledFlags := mgOptimizationIcb
      available := true
      groupsPlanned := 1
      backendImpl := some ⟨1, [recordIcbCommand misalignedDispatch]⟩
      commandCount := 1 }
  inFlightCount := 0

theorem recorded_instantiated :
    (grantAll.run misalignedCalls).world.execs.get? 0 = some recordedExec := by decide +kernel

theorem icb_never_changes_work_of_recorded :
    (∃ dispatch, IcbMatches recordedExec ⟨1, [recordIcbCommand misalignedDispatch]⟩ dispatch) ∧
    ∀ env,
      (mgGraphLaunch 0 (some ⟨some 7⟩) ⟨recordedExec.withFlags mgOptimizationIcb, env⟩).2.env.work =
        (mgGraphLaunch 0 (some ⟨some 7⟩) ⟨recordedExec.withFlags 0, env⟩).2.env.work := by
  obtain ⟨recorded, launches⟩ :=
    icb_never_changes_work misaligned_reachable recorded_instantiated rfl
  refine ⟨recorded, fun env => ?_⟩
  have alike := launches mgOptimizationIcb 0 (some ⟨some 7⟩) env (by decide) (by decide)
  exact alike.2.1

end MetalGraph
