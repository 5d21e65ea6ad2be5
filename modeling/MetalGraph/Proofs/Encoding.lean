import MetalGraph.Proofs.MachineRules
import MetalGraph.Proofs.Segmentation

set_option autoImplicit false

/- The encode loop does what the recorder says, whenever it succeeds. -/
namespace MetalGraph

open Eff

def recordingOf (focus : Focus Encoder) : Recording where
  trace := focus.env.trace
  next := focus.env.nextCommandBuffer
  commandBuffer := focus.object.commandBuffer
  impls := focus.object.launch.impls
  hasWork := focus.object.hasWork

/-- Every successful run changes the recording in this way. -/
def Records {α : Type} (change : Recording → Recording) (body : Over Encoder α) : Prop :=
  ∀ focus value reached, body focus = (.ok value, reached) →
    recordingOf reached = change (recordingOf focus)

namespace Records

variable {α β : Type} {first second : Recording → Recording}

theorem pure (value : α) : Records id (Pure.pure value) := by
  rintro focus result reached ⟨⟩
  rfl

theorem bind {head : Over Encoder α} {next : α → Over Encoder β} (left : Records first head)
    (right : ∀ value, Records second (next value)) : Records (second ∘ first) (head >>= next) := by
  intro focus value reached ran
  obtain ⟨inner, middle, started, finished⟩ := bind_ok.mp ran
  rw [right inner middle value reached finished, left focus inner middle started]
  rfl

/-- A first part that records nothing. -/
theorem after {head : Over Encoder α} {next : α → Over Encoder β} (left : Records id head)
    (right : ∀ value, Records second (next value)) : Records second (head >>= next) :=
  bind left right

theorem self {next : Encoder → Over Encoder β} (right : ∀ encoder, Records second (next encoder)) :
    Records second (MetalGraph.self >>= next) :=
  after (by rintro focus value reached ⟨⟩; rfl) right

theorem require {condition : Prop} [Decidable condition] {reason : Fault}
    {next : Unit → Over Encoder β} (right : Records second (next ())) :
    Records second (Eff.require condition reason >>= next) :=
  after (by
    intro focus inner reached ran
    rw [(require_ok.mp ran).2]
    rfl) fun _ => right

theorem orFail {value : Option α} {reason : Fault} {next : α → Over Encoder β}
    (right : ∀ inner, Records second (next inner)) :
    Records second (Eff.orFail value reason >>= next) :=
  after (by
    intro focus inner reached ran
    rw [(orFail_ok.mp ran).2]
    rfl) right

theorem forEach {γ : Type} {body : γ → Over Encoder Unit} (each : ∀ value, Records id (body value))
    (values : List γ) : Records id (Eff.forEach body values) := by
  induction values with
  | nil => exact pure ()
  | cons value rest ih => exact after (each value) fun _ => ih

/-- A step on the machine that touches neither the log nor the next command buffer. -/
theorem onEnv {body : Run α} (quiet : ∀ env value reached, body env = (.ok value, reached) →
    reached.trace = env.trace ∧ reached.nextCommandBuffer = env.nextCommandBuffer) :
    Records id (MetalGraph.onEnv body) := by
  intro focus value reached ran
  obtain ⟨inner, same⟩ := onEnv_ok.mp ran
  obtain ⟨trace, next⟩ := quiet _ _ _ inner
  simp only [recordingOf, same, trace, next, id_eq]

theorem modifySelf {change : Encoder → Encoder} {effect : Recording → Recording}
    (same : ∀ focus : Focus Encoder,
      recordingOf { focus with object := change focus.object } = effect (recordingOf focus)) :
    Records effect (MetalGraph.modifySelf change) := by
  rintro focus value reached ⟨⟩
  exact same focus

end Records

theorem attemptOr_quiet {ε : Type} {reason : ε} (env : Env) (value : Unit) (reached : Env)
    (ran : attemptOr reason env = (.ok value, reached)) :
    reached.trace = env.trace ∧ reached.nextCommandBuffer = env.nextCommandBuffer := by
  obtain ⟨_, rfl⟩ := attemptOr_ok.mp ran
  exact ⟨rfl, rfl⟩

theorem attemptOr_records (reason : Fault) : Records id (onEnv (attemptOr reason)) :=
  .onEnv attemptOr_quiet

theorem attempts_records {γ : Type} (reason : Fault) (values : List γ) :
    Records id (onEnv (Eff.forEach (fun _ => attemptOr reason) values)) := by
  refine .onEnv fun env value reached ran => ?_
  induction values generalizing env with
  | nil =>
      cases ran
      exact ⟨rfl, rfl⟩
  | cons head rest ih =>
      obtain ⟨_, middle, asked, later⟩ := bind_ok.mp ran
      obtain ⟨trace, next⟩ := attemptOr_quiet _ _ _ asked
      obtain ⟨trace', next'⟩ := ih middle later
      exact ⟨trace'.trans trace, next'.trans next⟩

theorem retainObject_records (address : Nat) :
    Records id (onEnv (retainObject address)) :=
  .onEnv fun env value reached ran => by
    cases ran
    exact ⟨rfl, rfl⟩

theorem retainLaunchBuffer_records (buffer : MgBuffer) :
    Records id (retainLaunchBuffer buffer) :=
  .after (retainObject_records _) fun _ => .self fun _ => .require (.modifySelf fun _ => rfl)

theorem retainLaunchEvent_records (event : MgEvent) : Records id (retainLaunchEvent event) :=
  .after (retainObject_records _) fun _ => .self fun _ => .require (.modifySelf fun _ => rfl)

theorem encodeCommand_records (command : Command) :
    Records (Recording.encode · [command]) (encodeCommand command) := by
  intro focus value reached ran
  simp only [encodeCommand, bind_ok, self_apply] at ran
  obtain ⟨encoder, middle, same, emitted⟩ := ran
  cases same
  cases emitted
  rfl

theorem encodeCommands_records (commands : List Command) :
    Records (Recording.encode · commands) (Eff.forEach encodeCommand commands) := by
  intro focus value reached ran
  induction commands generalizing focus with
  | nil =>
      cases ran
      simp [Recording.encode]
  | cons command rest ih =>
      obtain ⟨_, middle, first, later⟩ := bind_ok.mp ran
      rw [ih middle later, encodeCommand_records command focus _ middle first]
      simp [Recording.encode]

theorem markWork_records : Records Recording.marked markWork := .modifySelf fun _ => rfl

theorem commitCurrent_records : Records Recording.commit commitCurrent := by
  intro focus value reached ran
  simp only [commitCurrent, mgLaunchRetainCommandBuffer, growImpls, bind_ok, self_apply,
    whenever_ok, onEnv_ok, emit_apply, modifySelf_apply] at ran
  obtain ⟨encoder, _, same, _, middle, ⟨emitted, object⟩, encoder', _, same', _, grown, growth,
    last⟩ := ran
  cases same
  cases same'
  cases last
  obtain ⟨object', env'⟩ := middle
  cases object
  cases emitted
  rcases growth with ⟨_, _, asked, ⟨granted, kept⟩, changed⟩ | ⟨_, rfl⟩
  · obtain ⟨_, env⟩ := attemptOr_ok.mp granted
    obtain ⟨object'', env''⟩ := asked
    cases kept
    cases env
    cases changed
    rfl
  · rfl

theorem nextCommandBuffer_records (nodeId : MgNodeId) :
    Records Recording.fresh (nextCommandBuffer nodeId) := by
  intro focus value reached ran
  simp only [nextCommandBuffer, bind_ok, onEnv_ok, orFail_ok, modifySelf_apply] at ran
  obtain ⟨_, middle, ⟨created, same⟩, commandBuffer, _, ⟨rfl, rfl⟩, last⟩ := ran
  cases last
  obtain ⟨rfl, env⟩ := newCommandBuffer_ok created
  simp only [recordingOf, Recording.fresh, same, env]

/-- The flush waits for the command buffer it has just committed. -/
theorem flushWork_records (nodeId : MgNodeId) :
    Records (fun recording => recording.commit.waited.fresh) (flushWork nodeId) := by
  intro focus value reached ran
  simp only [flushWork, bind_ok, self_apply, onEnv_ok, waitUntilCompleted_ok, require_ok] at ran
  obtain ⟨encoder, _, same, _, committed, first, failed, waited, ⟨⟨_, env⟩, object⟩, _, _,
    ⟨passed, rfl⟩, last⟩ := ran
  cases same
  have commit := commitCurrent_records focus _ committed first
  rw [nextCommandBuffer_records nodeId _ _ _ last]
  have kept : committed.object.commandBuffer = focus.object.commandBuffer :=
    congrArg Recording.commandBuffer commit
  have step : recordingOf waited = (recordingOf committed).waited := by
    simp only [recordingOf, Recording.waited, object, env, passed, kept]
  rw [step, commit]

theorem flush_records (nodeId : MgNodeId) :
    Records Recording.flush (do
      let encoder ← self
      whenever (encoder.hasWork = true) (flushWork nodeId)) := by
  intro focus value reached ran
  simp only [bind_ok, self_apply, whenever_ok] at ran
  obtain ⟨encoder, _, same, ran⟩ := ran
  cases same
  rcases ran with ⟨busy, flushed⟩ | ⟨idle, rfl⟩
  · rw [flushWork_records nodeId focus _ reached flushed]
    simp [Recording.flush, recordingOf, busy]
  · simp [Recording.flush, recordingOf, idle]

theorem read_records : Records id (onEnv read) :=
  .onEnv fun env value reached ran => by
    cases ran
    exact ⟨rfl, rfl⟩

theorem mgMpsgraphEncodeNode_records (mpsgraph : MgExecMpsgraph) :
    Records (Recording.encode · [mpsgraphCommand mpsgraph]) (mgMpsgraphEncodeNode mpsgraph) :=
  .after read_records fun _ => .require <| .require <|
    .after (attempts_records _ _) fun _ => .after (attempts_records _ _) fun _ =>
    .after (attemptOr_records _) fun _ => encodeCommand_records _

theorem retains_records {γ : Type} (buffer : γ → MgBuffer) (values : List γ) :
    Records id (Eff.forEach (fun value => retainLaunchBuffer (buffer value)) values) :=
  .forEach (fun _ => retainLaunchBuffer_records _) values

theorem encodeMpsgraph_records (mpsgraph : MgExecMpsgraph) :
    Records (fun recording =>
      (recording.flush.encode [mpsgraphCommand mpsgraph]).commit.fresh)
      (encodeMpsgraph mpsgraph) := by
  intro focus value reached ran
  simp only [encodeMpsgraph, bind_ok] at ran
  obtain ⟨encoder, _, same, _, flushed, first, _, encoded, second, _, fed, third, _, targeted,
    fourth, _, committed, fifth, last⟩ := ran
  have flush := flush_records mpsgraph.id focus () flushed
    (bind_ok.mpr ⟨encoder, _, same, first⟩)
  rw [nextCommandBuffer_records _ _ _ _ last, commitCurrent_records _ _ _ fifth,
    retains_records _ _ _ _ _ fourth, retains_records _ _ _ _ _ third,
    mgMpsgraphEncodeNode_records _ _ _ _ second, flush]
  rfl

theorem encodeNode_records (workspace : Option MetalBuffer) (node : MgExecNode) :
    Records (Recording.node workspace · node) (encodeNode workspace node) := by
  cases node with
  | dispatch dispatch =>
      exact .after (attemptOr_records _) fun _ => .bind (encodeCommand_records _) fun _ =>
        .after (retains_records _ _) fun _ => markWork_records
  | copy copy =>
      exact .after (attemptOr_records _) fun _ => .bind (encodeCommand_records _) fun _ =>
        .after (retainLaunchBuffer_records _) fun _ =>
        .after (retainLaunchBuffer_records _) fun _ => markWork_records
  | fill fill =>
      exact .after (attemptOr_records _) fun _ => .bind (encodeCommand_records _) fun _ =>
        .after (retainLaunchBuffer_records _) fun _ => markWork_records
  | eventWait event =>
      exact .bind (encodeCommand_records _) fun _ => .after (retainLaunchEvent_records _)
        fun _ => markWork_records
  | eventSignal event =>
      exact .bind (encodeCommand_records _) fun _ => .after (retainLaunchEvent_records _)
        fun _ => markWork_records
  | barrier id => exact .pure ()
  | mpsgraph mpsgraph => exact encodeMpsgraph_records mpsgraph
  | workspace node => exact .pure ()
  | workspaceFill fill =>
      exact .after (attemptOr_records _) fun _ => .bind (encodeCommands_records _) fun _ =>
        .after (retainLaunchBuffer_records _) fun _ => markWork_records
  | unknown kind =>
      intro focus value reached ran
      cases ran

theorem encodeNodes_records (workspace : Option MetalBuffer) (nodes : List MgExecNode) :
    Records (Recording.nodes workspace · nodes) (Eff.forEach (encodeNode workspace) nodes) := by
  induction nodes with
  | nil => exact .pure ()
  | cons node rest ih => exact .bind (encodeNode_records workspace node) fun _ => ih

theorem encodeDirect_records (exec : MgGraphExec) :
    Records (fun recording => (recording.nodes exec.workspace.backendImpl exec.nodes).finish)
      (encodeDirect exec) := by
  intro focus value reached ran
  simp only [encodeDirect, bind_ok, self_apply] at ran
  obtain ⟨_, middle, looped, encoder, _, same, last⟩ := ran
  cases same
  have recorded : recordingOf middle =
      (recordingOf focus).nodes exec.workspace.backendImpl exec.nodes :=
    encodeNodes_records _ _ _ _ _ looped
  change recordingOf reached =
    ((recordingOf focus).nodes exec.workspace.backendImpl exec.nodes).finish
  rw [← recorded]
  rcases whenever_ok.mp last with ⟨busy, committed⟩ | ⟨idle, rfl⟩
  · rw [commitCurrent_records _ _ _ committed]
    simp [Recording.finish, recordingOf, busy]
  · simp [Recording.finish, recordingOf, idle]

theorem encodeIcb_records (exec : MgGraphExec) (icb : IndirectCommandBuffer) :
    Records (Recording.encode · [.executeCommands icb exec.icb.commandCount])
      (encodeIcb exec icb) :=
  .after (attemptOr_records _) fun _ => .bind (encodeCommand_records _) fun _ =>
    .forEach (fun _ => .orFail fun _ => retains_records _ _) _

/-! ### Launches -/

/-- The fields of an indirect plan that a launch does not write. -/
structure SamePlan (before after : MgIcbPlan) : Prop where
  enabledFlags : after.enabledFlags = before.enabledFlags
  available : after.available = before.available
  groupsPlanned : after.groupsPlanned = before.groupsPlanned
  backendImpl : after.backendImpl = before.backendImpl
  commandCount : after.commandCount = before.commandCount

theorem SamePlan.refl (icb : MgIcbPlan) : SamePlan icb icb := ⟨rfl, rfl, rfl, rfl, rfl⟩

theorem SamePlan.trans {first second third : MgIcbPlan} (left : SamePlan first second)
    (right : SamePlan second third) : SamePlan first third where
  enabledFlags := right.enabledFlags.trans left.enabledFlags
  available := right.available.trans left.available
  groupsPlanned := right.groupsPlanned.trans left.groupsPlanned
  backendImpl := right.backendImpl.trans left.backendImpl
  commandCount := right.commandCount.trans left.commandCount

theorem beginLaunch_samePlan (icb : MgIcbPlan) : SamePlan icb icb.beginLaunch := by
  unfold MgIcbPlan.beginLaunch
  split
  · split
    · exact ⟨rfl, rfl, rfl, rfl, rfl⟩
    · split <;> exact ⟨rfl, rfl, rfl, rfl, rfl⟩
  · exact .refl icb

theorem SamePlan.usableIcb {before after : MgIcbPlan} (same : SamePlan before after) :
    usableIcb after = usableIcb before := by
  unfold MetalGraph.usableIcb icbEnabled
  rw [same.enabledFlags, same.backendImpl]

/-- A launch writes the diagnostics of its plan and may add to the counter. -/
def Launches (exec : MgGraphExec) (more : UInt32) (object : MgGraphExec) : Prop :=
  ∃ icb, SamePlan exec.icb icb ∧
    object = { exec with icb := icb, inFlightCount := exec.inFlightCount + more }

theorem Launches.refl (exec : MgGraphExec) : Launches exec 0 exec :=
  ⟨exec.icb, .refl _, by simp⟩

theorem Launches.plan {exec object : MgGraphExec} {more : UInt32}
    (launches : Launches exec more object)
    {change : MgIcbPlan → MgIcbPlan} (same : ∀ icb, SamePlan icb (change icb)) :
    Launches exec more { object with icb := change object.icb } := by
  obtain ⟨icb, kept, rfl⟩ := launches
  exact ⟨change icb, kept.trans (same icb), rfl⟩

theorem Launches.count {exec object : MgGraphExec} (launches : Launches exec 0 object) :
    Launches exec 1 { object with inFlightCount := object.inFlightCount + 1 } := by
  obtain ⟨icb, kept, rfl⟩ := launches
  exact ⟨icb, kept, by simp⟩

section Launch

variable {address : ExecPtr} {stream : Option MgStream} {exec : MgGraphExec}

theorem mgGraphLaunch_launches :
    Triple (Has (Launches exec 0)) (mgGraphLaunch address stream)
      (fun _ => Has (Launches exec 1)) fun _ => Has (Launches exec 0) := by
  have counted : ∀ launched : MgLaunch, Triple (Has (Launches exec 0))
      (do
        modifySelf fun exec => { exec with inFlightCount := exec.inFlightCount + 1 }
        pure { launched with exec := some address } : Over MgGraphExec MgLaunch)
      (fun _ => Has (Launches exec 1)) fun _ => Has (Launches exec 0) := fun launched =>
    modifySelf_rule (fun _ => Launches.count) (.pure fun _ holds => holds)
  refine .orFail (fun _ _ => ?_) (fun _ _ holds => holds)
  apply onEnv_rule (fun _ _ holds => holds)
  intro created _ _ _
  refine .orFail (fun commandBuffer _ => ?_) (fun _ _ holds => holds)
  refine self_keeps fun object _ => onEnv_rule (fun _ _ holds => holds) fun launch _ _ _ => ?_
  apply modifySelf_rule (fun _ launches => launches.plan beginLaunch_samePlan)
  dsimp only
  split
  · apply onEnv_rule (fun _ _ holds => holds)
    intro encoded _ _ _
    apply modifySelf_rule (fun _ launches => launches.plan fun _ => ⟨rfl, rfl, rfl, rfl, rfl⟩)
    exact onEnv_rule (fun _ _ holds => holds) fun encoder _ _ _ => counted _
  · exact onEnv_rule (fun _ _ holds => holds) fun encoder _ _ _ => counted _

/-- The recording a launch starts from. -/
def startRecording (env : Env) (hasWork : Bool) : Recording :=
  ⟨env.trace, env.nextCommandBuffer + 1, env.nextCommandBuffer, [], hasWork⟩

/-- What a launch of this plan records from this machine on. -/
def launchRecording (exec : MgGraphExec) (env : Env) : Recording :=
  match usableIcb exec.icb with
  | some icb =>
    ((startRecording env true).encode [.executeCommands icb exec.icb.commandCount]).commit
  | none =>
    ((startRecording env exec.nodes.isEmpty).nodes exec.workspace.backendImpl exec.nodes).finish

theorem allocateLaunch_ok {launch : MgLaunch} {env reached : Env}
    (success : allocateLaunch exec env = (.ok launch, reached)) :
    launch.impls = [] ∧ reached.trace = env.trace ∧
      reached.nextCommandBuffer = env.nextCommandBuffer := by
  have optional : ∀ (condition : Prop) [Decidable condition] (env reached : Env),
      whenever condition (attemptOr (mgSetOom .encode)) env = (.ok (), reached) →
      reached.trace = env.trace ∧ reached.nextCommandBuffer = env.nextCommandBuffer := by
    intro condition _ env reached ran
    rcases whenever_ok.mp ran with ⟨_, asked⟩ | ⟨_, rfl⟩
    · exact attemptOr_quiet _ _ _ asked
    · exact ⟨rfl, rfl⟩
  simp only [allocateLaunch, bind_ok, pure_ok] at success
  obtain ⟨_, first, asked, _, second, buffers, _, third, events, rfl, rfl⟩ := success
  obtain ⟨trace, next⟩ := attemptOr_quiet _ _ _ asked
  obtain ⟨trace', next'⟩ := optional _ _ _ buffers
  obtain ⟨trace'', next''⟩ := optional _ _ _ events
  exact ⟨rfl, trace''.trans (trace'.trans trace), next''.trans (next'.trans next)⟩

/-- The two ways a launch succeeds. -/
inductive LaunchRun (address : ExecPtr) (exec : MgGraphExec) (env : Env) :
    MgLaunch → Focus MgGraphExec → Prop
  | direct {commandBuffer : Nat} {first second last : Env} {allocated : MgLaunch}
      {encoder : Encoder} (created : newCommandBuffer env = (.ok (some commandBuffer), first))
      (ready : allocateLaunch exec first = (.ok allocated, second))
      (usable : usableIcb exec.icb = none)
      (encoded : encodeDirect exec ⟨⟨allocated, commandBuffer, exec.nodes.isEmpty⟩, second⟩ =
        (.ok (), ⟨encoder, last⟩)) :
      LaunchRun address exec env { encoder.launch with exec := some address }
        ⟨{ exec with
            icb := exec.icb.beginLaunch, inFlightCount := exec.inFlightCount + 1 }, last⟩
  | indirect {commandBuffer : Nat} {first second third last : Env} {allocated : MgLaunch}
      {middle encoder : Encoder} {icb : IndirectCommandBuffer}
      (created : newCommandBuffer env = (.ok (some commandBuffer), first))
      (ready : allocateLaunch exec first = (.ok allocated, second))
      (usable : usableIcb exec.icb = some icb)
      (encoded : encodeIcb exec icb ⟨⟨allocated, commandBuffer, true⟩, second⟩ =
        (.ok (), ⟨middle, third⟩))
      (committed : commitCurrent ⟨middle, third⟩ = (.ok (), ⟨encoder, last⟩)) :
      LaunchRun address exec env { encoder.launch with exec := some address }
        ⟨{ exec with
            icb := exec.icb.beginLaunch.recordUse, inFlightCount := exec.inFlightCount + 1 }, last⟩

theorem mgGraphLaunch_run {env : Env} {launch : MgLaunch} {reached : Focus MgGraphExec}
    (success : mgGraphLaunch address stream ⟨exec, env⟩ = (.ok launch, reached)) :
    LaunchRun address exec env launch reached := by
  simp only [mgGraphLaunch, bind_ok, orFail_ok, onEnv_ok, self_apply, modifySelf_apply] at success
  obtain ⟨_, _, ⟨_, rfl⟩, _, first, ⟨created, same⟩, commandBuffer, _, ⟨rfl, rfl⟩, _, _, read,
    allocated, second, ⟨ready, same'⟩, _, third, begun, body⟩ := success
  cases read
  cases begun
  simp only [same, same'] at ready body
  rcases usable : usableIcb exec.icb with _ | icb <;> simp only [usable] at body
  · simp only [bind_ok, onEnv_ok, modifySelf_apply, pure_ok] at body
    obtain ⟨_, ⟨object, last⟩, ⟨encoded, kept⟩, _, _, ⟨rfl, rfl⟩, _, _, counted, rfl, rfl⟩ := body
    cases counted
    cases kept
    exact .direct created ready usable (withLocal_ok.mp encoded)
  · simp only [bind_ok, onEnv_ok, modifySelf_apply, pure_ok] at body
    obtain ⟨_, ⟨object, fourth⟩, ⟨encoded, kept⟩, _, _, used, _, ⟨object', last⟩,
      ⟨committed, kept'⟩, _, _, ⟨rfl, rfl⟩, _, _, counted, rfl, rfl⟩ := body
    cases used
    cases counted
    cases kept
    cases kept'
    exact .indirect created ready usable (withLocal_ok.mp encoded) (withLocal_ok.mp committed)

/-- The ways a launch fails. -/
inductive LaunchStop (exec : MgGraphExec) (env : Env) : Fault → Env → Prop
  | missing (message : String) :
      LaunchStop exec env (mgSetError .invalidArgument .encode mgNodeIdInvalid message) env
  | refused {message : String} {reached : Env}
      (created : newCommandBuffer env = (.ok none, reached)) :
      LaunchStop exec env (encodeFault mgNodeIdInvalid message) reached
  | unallocated {commandBuffer : Nat} {first reached : Env} {reason : Fault}
      (created : newCommandBuffer env = (.ok (some commandBuffer), first))
      (stopped : allocateLaunch exec first = (.error reason, reached)) :
      LaunchStop exec env reason reached
  | direct {commandBuffer : Nat} {first second reached : Env} {allocated : MgLaunch}
      {reason : Fault} (created : newCommandBuffer env = (.ok (some commandBuffer), first))
      (ready : allocateLaunch exec first = (.ok allocated, second))
      (usable : usableIcb exec.icb = none)
      (stopped : withLocal ⟨allocated, commandBuffer, exec.nodes.isEmpty⟩ (encodeDirect exec)
        (fun encoder => mgLaunchDestroy encoder.launch) second = (.error reason, reached)) :
      LaunchStop exec env reason reached
  | indirect {commandBuffer : Nat} {first second reached : Env} {allocated : MgLaunch}
      {reason : Fault} {icb : IndirectCommandBuffer}
      (created : newCommandBuffer env = (.ok (some commandBuffer), first))
      (ready : allocateLaunch exec first = (.ok allocated, second))
      (usable : usableIcb exec.icb = some icb)
      (stopped : withLocal ⟨allocated, commandBuffer, true⟩ (encodeIcb exec icb)
        (fun encoder => mgLaunchDestroy encoder.launch) second = (.error reason, reached)) :
      LaunchStop exec env reason reached
  | uncommitted {commandBuffer : Nat} {first second third reached : Env} {allocated : MgLaunch}
      {middle : Encoder} {reason : Fault} {icb : IndirectCommandBuffer}
      (created : newCommandBuffer env = (.ok (some commandBuffer), first))
      (ready : allocateLaunch exec first = (.ok allocated, second))
      (usable : usableIcb exec.icb = some icb)
      (encoded : encodeIcb exec icb ⟨⟨allocated, commandBuffer, true⟩, second⟩ =
        (.ok (), ⟨middle, third⟩))
      (stopped : withLocal middle commitCurrent (fun encoder => mgLaunchDestroy encoder.launch)
        third = (.error reason, reached)) : LaunchStop exec env reason reached

theorem mgGraphLaunch_stop {env : Env} {reason : Fault} {reached : Focus MgGraphExec}
    (stopped : mgGraphLaunch address stream ⟨exec, env⟩ = (.error reason, reached)) :
    LaunchStop exec env reason reached.env := by
  rcases bind_error.mp stopped with failed | ⟨_, _, passed, stopped⟩
  · obtain ⟨_, rfl, rfl⟩ := orFail_error.mp failed
    exact .missing _
  obtain ⟨_, rfl⟩ := orFail_ok.mp passed
  rcases bind_error.mp stopped with failed | ⟨created, first, asked, stopped⟩
  · exact (newCommandBuffer_never _ _ _ (onEnv_error.mp failed).1).elim
  obtain ⟨created', object⟩ := onEnv_ok.mp asked
  rcases bind_error.mp stopped with failed | ⟨commandBuffer, _, given, stopped⟩
  · obtain ⟨rfl, rfl, rfl⟩ := orFail_error.mp failed
    exact .refused created'
  obtain ⟨rfl, rfl⟩ := orFail_ok.mp given
  rcases bind_error.mp stopped with failed | ⟨exec', _, same, stopped⟩
  · cases failed
  cases same
  rw [object] at stopped
  rcases bind_error.mp stopped with failed | ⟨launch, second, allocated, stopped⟩
  · exact .unallocated created' (onEnv_error.mp failed).1
  obtain ⟨ready, object'⟩ := onEnv_ok.mp allocated
  rcases bind_error.mp stopped with failed | ⟨_, third, begun, stopped⟩
  · cases failed
  cases begun
  rcases usable : usableIcb exec.icb with _ | icb <;> simp only [usable] at stopped
  · rcases bind_error.mp stopped with failed | ⟨_, _, _, stopped⟩
    · exact .direct created' ready usable (onEnv_error.mp failed).1
    · cases stopped
  · rcases bind_error.mp stopped with failed | ⟨⟨_, encoder⟩, fourth, encoded, stopped⟩
    · exact .indirect created' ready usable (onEnv_error.mp failed).1
    have encoded := withLocal_ok.mp (onEnv_ok.mp encoded).1
    rcases bind_error.mp stopped with failed | ⟨_, _, used, stopped⟩
    · cases failed
    cases used
    rcases bind_error.mp stopped with failed | ⟨_, _, _, stopped⟩
    · exact .uncommitted created' ready usable encoded (onEnv_error.mp failed).1
    · cases stopped

/-- A launch that succeeds does what the recorder says. -/
theorem mgGraphLaunch_ok {env : Env} {launch : MgLaunch} {reached : Focus MgGraphExec}
    (success : mgGraphLaunch address stream ⟨exec, env⟩ = (.ok launch, reached)) :
    reached.env.trace = (launchRecording exec env).trace ∧
      launch.impls = (launchRecording exec env).impls ∧
      launch.exec = some address := by
  have begins : ∀ {commandBuffer : Nat} {first second : Env} {allocated : MgLaunch},
      newCommandBuffer env = (.ok (some commandBuffer), first) →
      allocateLaunch exec first = (.ok allocated, second) → ∀ hasWork,
        recordingOf ⟨⟨allocated, commandBuffer, hasWork⟩, second⟩ = startRecording env hasWork := by
    intro commandBuffer first second allocated created ready hasWork
    obtain ⟨rfl, rfl⟩ := newCommandBuffer_ok created
    obtain ⟨impls, trace, next⟩ := allocateLaunch_ok ready
    simp only [recordingOf, startRecording, impls, trace, next]
  unfold launchRecording
  cases mgGraphLaunch_run success with
  | direct created ready usable encoded =>
      have finished := encodeDirect_records _ _ _ _ encoded
      rw [begins created ready] at finished
      rw [usable]
      exact ⟨congrArg Recording.trace finished, congrArg Recording.impls finished, rfl⟩
  | indirect created ready usable encoded committed =>
      have recorded := encodeIcb_records _ _ _ _ _ encoded
      have finished := commitCurrent_records _ _ _ committed
      rw [recorded, begins created ready] at finished
      rw [usable]
      exact ⟨congrArg Recording.trace finished, congrArg Recording.impls finished, rfl⟩

end Launch

end MetalGraph
