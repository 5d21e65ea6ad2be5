import MetalGraph.Proofs.EncodeLoop
import MetalGraph.Proofs.ExecInvariant
import MetalGraph.Proofs.Frame

set_option autoImplicit false

/- Launches of well-formed plans: what they may encode, and why they may fail. -/
namespace MetalGraph

open Eff

/-- A refusal, or a command buffer found failed. -/
def MetalEvent.isSetback : MetalEvent → Bool
  | .refused => true
  | .wait _ failed => failed
  | .encode _ _ | .commit _ => false

def EndsInSetback (events : List MetalEvent) : Prop :=
  ∃ before event, events = before ++ [event] ∧ event.isSetback = true

/-- Only these commands are encoded. -/
def EncodesOnly (commands : List Command) (events : List MetalEvent) : Prop :=
  ∀ commandBuffer command, .encode commandBuffer command ∈ events → command ∈ commands

/-- An encode loop on its way: its log since the start, and the room left in the
arrays that the counting pass has sized. -/
structure Encoding (start : Env) (commands : List Command) (buffers events : Nat)
    (focus : Focus Encoder) : Prop where
  log : ∃ added, focus.env.trace = start.trace ++ added ∧ EncodesOnly commands added
  buffers : focus.object.launch.retainedBuffers.length + buffers ≤
    focus.object.launch.retainedBufferSlots
  events : focus.object.launch.retainedEvents.length + events ≤
    focus.object.launch.retainedEventSlots
  enabled : focus.env.mpsgraphEnabled = start.mpsgraphEnabled
  pending : focus.object.launch.completed = false

structure Stopped (start : Env) (commands : List Command) (reason : Fault) (env : Env) :
    Prop where
  log : ∃ added, env.trace = start.trace ++ added ∧ EncodesOnly commands added ∧
    EndsInSetback added
  defined : reason ≠ .undefined

section Specs

variable {start : Env} {commands : List Command} {buffers events : Nat}

/-- A part of the loop that keeps to the log and uses the given room. -/
def Encodes {α : Type} (start : Env) (commands : List Command)
    (buffers events buffers' events' : Nat)
    (body : Over Encoder α) : Prop :=
  Triple (Encoding start commands buffers events) body
    (fun _ => Encoding start commands buffers' events')
    fun reason focus => Stopped start commands reason focus.env

theorem EncodesOnly.append {added more : List MetalEvent} (first : EncodesOnly commands added)
    (second : EncodesOnly commands more) : EncodesOnly commands (added ++ more) :=
  fun commandBuffer command member => (List.mem_append.mp member).elim
    (first commandBuffer command) (second commandBuffer command)

theorem encodesOnly_of_not_encode {event : MetalEvent}
    (other : ∀ commandBuffer command, event ≠ .encode commandBuffer command) :
    EncodesOnly commands [event] := by
  intro commandBuffer command member
  exact absurd (List.mem_singleton.mp member).symm (other commandBuffer command)

theorem Encoding.stopped {focus : Focus Encoder} {env : Env} {reason : Fault} {event : MetalEvent}
    (encoding : Encoding start commands buffers events focus)
    (trace : env.trace = focus.env.trace ++ [event]) (setback : event.isSetback = true)
    (other : ∀ commandBuffer command, event ≠ .encode commandBuffer command)
    (defined : reason ≠ .undefined) : Stopped start commands reason env := by
  obtain ⟨added, log, only⟩ := encoding.log
  refine ⟨⟨added ++ [event], by rw [trace, log, List.append_assoc],
    only.append (encodesOnly_of_not_encode other), added, event, rfl, setback⟩, defined⟩

theorem encodeFault_defined (nodeId : MgNodeId) (message : String) :
    encodeFault nodeId message ≠ .undefined := by
  rintro ⟨⟩

theorem attemptOr_encodes {reason : Fault} (defined : reason ≠ .undefined) :
    Encodes start commands buffers events buffers events (onEnv (attemptOr reason)) := by
  refine .of_outcomes (fun focus value reached holds ran => ?_)
    fun focus cause reached holds ran => ?_
  · obtain ⟨granted, same⟩ := onEnv_ok.mp ran
    obtain ⟨_, env⟩ := attemptOr_ok.mp granted
    obtain ⟨object, env'⟩ := reached
    cases same
    cases env
    exact ⟨holds.log, holds.buffers, holds.events, holds.enabled, holds.pending⟩
  · obtain ⟨refused, _⟩ := onEnv_error.mp ran
    obtain ⟨_, rfl, env⟩ := attemptOr_error.mp refused
    refine holds.stopped (by rw [env]) rfl (by simp) defined

theorem attempts_encode {γ : Type} {reason : Fault} (defined : reason ≠ .undefined)
    (values : List γ) : Encodes start commands buffers events buffers events
      (onEnv (forEach (fun _ => attemptOr reason) values)) := by
  induction values with
  | nil => exact fun focus holds => holds
  | cons value rest ih =>
      change Encodes _ _ _ _ _ _ (onEnv (attemptOr reason >>= fun _ =>
        forEach (fun _ => attemptOr reason) rest))
      rw [onEnv_bind]
      exact .bind (attemptOr_encodes defined) fun _ => ih

theorem encodeCommand_encodes {command : Command} (listed : command ∈ commands) :
    Encodes start commands buffers events buffers events (encodeCommand command) := by
  intro focus holds
  obtain ⟨added, log, only⟩ := holds.log
  refine ⟨⟨added ++ [.encode focus.object.commandBuffer command], ?_, only.append ?_⟩,
    holds.buffers, holds.events, holds.enabled, holds.pending⟩
  · change focus.env.trace ++ _ = _
    rw [log, List.append_assoc]
  · intro commandBuffer other member
    cases List.mem_singleton.mp member
    exact listed

theorem retainLaunchBuffer_encodes (buffer : MgBuffer) :
    Encodes start commands (buffers + 1) events buffers events (retainLaunchBuffer buffer) := by
  intro focus holds
  have room := holds.buffers
  have fits : focus.object.launch.retainedBuffers.length <
      focus.object.launch.retainedBufferSlots := by omega
  have ran : retainLaunchBuffer buffer focus = (.ok (), ⟨{ focus.object with
      launch := { focus.object.launch with
        retainedBuffers := focus.object.launch.retainedBuffers ++ [buffer] } },
      { focus.env with heap := focus.env.heap.retain buffer.address }⟩) := by
    simp [retainLaunchBuffer, bind_apply, onEnv_apply, mgBufferRetain, Eff.require, fits]
  rw [ran]
  refine ⟨holds.log, ?_, holds.events, holds.enabled, holds.pending⟩
  simp only [List.length_append, List.length_singleton]
  omega

theorem retainLaunchEvent_encodes (event : MgEvent) :
    Encodes start commands buffers (events + 1) buffers events (retainLaunchEvent event) := by
  intro focus holds
  have room := holds.events
  have fits : focus.object.launch.retainedEvents.length <
      focus.object.launch.retainedEventSlots := by omega
  have ran : retainLaunchEvent event focus = (.ok (), ⟨{ focus.object with
      launch := { focus.object.launch with
        retainedEvents := focus.object.launch.retainedEvents ++ [event] } },
      { focus.env with heap := focus.env.heap.retain event.address }⟩) := by
    simp [retainLaunchEvent, bind_apply, onEnv_apply, mgEventRetain, Eff.require, fits]
  rw [ran]
  refine ⟨holds.log, holds.buffers, ?_, holds.enabled, holds.pending⟩
  simp only [List.length_append, List.length_singleton]
  omega

/-- The part of a launch that only its command buffers are recorded outside of. -/
def MgLaunch.withoutImpls (launch : MgLaunch) : MgLaunch :=
  { launch with impls := [], implCapacity := 0 }

theorem modifySelf_encodes {change : Encoder → Encoder}
    (same : ∀ encoder,
      (change encoder).launch.withoutImpls = encoder.launch.withoutImpls) :
    Encodes start commands buffers events buffers events (modifySelf change) := by
  intro focus holds
  obtain ⟨_, _, _, pending, slots, buffers, eventSlots, events, _⟩ :=
    MgLaunch.mk.inj (same focus.object)
  refine ⟨holds.log, ?_, ?_, holds.enabled, pending.trans holds.pending⟩
  · change (change focus.object).launch.retainedBuffers.length + _ ≤
      (change focus.object).launch.retainedBufferSlots
    rw [buffers, slots]
    exact holds.buffers
  · change (change focus.object).launch.retainedEvents.length + _ ≤
      (change focus.object).launch.retainedEventSlots
    rw [events, eventSlots]
    exact holds.events

theorem markWork_encodes : Encodes start commands buffers events buffers events markWork :=
  modifySelf_encodes fun _ => rfl

theorem emit_encodes {event : MetalEvent}
    (other : ∀ commandBuffer command, event ≠ .encode commandBuffer command) :
    Encodes start commands buffers events buffers events (onEnv (emit event)) := by
  intro focus holds
  obtain ⟨added, log, only⟩ := holds.log
  refine ⟨⟨added ++ [event], ?_, only.append (encodesOnly_of_not_encode other)⟩, holds.buffers,
    holds.events, holds.enabled, holds.pending⟩
  change focus.env.trace ++ _ = _
  rw [log, List.append_assoc]

theorem oom_defined (stage : MgErrorStage) : mgSetOom stage ≠ .undefined := by
  rintro ⟨⟩

theorem commitCurrent_encodes :
    Encodes start commands buffers events buffers events commitCurrent :=
  self_then fun _ => .bind (emit_encodes (by simp)) fun _ => self_then fun _ =>
    .bind (.whenever (fun _ => .bind (attemptOr_encodes (oom_defined _)) fun _ =>
      modifySelf_encodes fun _ => rfl) fun _ _ holds => holds) fun _ =>
    modifySelf_encodes fun _ => rfl

theorem nextCommandBuffer_encodes (nodeId : MgNodeId) :
    Encodes start commands buffers events buffers events (nextCommandBuffer nodeId) := by
  intro focus holds
  rcases asked : onEnv newCommandBuffer focus with ⟨reason | created, middle⟩
  · exact (newCommandBuffer_never _ _ _ (onEnv_error.mp asked).1).elim
  · obtain ⟨ran, same⟩ := onEnv_ok.mp asked
    rw [nextCommandBuffer, bind_of_ok _ asked]
    obtain ⟨object, env⟩ := middle
    cases same
    cases created with
    | none =>
        have env' := newCommandBuffer_refused ran
        exact holds.stopped (by rw [env']) rfl (by simp) (encodeFault_defined _ _)
    | some commandBuffer =>
        obtain ⟨_, env'⟩ := newCommandBuffer_ok ran
        have kept : Encoding start commands buffers events ⟨focus.object, env⟩ := by
          cases env'
          exact ⟨holds.log, holds.buffers, holds.events, holds.enabled, holds.pending⟩
        have installs : Encodes start commands buffers events buffers events
            (modifySelf fun encoder =>
              { encoder with commandBuffer := commandBuffer, hasWork := false }) :=
          modifySelf_encodes fun _ => rfl
        exact installs _ kept

theorem flushWork_encodes (nodeId : MgNodeId) :
    Encodes start commands buffers events buffers events (flushWork nodeId) := by
  refine self_then fun encoder => .bind commitCurrent_encodes fun _ focus holds => ?_
  let failed := focus.env.commandBufferFails encoder.commandBuffer
  have waited : onEnv (waitUntilCompleted encoder.commandBuffer) focus = (.ok failed,
      ⟨focus.object, { focus.env with
        trace := focus.env.trace ++ [.wait encoder.commandBuffer failed] }⟩) := rfl
  rw [bind_of_ok _ waited]
  cases outcome : failed with
  | true =>
      rw [bind_of_error _ (require_of_not _ _ _ (by simp))]
      exact holds.stopped rfl rfl (by simp) (by rintro ⟨⟩)
  | false =>
      rw [bind_of_ok _ (require_of _ _ _ rfl)]
      apply nextCommandBuffer_encodes nodeId _
      obtain ⟨added, log, only⟩ := holds.log
      refine ⟨⟨added ++ [.wait encoder.commandBuffer false], ?_,
        only.append (encodesOnly_of_not_encode (by simp))⟩, holds.buffers, holds.events,
        holds.enabled, holds.pending⟩
      change focus.env.trace ++ _ = _
      rw [log, List.append_assoc]

/-! ### Nodes -/

theorem read_encodes {β : Type} {buffers' events' : Nat} {next : Env → Over Encoder β}
    (rest : ∀ env, env.mpsgraphEnabled = start.mpsgraphEnabled →
      Encodes start commands buffers events buffers' events' (next env)) :
    Encodes start commands buffers events buffers' events' (onEnv Eff.read >>= next) :=
  fun focus holds => rest focus.env holds.enabled focus holds

theorem mgMpsgraphEncodeNode_encodes {mpsgraph : MgExecMpsgraph}
    (listed : mpsgraphCommand mpsgraph ∈ commands) (loaded : mpsgraph.executableImpl.isSome = true)
    (enabled : start.mpsgraphEnabled = true) :
    Encodes start commands buffers events buffers events (mgMpsgraphEncodeNode mpsgraph) :=
  read_encodes fun _ same =>
    .require (fun _ => .require (fun _ =>
      .bind (attempts_encode (encodeFault_defined _ _) _) fun _ =>
      .bind (attempts_encode (encodeFault_defined _ _) _) fun _ =>
      .bind (attemptOr_encodes (encodeFault_defined _ _)) fun _ => encodeCommand_encodes listed)
      fun missing => absurd loaded missing) fun disabled => absurd (same.trans enabled) disabled

/-- What the build must support for a plan to have this node. -/
def MgExecNode.Supported (node : MgExecNode) (env : Env) : Prop :=
  ∀ mpsgraph, node = .mpsgraph mpsgraph → env.mpsgraphEnabled = true

theorem encodes_rules :
    EncodeRules (fun buffers events => Encoding start commands buffers.length events.length)
      (fun reason focus => Stopped start commands reason focus.env) commands where
  request _ _ nodeId message := attemptOr_encodes (encodeFault_defined nodeId message)
  command _ _ _ listed := encodeCommand_encodes listed
  buffer buffer _ _ := retainLaunchBuffer_encodes buffer
  event event _ _ := retainLaunchEvent_encodes event
  mark _ _ := markWork_encodes
  commit _ _ := commitCurrent_encodes
  next _ _ nodeId := nextCommandBuffer_encodes nodeId
  flush _ _ nodeId := flushWork_encodes nodeId

theorem encodes_node {plan : MgWorkspacePlan} {node : MgExecNode} (fits : NodeFits plan node)
    (supported : node.Supported start)
    (listed : ∀ command ∈ nodeCommands plan.backendImpl node, command ∈ commands) :
    NodeRules (fun buffers events => Encoding start commands buffers.length events.length)
      (fun reason focus => Stopped start commands reason focus.env) node where
  mpsgraph _ _ mpsgraph same := by
    subst same
    exact mgMpsgraphEncodeNode_encodes (listed _ (.head _)) fits.2 (supported mpsgraph rfl)
  unknown _ _ kind same := by
    subst same
    exact fits.elim

theorem encodeDirect_encodes {exec : MgGraphExec} (wf : ExecWf exec)
    (supported : ∀ node ∈ exec.nodes, node.Supported start)
    (listed : ∀ command ∈ exec.nodes.flatMap (nodeCommands exec.workspace.backendImpl),
      command ∈ commands) :
    Encodes start commands ((exec.nodes.map MgExecNode.retainedBufferCount).sum)
      ((exec.nodes.map MgExecNode.retainedEventCount).sum) 0 0 (encodeDirect exec) := by
  rw [counted_buffers, counted_events]
  apply encodes_rules.direct _ listed
  intro node member
  exact encodes_node (wf.nodes node member) (supported node member) fun command ofNode =>
    listed command (List.mem_flatMap.mpr ⟨node, member, ofNode⟩)

theorem encodeIcb_encodes {exec : MgGraphExec} {icb : IndirectCommandBuffer} (wf : ExecWf exec)
    (recorded : exec.icb.backendImpl = some icb)
    (listed : .executeCommands icb exec.icb.commandCount ∈ commands) :
    Encodes start commands ((exec.nodes.map MgExecNode.retainedBufferCount).sum)
      ((exec.nodes.map MgExecNode.retainedEventCount).sum) 0 0 (encodeIcb exec icb) := by
  obtain ⟨dispatch, only, _, _⟩ := wf.icb icb recorded
  rw [counted_buffers, counted_events]
  apply encodes_rules.indirect listed
  intro node member other
  rw [only, List.mem_singleton] at member
  subst member
  cases other

end Specs

/-! ### Launches -/

/-- How a launch may fail: before it does anything, or at a refusal or a failed wait. -/
structure Halted (exec : MgGraphExec) (start : Env) (reason : Fault) (env : Env) : Prop where
  log : ∃ added, env.trace = start.trace ++ added ∧ EncodesOnly (launchCommands exec) added ∧
    (added = [] ∨ EndsInSetback added)
  defined : reason ≠ .undefined

theorem Stopped.halted {exec : MgGraphExec} {start env : Env} {reason : Fault}
    (stopped : Stopped start (launchCommands exec) reason env) : Halted exec start reason env := by
  obtain ⟨⟨added, log, only, setback⟩, defined⟩ := stopped
  exact ⟨⟨added, log, only, .inr setback⟩, defined⟩

theorem halted_of_refused {exec : MgGraphExec} {start env : Env} {reason : Fault}
    (trace : env.trace = start.trace ++ [.refused]) (defined : reason ≠ .undefined) :
    Halted exec start reason env :=
  ⟨⟨[.refused], trace, encodesOnly_of_not_encode (by simp), .inr ⟨[], .refused, rfl, rfl⟩⟩,
    defined⟩

section Launch

variable {exec : MgGraphExec} {env : Env}

theorem allocateLaunch_grows : Grows (allocateLaunch exec) :=
  .bind (attemptOr_grows _) fun _ => .bind (.whenever (attemptOr_grows _)) fun _ =>
    .bind (.whenever (attemptOr_grows _)) fun _ => .pure _

theorem allocateLaunch_room {launch : MgLaunch} {reached : Env}
    (success : allocateLaunch exec env = (.ok launch, reached)) :
    launch.retainedBuffers = [] ∧ launch.retainedEvents = [] ∧
      launch.retainedBufferSlots = (exec.nodes.map MgExecNode.retainedBufferCount).sum ∧
      launch.retainedEventSlots = (exec.nodes.map MgExecNode.retainedEventCount).sum ∧
      launch.completed = false := by
  simp only [allocateLaunch, bind_ok, pure_ok] at success
  obtain ⟨_, _, _, _, _, _, _, _, _, rfl, _⟩ := success
  exact ⟨rfl, rfl, rfl, rfl, rfl⟩

/-- The loop of a launch starts with room for everything the nodes retain. -/
theorem encoding_starts {launch : MgLaunch} {commandBuffer : Nat} {middle reached : Env}
    (created : newCommandBuffer env = (.ok (some commandBuffer), middle))
    (success : allocateLaunch exec middle = (.ok launch, reached)) (hasWork : Bool) :
    Encoding env (launchCommands exec) ((exec.nodes.map MgExecNode.retainedBufferCount).sum)
      ((exec.nodes.map MgExecNode.retainedEventCount).sum)
      ⟨⟨launch, commandBuffer, hasWork⟩, reached⟩ := by
  obtain ⟨_, made⟩ := newCommandBuffer_ok created
  obtain ⟨buffers, events, bufferSlots, eventSlots, pending⟩ := allocateLaunch_room success
  obtain ⟨_, trace, _⟩ := allocateLaunch_ok success
  exact
    { log := ⟨[], by rw [trace, made]; simp, by simp [EncodesOnly]⟩
      buffers := by simp [buffers, bufferSlots]
      events := by simp [events, eventSlots]
      enabled := by rw [(allocateLaunch_grows.of_run success).enabled, made]
      pending := pending }

theorem launchCommands_direct (usable : usableIcb exec.icb = none) :
    launchCommands exec = exec.nodes.flatMap (nodeCommands exec.workspace.backendImpl) := by
  simp only [launchCommands, usable]

theorem launchCommands_icb {icb : IndirectCommandBuffer} (usable : usableIcb exec.icb = some icb) :
    launchCommands exec = [.executeCommands icb exec.icb.commandCount] := by
  simp only [launchCommands, usable]

theorem usableIcb_recorded {plan : MgIcbPlan} {icb : IndirectCommandBuffer}
    (usable : usableIcb plan = some icb) : plan.backendImpl = some icb := by
  unfold usableIcb at usable
  split at usable
  · exact usable
  · cases usable

theorem launchDirect_encodes (wf : ExecWf exec)
    (supported : ∀ node ∈ exec.nodes, node.Supported env)
    (usable : usableIcb exec.icb = none) :
    Encodes env (launchCommands exec) ((exec.nodes.map MgExecNode.retainedBufferCount).sum)
      ((exec.nodes.map MgExecNode.retainedEventCount).sum) 0 0 (encodeDirect exec) :=
  encodeDirect_encodes wf supported fun _ member => launchCommands_direct usable ▸ member

theorem launchIcb_encodes (wf : ExecWf exec) {icb : IndirectCommandBuffer}
    (usable : usableIcb exec.icb = some icb) :
    Encodes env (launchCommands exec) ((exec.nodes.map MgExecNode.retainedBufferCount).sum)
      ((exec.nodes.map MgExecNode.retainedEventCount).sum) 0 0 (encodeIcb exec icb) :=
  encodeIcb_encodes wf (usableIcb_recorded usable)
    (by rw [launchCommands_icb usable]; exact .head _)

theorem allocateLaunch_stops {reason : Fault} {reached : Env}
    (stopped : allocateLaunch exec env = (.error reason, reached)) :
    reached.trace = env.trace ++ [.refused] ∧ reason ≠ .undefined := by
  have refused : ∀ (env reached : Env),
      attemptOr (mgSetOom .encode) env = (.error reason, reached) →
      reached.trace = env.trace ++ [.refused] ∧ reason ≠ .undefined := by
    intro env reached failed
    obtain ⟨_, rfl, rfl⟩ := attemptOr_error.mp failed
    exact ⟨rfl, oom_defined _⟩
  have passed : ∀ (condition : Prop) [Decidable condition] (env reached : Env),
      whenever condition (attemptOr (mgSetOom .encode)) env = (.ok (), reached) →
      reached.trace = env.trace := by
    intro condition _ env reached ran
    rcases whenever_ok.mp ran with ⟨_, asked⟩ | ⟨_, rfl⟩
    · exact (attemptOr_quiet _ _ _ asked).1
    · rfl
  rcases bind_error.mp stopped with failed | ⟨_, first, asked, stopped⟩
  · exact refused _ _ failed
  · rw [← (attemptOr_quiet _ _ _ asked).1]
    rcases bind_error.mp stopped with failed | ⟨_, second, buffers, stopped⟩
    · exact refused _ _ (whenever_error.mp failed).2
    · rw [← passed _ _ _ buffers]
      rcases bind_error.mp stopped with failed | ⟨_, third, events, stopped⟩
      · exact refused _ _ (whenever_error.mp failed).2
      · cases stopped

theorem mgLaunchDestroy_apply (launch : MgLaunch) (env : Env) :
    mgLaunchDestroy launch env =
      (.ok (), (env.releaseAll (launch.retainedBuffers.map MgBuffer.address)).releaseAll
        (launch.retainedEvents.map MgEvent.address)) := by
  exact (bind_of_ok env (forEach_release_apply MgBuffer.address launch.retainedBuffers env)
    fun _ => forEach mgEventRelease launch.retainedEvents).trans
    (forEach_release_apply MgEvent.address launch.retainedEvents _)

theorem Encodes.stops {start : Env} {commands : List Command} {buffers events : Nat}
    {body : Over Encoder Unit} {encoder : Encoder} {reason : Fault} {reached : Env}
    (spec : Encodes start commands buffers events 0 0 body)
    (entry : Encoding start commands buffers events ⟨encoder, env⟩)
    (stopped : withLocal encoder body (fun encoder => mgLaunchDestroy encoder.launch) env =
      (.error reason, reached)) : Stopped start commands reason reached := by
  obtain ⟨focus, ran, cleaned⟩ :=
    withLocal_error (fun _ => (mgLaunchDestroy_total _).fails) stopped
  obtain ⟨⟨added, log, rest⟩, defined⟩ := spec.error entry ran
  rw [mgLaunchDestroy_apply] at cleaned
  cases cleaned
  exact ⟨⟨added, by simpa using log, rest⟩, defined⟩

/-- A launch of a well-formed plan fails at a refusal or at a failed wait, if at all
after its first request. -/
theorem mgGraphLaunch_halts {address : ExecPtr} {stream : Option MgStream} {reason : Fault}
    {reached : Focus MgGraphExec} (wf : ExecWf exec)
    (supported : ∀ node ∈ exec.nodes, node.Supported env)
    (stopped : mgGraphLaunch address stream ⟨exec, env⟩ = (.error reason, reached)) :
    Halted exec env reason reached.env := by
  cases mgGraphLaunch_stop stopped with
  | missing message => exact ⟨⟨[], by simp, by simp [EncodesOnly], .inl rfl⟩, by rintro ⟨⟩⟩
  | refused created =>
      exact halted_of_refused (by rw [newCommandBuffer_refused created]) (encodeFault_defined _ _)
  | unallocated created stopped =>
      obtain ⟨_, made⟩ := newCommandBuffer_ok created
      obtain ⟨trace, defined⟩ := allocateLaunch_stops stopped
      exact halted_of_refused (by rw [trace, made]) defined
  | direct created ready usable stopped =>
      have entry := encoding_starts created ready
      exact ((launchDirect_encodes wf supported usable).stops (entry _) stopped).halted
  | indirect created ready usable stopped =>
      have entry := encoding_starts created ready
      exact ((launchIcb_encodes wf usable).stops (entry _) stopped).halted
  | uncommitted created ready usable encoded stopped =>
      have entry := encoding_starts created ready
      have middle := (launchIcb_encodes wf usable).ok (entry _) encoded
      exact (commitCurrent_encodes.stops middle stopped).halted

/-- A launch is returned before anything has waited for it. -/
theorem mgGraphLaunch_pending {address : ExecPtr} {stream : Option MgStream} {launch : MgLaunch}
    {reached : Focus MgGraphExec} (wf : ExecWf exec)
    (supported : ∀ node ∈ exec.nodes, node.Supported env)
    (success : mgGraphLaunch address stream ⟨exec, env⟩ = (.ok launch, reached)) :
    launch.completed = false := by
  cases mgGraphLaunch_run success with
  | direct created ready usable encoded =>
      have entry := encoding_starts created ready
      exact ((launchDirect_encodes wf supported usable).ok (entry _) encoded).pending
  | indirect created ready usable encoded committed =>
      have entry := encoding_starts created ready
      have middle := (launchIcb_encodes wf usable).ok (entry _) encoded
      exact (commitCurrent_encodes.ok middle committed).pending

end Launch

end MetalGraph
