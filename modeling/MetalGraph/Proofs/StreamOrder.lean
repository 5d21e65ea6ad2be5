import MetalGraph.Proofs.AdapterSafety
import MetalGraph.Proofs.PatchedGraphs
import MetalGraph.Proofs.QueueDraining

set_option autoImplicit false

/- Launches on one stream of the adapter: the device runs them at its own pace, and once the
last of them is synchronized, memory is what performing their nodes in order gives. -/
namespace MetalGraph

open Eff

/-! ### Command buffers of a launch -/

/-- Command buffers are numbered from `least` on. -/
structure Recording.From (least : Nat) (recording : Recording) : Prop where
  current : least ≤ recording.commandBuffer ∧ recording.commandBuffer < recording.next
  impls : ∀ commandBuffer ∈ recording.impls, least ≤ commandBuffer ∧ commandBuffer < recording.next

namespace Recording.From

variable {least : Nat} {recording : Recording}

theorem retraced (numbered : Recording.From least recording) (trace : List MetalEvent) :
    Recording.From least { recording with trace := trace } :=
  ⟨numbered.current, numbered.impls⟩

theorem commit (numbered : Recording.From least recording) :
    Recording.From least recording.commit where
  current := numbered.current
  impls := by
    intro commandBuffer member
    rcases List.mem_append.mp member with old | new
    · exact numbered.impls commandBuffer old
    · rw [List.mem_singleton.mp new]
      exact numbered.current

theorem fresh (numbered : Recording.From least recording) :
    Recording.From least recording.fresh where
  current := by
    have bounds := numbered.current
    constructor
    · change least ≤ recording.next
      omega
    · exact Nat.lt_succ_self recording.next
  impls := by
    intro commandBuffer member
    have bounds := numbered.impls commandBuffer member
    change least ≤ commandBuffer ∧ commandBuffer < recording.next + 1
    omega

theorem flush (numbered : Recording.From least recording) :
    Recording.From least recording.flush := by
  unfold Recording.flush
  split
  · exact (numbered.commit.retraced _).fresh
  · exact numbered

theorem node (numbered : Recording.From least recording) (workspace : Option MetalBuffer)
    (next : MgExecNode) : Recording.From least (recording.node workspace next) := by
  cases next with
  | mpsgraph mpsgraph => exact (numbered.flush.retraced _).commit.fresh
  | _ => exact ⟨numbered.current, numbered.impls⟩

theorem nodes (numbered : Recording.From least recording) (workspace : Option MetalBuffer)
    (all : List MgExecNode) : Recording.From least (recording.nodes workspace all) := by
  induction all generalizing recording with
  | nil => exact numbered
  | cons first rest ih => exact ih (numbered.node workspace first)

theorem finish (numbered : Recording.From least recording) :
    Recording.From least recording.finish := by
  unfold Recording.finish
  split
  · exact numbered.commit
  · exact numbered

end Recording.From

theorem startRecording_from (env : Env) (hasWork : Bool) :
    Recording.From env.nextCommandBuffer (startRecording env hasWork) where
  current := ⟨le_rfl, Nat.lt_succ_self _⟩
  impls := nofun

theorem launchRecording_from (exec : MgGraphExec) (env : Env) :
    Recording.From env.nextCommandBuffer (launchRecording exec env) := by
  unfold launchRecording
  split
  · exact ((startRecording_from env true).retraced _).commit
  · exact ((startRecording_from env _).nodes _ _).finish

/-- A launch leaves the counter where the recorder does. -/
theorem mgGraphLaunch_next {address : ExecPtr} {stream : Option MgStream} {exec : MgGraphExec}
    {env : Env} {launch : MgLaunch} {reached : Focus MgGraphExec}
    (success : mgGraphLaunch address stream ⟨exec, env⟩ = (.ok launch, reached)) :
    reached.env.nextCommandBuffer = (launchRecording exec env).next := by
  have begins {commandBuffer : Nat} {first second : Env} {allocated : MgLaunch}
      (created : newCommandBuffer env = (.ok (some commandBuffer), first))
      (ready : allocateLaunch exec first = (.ok allocated, second)) (hasWork : Bool) :
      recordingOf ⟨⟨allocated, commandBuffer, hasWork⟩, second⟩ = startRecording env hasWork := by
    obtain ⟨rfl, rfl⟩ := newCommandBuffer_ok created
    obtain ⟨impls, trace, next⟩ := allocateLaunch_ok ready
    simp only [recordingOf, startRecording, impls, trace, next]
  unfold launchRecording
  cases mgGraphLaunch_run success with
  | direct created ready usable encoded =>
      have finished := encodeDirect_records _ _ _ _ encoded
      rw [begins created ready] at finished
      rw [usable]
      exact congrArg Recording.next finished
  | indirect created ready usable encoded committed =>
      have recorded := encodeIcb_records _ _ _ _ _ encoded
      have finished := commitCurrent_records _ _ _ committed
      rw [recorded, begins created ready] at finished
      rw [usable]
      exact congrArg Recording.next finished

/-- What a launch that succeeds leaves: its segments, numbered from where the counter was. -/
theorem launch_segments {system : System} {address : ExecPtr} {stream : Option MgStream}
    {launch : LaunchPtr} {exec : MgGraphExec}
    (live : system.world.execs.get? address = some exec)
    (success : (system.record (.graphLaunch (some address) stream)).result = .ok (.launch launch)) :
    ∃ segments built,
      (system.record (.graphLaunch (some address) stream)).events =
        segments.flatMap Segment.events ∧
      committedCommands (system.record (.graphLaunch (some address) stream)).events =
        segments.flatMap Segment.commands ∧
      system.world.env.nextCommandBuffer ≤
        (system.step (.graphLaunch (some address) stream)).world.env.nextCommandBuffer ∧
      Numbered system.world.env.nextCommandBuffer
        (system.step (.graphLaunch (some address) stream)).world.env.nextCommandBuffer segments ∧
      built.impls = segments.map Segment.commandBuffer ∧
      (system.step (.graphLaunch (some address) stream)).world.launches.get? launch =
        some built := by
  obtain ⟨built, kept, submitted⟩ := launch_submits live success
  obtain ⟨segments, last, finished⟩ := submitted.segments
  obtain ⟨other, focus, ran, same, world⟩ := launch_recorded live success
  have identical : other = built := by
    rw [world, same, Slots.get?_push, if_pos rfl] at kept
    exact Option.some.inj kept
  subst identical
  have impls := submitted.listed.trans finished.cut.committed_eq
  have numbered := launchRecording_from exec system.world.env
  obtain ⟨_, recorded, _⟩ := mgGraphLaunch_ok ran
  have counter : (system.step (.graphLaunch (some address) stream)).world.env.nextCommandBuffer =
      (launchRecording exec system.world.env).next := by
    rw [world]
    exact mgGraphLaunch_next ran
  rw [counter]
  refine ⟨segments ++ last.toList, other, finished.cut.events_eq,
    finished.cut.committedCommands_eq, ?_, ⟨finished.cut.increasing, ?_⟩, impls, kept⟩
  · have bounds := numbered.current
    omega
  · intro segment member
    apply numbered.impls
    rw [← recorded, impls]
    exact List.mem_map_of_mem member

/-! ### Calls that are answered -/

section Answers

variable {α β : Type} {process after : PyProcess}

theorem mgSetErrorOut_status {wanted : Bool} {status : MgStatus} {stage : MgErrorStage}
    {nodeId : MgNodeId} {message backendMessage : Option String} {heap reached : BlockHeap}
    {report : Report}
    (ran : mgSetErrorOut wanted status stage nodeId message backendMessage heap =
      (.ok report, reached)) : report.status = status := by
  unfold mgSetErrorOut at ran
  split at ran
  · cases ran
    rfl
  · obtain ⟨created, first, _, ran⟩ := bind_ok.mp ran
    cases created with
    | none =>
        cases ran
        rfl
    | some address =>
        obtain ⟨text, _, _, ran⟩ := bind_ok.mp ran
        obtain ⟨backendText, _, _, ran⟩ := bind_ok.mp ran
        obtain ⟨_, _, _, ran⟩ := bind_ok.mp ran
        split at ran
        · obtain ⟨_, _, _, ran⟩ := bind_ok.mp ran
          cases ran
          rfl
        · cases ran
          rfl

theorem onHeap_ok {body : OnBlocks α} {value : α}
    (ran : onHeap body process = (.ok value, after)) :
    body process.heap = (.ok value, after.heap) := by
  rcases catching_ok.mp ran with called | ⟨reason, middle, _, stopped⟩
  · unfold onBlocks zoom at called
    rw [Prod.mk.injEq] at called
    obtain ⟨answer, rfl⟩ := called
    exact Prod.ext answer rfl
  · cases stopped

theorem raiseFromError_raises {status : MgStatus} {error : Option Nat} {value : α} :
    (raiseFromError status error : Py α) process ≠ (.ok value, after) := by
  intro ran
  cases error with
  | none => cases ran
  | some address =>
      obtain ⟨_, _, _, ran⟩ := bind_ok.mp ran
      obtain ⟨_, _, _, ran⟩ := bind_ok.mp ran
      obtain ⟨_, _, _, ran⟩ := bind_ok.mp ran
      obtain ⟨_, _, _, ran⟩ := bind_ok.mp ran
      obtain ⟨_, _, _, ran⟩ := bind_ok.mp ran
      obtain ⟨_, _, _, ran⟩ := bind_ok.mp ran
      cases ran

/-- What a method that raises nothing has had from the library: a success, or an error that
has the status of one. -/
theorem asked_ok {call : Eff PyProcess Fault α} {next : Option α → Py β} {value : β}
    (ran : (do
      let answer ← answering call
      let out ← check answer
      next out) process = (.ok value, after)) :
    (∃ result middle, call process = (.ok result, middle) ∧
      next (some result) middle = (.ok value, after)) ∨
    ∃ error middle, (call process).1 = .error (.error error) ∧ error.status = .ok ∧
      next none middle = (.ok value, after) := by
  obtain ⟨answer, answered, called, ran⟩ := bind_ok.mp ran
  obtain ⟨out, middle, checked, ran⟩ := bind_ok.mp ran
  obtain ⟨_, calm, quiet, checked⟩ := bind_ok.mp checked
  have succeeded : answer.status = .ok ∧ answered = calm := by
    rcases whenever_ok.mp quiet with ⟨_, raised⟩ | ⟨fine, same⟩
    · exact absurd raised raiseFromError_raises
    · exact ⟨not_not.mp fine, same⟩
  obtain ⟨fine, rfl⟩ := succeeded
  rcases catching_ok.mp called with success | ⟨reason, failed, refused, reported⟩
  · obtain ⟨result, reached, success, given⟩ := bind_ok.mp success
    cases given
    obtain ⟨_, _, kept, checked⟩ := bind_ok.mp checked
    rcases whenever_ok.mp kept with ⟨some, _⟩ | ⟨_, rfl⟩
    · exact absurd rfl some
    · cases checked
      exact .inl ⟨result, _, success, ran⟩
  · cases reason with
    | undefined => cases reported
    | error error =>
        obtain ⟨_, _, _, reported⟩ := bind_ok.mp reported
        obtain ⟨report, _, told, given⟩ := bind_ok.mp reported
        cases given
        obtain ⟨_, _, _, checked⟩ := bind_ok.mp checked
        cases checked
        have inner : (call process).1 = .error (.error error) := by
          rcases called : call process with ⟨reason | result, reached⟩
          · rw [bind_of_error _ called] at refused
            cases refused
            rfl
          · rw [bind_of_ok _ called] at refused
            cases refused
        refine .inr ⟨error, _, inner, ?_, ran⟩
        rw [← mgSetErrorOut_status (onHeap_ok told)]
        exact fine

theorem handleOf_ok {τ : Type} {view : PyObject → Option τ} {index : Nat} {handle : τ}
    (ran : handleOf view index process = (.ok handle, after)) :
    process = after ∧ ∃ object, process.objects[index]? = some object ∧
      view object = some handle := by
  obtain ⟨object, middle, found, viewed⟩ := bind_ok.mp ran
  obtain ⟨_, _, here, found⟩ := bind_ok.mp found
  obtain ⟨rfl, rfl⟩ := read_ok.mp here
  obtain ⟨present, rfl⟩ := orFail_ok.mp found
  obtain ⟨held, rfl⟩ := orFail_ok.mp viewed
  exact ⟨rfl, object, present, held⟩

end Answers

/-! ### Launches and synchronizations of the adapter -/

section Calls

variable {process : PyProcess} {exec stream index block queue : Nat} {address : ExecPtr}
  {launch : LaunchPtr}

/-- A launch that makes an object with a handle is a launch of the library. -/
theorem launch_made (planned : process.objects[exec]? = some (.exec (some address)))
    (opened : process.objects[stream]? = some (.stream (some block)))
    (queued : process.heap.cells.get? block = some (.stream ⟨some queue⟩))
    (answered : ((PyCall.launch exec stream).run process).1 = .ok (.object index))
    (made : (process.after (.launch exec stream)).objects[index]? = some (.launch (some launch))) :
    (process.system.record (.graphLaunch (some address) (some ⟨some queue⟩))).result =
        .ok (.launch launch) ∧
      process.after (.launch exec stream) = { process with
        system := process.system.step (.graphLaunch (some address) (some ⟨some queue⟩))
        gpu := (process.system.record
          (.graphLaunch (some address) (some ⟨some queue⟩))).events.foldl
            (Gpu.observe process.programs process.system.world.env.commandBufferFails
              (some queue)) process.gpu
        objects := process.objects ++ [.launch (some launch)] } := by
  have ran : (PyCall.launch exec stream).run process =
      (.ok (.object index), process.after (.launch exec stream)) := Prod.ext answered rfl
  generalize process.after (.launch exec stream) = after at ran made ⊢
  obtain ⟨created, middle, ran, given⟩ := bind_ok.mp ran
  cases given
  obtain ⟨handle, _, first, ran⟩ := bind_ok.mp ran
  obtain ⟨rfl, object, found, view⟩ := handleOf_ok first
  rw [planned] at found
  cases found
  cases view
  obtain ⟨streamHandle, _, second, ran⟩ := bind_ok.mp ran
  obtain ⟨rfl, object, found, view⟩ := handleOf_ok second
  rw [opened] at found
  cases found
  cases view
  have there : onBlocks (streamAt (some block)) process =
      (.ok (some ⟨some queue⟩), process) := by
    simp [onBlocks, zoom, streamAt, Blocks.load, bind_apply, queued]
  rcases asked_ok ran with ⟨response, _, success, ran⟩ | ⟨_, _, _, _, ran⟩
  · rw [bind_of_ok _ there] at success
    unfold native at success
    rw [Prod.mk.injEq] at success
    obtain ⟨result, rfl⟩ := success
    cases ran
    simp only [List.getElem?_concat_length, Option.some.injEq, PyObject.launch.injEq,
      Option.bind_some] at made
    cases response with
    | launch given =>
        cases made
        exact ⟨result, rfl⟩
    | _ => cases made
  · cases ran
    simp at made

/-- What a synchronization does to the tables of the library. -/
theorem synchronizeLaunch_live {world : World} {object : MgLaunch}
    (live : world.launches.get? launch = some object) :
    synchronizeLaunch (some launch) world =
      ((mgLaunchSynchronize ⟨⟨object, world.execOf object⟩, world.env⟩).1.map fun _ => .done,
        World.putLaunch { world with
          env := (mgLaunchSynchronize ⟨⟨object, world.execOf object⟩, world.env⟩).2.env } launch
          (mgLaunchSynchronize ⟨⟨object, world.execOf object⟩, world.env⟩).2.object) := by
  rcases ran : mgLaunchSynchronize ⟨⟨object, world.execOf object⟩, world.env⟩
    with ⟨reason | value, focus⟩ <;>
    simp [synchronizeLaunch, lookup, bind_apply, zoom, live, ran, Except.map]

/-- An error of a synchronization says that it is one. -/
theorem synchronize_status {system : System} {handle : Option LaunchPtr} {error : MgError}
    (failed : (system.record (.launchSynchronize handle)).result = .error (.error error)) :
    error.status ≠ .ok := by
  change (synchronizeLaunch handle system.world).1 = _ at failed
  cases handle with
  | none =>
      cases failed
      decide
  | some pointer =>
      rcases live : system.world.launches.get? pointer with _ | object
      · simp [synchronizeLaunch, lookup, bind_apply, live] at failed
      · have step := mgLaunchSynchronize_step ⟨object, system.world.execOf object⟩ system.world.env
        rw [synchronizeLaunch_live live] at failed
        have waited : ∀ flag : Bool, (if flag then
            .error (mgSetError .backendError .complete mgNodeIdInvalid
              "Metal command buffer failed")
            else .ok () : Except Fault Unit).map (fun _ => Response.done) =
              .error (.error error) → error.status ≠ .ok := by
          intro flag same
          cases flag <;> cases same
          decide
        generalize mgLaunchSynchronize _ = ran at step failed
        obtain ⟨answer, reached⟩ := ran
        cases step with
        | idle =>
            cases failed
            decide
        | orphaned => cases failed
        | again | first => exact waited _ failed

/-- A synchronization that has waited for a launch changes no other. -/
theorem synchronize_completed {system : System} {object : MgLaunch}
    (live : system.world.launches.get? launch = some object)
    (completed : Completed (system.record (.launchSynchronize (some launch))).result) :
    object.impls ≠ [] ∧
      (system.step (.launchSynchronize (some launch))).world.env =
        system.world.env.waited object.impls ∧
      ∀ other built, system.world.launches.get? other = some built → ∃ kept,
        (system.step (.launchSynchronize (some launch))).world.launches.get? other = some kept ∧
          kept.impls = built.impls := by
  change Completed (synchronizeLaunch (some launch) system.world).1 at completed
  change _ ∧ (synchronizeLaunch (some launch) system.world).2.env = _ ∧ ∀ other built, _ →
    ∃ kept, (synchronizeLaunch (some launch) system.world).2.launches.get? other = _ ∧ _
  have step := mgLaunchSynchronize_step ⟨object, system.world.execOf object⟩ system.world.env
  rw [synchronizeLaunch_live live] at completed ⊢
  rw [completed_map] at completed
  generalize mgLaunchSynchronize _ = ran at step completed ⊢
  obtain ⟨answer, reached⟩ := ran
  have kept (fresh : MgLaunch) (same : fresh.impls = object.impls) (other : LaunchPtr)
      (built : MgLaunch) (present : system.world.launches.get? other = some built) :
      ∃ kept, (system.world.launches.put launch fresh).get? other = some kept ∧
        kept.impls = built.impls := by
    rw [Slots.get?_put live]
    split
    · rename_i here
      rw [here, live] at present
      cases present
      exact ⟨fresh, rfl, same⟩
    · exact ⟨built, present, rfl⟩
  cases step with
  | idle | orphaned => rcases completed with done | done <;> cases done
  | again filled => exact ⟨filled, rfl, kept _ rfl⟩
  | first filled => exact ⟨filled, rfl, kept _ rfl⟩

/-- A synchronization that raises nothing is one of the library, and has waited. -/
theorem synchronize_waited
    (answered : ((PyCall.synchronize index).run process).1 = .ok .nothing) :
    ∃ handle, process.objects[index]? = some (.launch handle) ∧
      Completed (process.system.record (.launchSynchronize handle)).result ∧
      process.after (.synchronize index) = { process with
        system := process.system.step (.launchSynchronize handle)
        gpu := (process.system.record (.launchSynchronize handle)).events.foldl
          (Gpu.observe process.programs process.system.world.env.commandBufferFails none)
          process.gpu } := by
  have ran : (PyCall.synchronize index).run process =
      (.ok .nothing, process.after (.synchronize index)) := Prod.ext answered rfl
  generalize process.after (.synchronize index) = after at ran ⊢
  obtain ⟨_, _, ran, given⟩ := bind_ok.mp ran
  cases given
  obtain ⟨handle, _, first, ran⟩ := bind_ok.mp ran
  obtain ⟨rfl, object, found, view⟩ := handleOf_ok first
  have held : object = .launch handle := by
    cases object <;> cases view
    rfl
  rw [held] at found
  refine ⟨handle, found, ?_⟩
  rcases @asked_ok _ _ _ _ _ (fun _ => pure ()) () ran with
    ⟨response, _, success, ran⟩ | ⟨error, _, failed, fine, _⟩
  · unfold native at success
    rw [Prod.mk.injEq] at success
    obtain ⟨result, rfl⟩ := success
    cases ran
    exact ⟨.inl (by rw [result]; rfl), rfl⟩
  · exact absurd fine (synchronize_status failed)

end Calls

/-! ### Programs -/

/-- What the device runs, and which of its command buffers fail. -/
def PyProcess.Runs (programs : Programs) (fails : Nat → Bool) (process : PyProcess) : Prop :=
  process.programs = programs ∧ process.system.world.env.commandBufferFails = fails

theorem System.step_env_le (system : System) (call : Call) :
    system.world.env ≤ (system.step call).world.env := (system.step_recorded call).env_le

section Programs

variable {α : Type} {programs : Programs} {fails : Nat → Bool} {excused : Fault → Prop}
  {excused' : PyError → Prop}

theorem runs_aside : Aside (PyProcess.Runs programs fails) :=
  ⟨fun _ _ runs => runs, fun _ _ runs => runs⟩

theorem native_runs (queue : Option Nat) (call : Call) :
    Stable excused (PyProcess.Runs programs fails) (native queue call) :=
  native_stable fun process _ runs =>
    ⟨runs.1, (process.system.step_env_le call).fails.trans runs.2⟩

/-- A call of the library whose answer makes an object. -/
theorem making_runs {call : Eff PyProcess Fault α} {wrap : Option α → PyObject}
    (inner : Stable (fun _ => False) (PyProcess.Runs programs fails) call) :
    Stable excused' (PyProcess.Runs programs fails) (do
      let answer ← answering call
      let out ← check answer
      newObject (wrap out)) :=
  runs_aside.asking_stable inner fun _ => runs_aside.newObject_stable _

theorem pointee_runs (index : Nat) :
    Stable excused' (PyProcess.Runs programs fails) (Buffer.pointee index) :=
  .bind (handleOf_stable _ _) fun _ => .bind .read fun _ => .bind .require fun _ => .pure _

theorem contents_runs (index : Nat) :
    Stable excused' (PyProcess.Runs programs fails) (Buffer.contents index) :=
  .bind (pointee_runs _) fun _ => .orFail

theorem write_runs (index : Nat) (bytes : List UInt8) :
    Stable excused' (PyProcess.Runs programs fails) (Buffer.write index bytes) :=
  .bind (.bind (pointee_runs _) fun _ => .pure _) fun _ => .bind .require fun _ =>
    .bind (contents_runs _) fun _ => .update fun _ runs => runs

theorem shared_runs (device : Nat) (length : Int) :
    Stable excused' (PyProcess.Runs programs fails) (Buffer.shared device length) :=
  .bind (handleOf_stable _ _) fun _ =>
    making_runs (.bind (runs_aside.onBlocks_stable _) fun _ => native_runs _ _)

theorem close_runs (index : Nat) :
    Stable excused' (PyProcess.Runs programs fails) (close index) :=
  runs_aside.close_stable index fun _ _ _ => native_runs _ _

theorem importMlxArray_runs (array : PySource) (mode : String) (device : Option Nat) :
    Stable excused' (PyProcess.Runs programs fails) (importMlxArray array mode device) :=
  .bind .require fun _ => .bind .require fun _ => .bind .orFail fun _ => .bind .ofExcept fun _ =>
    .bind (shared_runs _ _) fun _ =>
    .bind (.catching (write_runs _ _) fun _ =>
      .bind (.whenever fun _ => close_runs _) fun _ => .fail _) fun _ =>
    .bind (.bind (handleOf_stable _ _) fun _ => runs_aside.setObject_stable _ _) fun _ => .pure _

theorem PyCall.run_runs (call : PyCall) :
    Stable excused' (PyProcess.Runs programs fails) call.run := by
  cases call with
  | systemDefault =>
      exact .bind (.bind .read fun _ => making_runs (runs_aside.onBlocks_stable _)) fun _ => .pure _
  | streamCreate device =>
      exact .bind (.bind (handleOf_stable _ _) fun _ => making_runs (runs_aside.onBlocks_stable _))
        fun _ => .pure _
  | bufferShared device length => exact .bind (shared_runs _ _) fun _ => .pure _
  | writeUint32s buffer values => exact .bind (write_runs _ _) fun _ => .pure _
  | writeBytes buffer values => exact .bind (write_runs _ _) fun _ => .pure _
  | readUint32s buffer count =>
      exact .bind (.bind (.bind (pointee_runs _) fun _ => .pure _) fun _ => .bind .require fun _ =>
        .bind .require fun _ => .bind (contents_runs _) fun _ => .bind .read fun _ => .pure _)
        fun _ => .pure _
  | graphCreate => exact .bind (making_runs (native_runs _ _)) fun _ => .pure _
  | addDispatchNode graph arguments =>
      exact .bind (.bind (handleOf_stable _ _) fun _ => .bind (handleOf_stable _ _) fun _ =>
        runs_aside.asking_stable (native_runs _ _) fun _ => .pure _) fun _ => .pure _
  | instantiate graph device | launch exec stream =>
      exact .bind (.bind (handleOf_stable _ _) fun _ => .bind (handleOf_stable _ _) fun _ =>
        making_runs (.bind (runs_aside.onBlocks_stable _) fun _ => native_runs _ _))
        fun _ => .pure _
  | diagnostics exec =>
      exact .bind (.bind (handleOf_stable _ _) fun _ =>
        runs_aside.asking_stable (.bind .orFail fun _ => .bind .read fun _ => .bind .orFail fun _ =>
          .ofExcept) fun _ => .pure _) fun _ => .pure _
  | synchronize index =>
      exact .bind (.bind (handleOf_stable _ _) fun _ =>
        runs_aside.asking_stable (native_runs _ _) fun _ => .pure _) fun _ => .pure _
  | importMlxArray array mode device =>
      exact .bind (importMlxArray_runs _ _ _) fun _ => .pure _
  | close object => exact .bind (close_runs _) fun _ => .pure _

/-- No call changes what the device is like. -/
theorem PyProcess.run_runs {process : PyProcess} (runs : process.Runs programs fails)
    (calls : List PyCall) : (process.run calls).Runs programs fails := by
  induction calls generalizing process with
  | nil => exact runs
  | cons call rest ih => exact ih (call.run_runs.of_run runs rfl)

end Programs
/-! ### One stream -/

/-- The bytes of some Metal buffers. -/
def bufferBytes (buffers : Set Nat) : Set Location :=
  {location | ∃ buffer ∈ buffers, ∃ position, location = .byte buffer position}

/-- A client reads the same from memories that agree on what is not hidden. -/
theorem readUint32s_agrees {process : PyProcess} {gpu : Gpu} {hidden : Set Nat} {buffer : Nat}
    (count : Int) {handle : MgBuffer} {info : BufferInfo}
    (held : process.objects[buffer]? = some (.buffer (some handle) info))
    (visible : handle.impl.id ∉ hidden)
    (agree : ∀ location ∉ bufferBytes hidden, process.gpu.memory location = gpu.memory location) :
    ((PyCall.readUint32s buffer count).run process).1 =
      ((PyCall.readUint32s buffer count).run { process with gpu := gpu }).1 := by
  have bytes (position : Nat) : process.gpu.memory (.byte handle.impl.id position) =
      gpu.memory (.byte handle.impl.id position) := by
    apply agree
    rintro ⟨other, inside, _, same⟩
    cases same
    exact visible inside
  have found (gpu' : Gpu) : bufferHandle buffer { process with gpu := gpu' } =
      (.ok (some handle), { process with gpu := gpu' }) := by
    simp [bufferHandle, handleOf, objectAt, bind_apply, held, PyObject.asBuffer]
  change ((PyCall.readUint32s buffer count).run { process with gpu := process.gpu }).1 = _
  by_cases alive : process.system.world.bufferAlive (some handle) = true
  · have pointed (gpu' : Gpu) : Buffer.pointee buffer { process with gpu := gpu' } =
        (.ok (some handle), { process with gpu := gpu' }) := by
      simp [Buffer.pointee, bind_apply, found, Eff.require, alive]
    have measured (gpu' : Gpu) : Buffer.length buffer { process with gpu := gpu' } =
        (.ok (mgBufferLength (some handle)).toNat, { process with gpu := gpu' }) := by
      simp [Buffer.length, bind_apply, pointed]
    by_cases fits : 4 * count ≤ (mgBufferLength (some handle)).toNat
    · by_cases counted : 0 ≤ count
      · by_cases shown : handle.impl.hasContents = true <;>
          simp [PyCall.run, Buffer.readUint32s, Buffer.contents, bind_apply, measured, pointed,
            Eff.require, fits, counted, mgBufferContents, shown, orFail, bytes]
      · simp [PyCall.run, Buffer.readUint32s, bind_apply, measured, Eff.require, fits, counted]
    · simp [PyCall.run, Buffer.readUint32s, bind_apply, measured, Eff.require, fits]
  · simp [PyCall.run, Buffer.readUint32s, Buffer.length, Buffer.pointee, bind_apply, found,
      Eff.require, alive]

/-- The plan has its workspace in one of these buffers, none of its nodes names one, and its
programs keep to what its nodes declare. -/
structure MgGraphExec.Screened (plan : MgGraphExec) (programs : Programs) (hidden : Set Nat) :
    Prop where
  workspace : ∀ backing, plan.workspace.backendImpl = some backing → backing.id ∈ hidden
  apart : ∀ node ∈ plan.nodes, ∀ buffer ∈ node.buffers, buffer.impl.id ∉ hidden
  honest : ∀ node ∈ plan.nodes, programs.Honest node.contents

namespace MgGraphExec.Screened

variable {plan : MgGraphExec} {programs : Programs} {hidden : Set Nat}

theorem avoids (screened : plan.Screened programs hidden) :
    ∀ node ∈ plan.nodes, node.AvoidsWorkspace plan.workspace.backendImpl := by
  intro node member buffer named backing here same
  exact screened.apart node member buffer named (same ▸ screened.workspace backing here)

theorem privateBytes_subset (screened : plan.Screened programs hidden) :
    privateBytes plan.workspace.backendImpl ⊆ bufferBytes hidden := by
  rintro location ⟨backing, position, here, rfl⟩
  exact ⟨backing.id, screened.workspace backing here, position, rfl⟩

/-- Its nodes read and write only what is not hidden. -/
theorem perform_agrees (screened : plan.Screened programs hidden) {memory memory' : Memory}
    (agree : ∀ location ∉ bufferBytes hidden, memory location = memory' location) :
    ∀ location ∉ bufferBytes hidden,
      programs.perform (plan.nodes.map MgExecNode.contents) memory location =
        programs.perform (plan.nodes.map MgExecNode.contents) memory' location := by
  obtain ⟨_, apart, honest⟩ := screened
  generalize plan.nodes = nodes at apart honest ⊢
  induction nodes generalizing memory memory' with
  | nil => exact agree
  | cons node rest ih =>
      have disjoint : Disjoint (bufferBytes hidden) node.contents.footprint.touches := by
        rw [Set.disjoint_left]
        rintro location ⟨buffer, inside, position, rfl⟩ touched
        obtain ⟨held, named, same⟩ := node.touches_buffers touched
        exact apart node List.mem_cons_self held named (same ▸ inside)
      have confined := Programs.node_confined (honest node List.mem_cons_self)
      exact ih (confined.agree_off disjoint agree)
        (fun other member => apart other (List.mem_cons_of_mem node member))
        (fun other member => honest other (List.mem_cons_of_mem node member))

end MgGraphExec.Screened

/-- What a client of one stream has come to: it launches plans on the stream and synchronizes
launches, while the device goes on with its work. `performed` are the nodes of the plans it has
launched, and `last` is its last launch. -/
inductive Streamed (hidden : Set Nat) (stream : Nat) (start : PyProcess) :
    List MgNodeAs → Option Nat → PyProcess → Prop
  | start : Streamed hidden stream start [] none start
  | launch {performed : List MgNodeAs} {last : Option Nat} {process : PyProcess}
      {exec index : Nat} {address : ExecPtr} {launch : LaunchPtr} {plan : MgGraphExec} :
      Streamed hidden stream start performed last process →
      process.objects[exec]? = some (.exec (some address)) →
      process.system.world.execs.get? address = some plan →
      plan.Screened start.programs hidden →
      ((PyCall.launch exec stream).run process).1 = .ok (.object index) →
      (process.after (.launch exec stream)).objects[index]? = some (.launch (some launch)) →
      Streamed hidden stream start (performed ++ plan.nodes.map MgExecNode.contents) (some index)
        (process.after (.launch exec stream))
  | synchronize {performed : List MgNodeAs} {last : Option Nat} {process : PyProcess}
      {index : Nat} :
      Streamed hidden stream start performed last process →
      ((PyCall.synchronize index).run process).1 = .ok .nothing →
      Streamed hidden stream start performed last (process.after (.synchronize index))
  | progress {performed : List MgNodeAs} {last : Option Nat} {process : PyProcess}
      (queue : Option Nat) :
      Streamed hidden stream start performed last process →
      Streamed hidden stream start performed last
        { process with gpu := process.gpu.progress process.programs queue }

/-- What such a client does not change. -/
structure OnStream (stream block queue : Nat) (start process : PyProcess) : Prop where
  reachable : process.Reachable
  opened : process.objects[stream]? = some (.stream (some block))
  queued : process.heap.cells.get? block = some (.stream ⟨some queue⟩)
  runs : process.Runs start.programs start.system.world.env.commandBufferFails

section Streams

variable {hidden : Set Nat} {stream block queue exec index : Nat} {start process : PyProcess}
  {address : ExecPtr} {launch : LaunchPtr}

theorem System.step_bounded {system : System} {call : Call}
    (bounded : (system.step call).world.env.heap.overflowed = false) :
    system.world.env.heap.overflowed = false := by
  rw [Bool.eq_false_iff] at bounded ⊢
  exact fun wrapped => bounded ((system.step_env_le call).overflowed wrapped)

theorem OnStream.launched (on : OnStream stream block queue start process)
    (planned : process.objects[exec]? = some (.exec (some address)))
    (answered : ((PyCall.launch exec stream).run process).1 = .ok (.object index))
    (made : (process.after (.launch exec stream)).objects[index]? =
      some (.launch (some launch))) :
    OnStream stream block queue start (process.after (.launch exec stream)) := by
  have reachable : (process.after (.launch exec stream)).Reachable := on.reachable.call rfl
  have runs := (PyCall.launch exec stream).run_runs.of_run on.runs rfl
  refine ⟨reachable, ?_, ?_, runs⟩
  · rw [(launch_made planned on.opened on.queued answered made).2]
    exact (List.getElem?_append_left (List.getElem?_eq_some_iff.mp on.opened).1).trans on.opened
  · rw [(launch_made planned on.opened on.queued answered made).2]
    exact on.queued

theorem OnStream.synchronized (on : OnStream stream block queue start process)
    (answered : ((PyCall.synchronize index).run process).1 = .ok .nothing) :
    OnStream stream block queue start (process.after (.synchronize index)) := by
  have reachable : (process.after (.synchronize index)).Reachable := on.reachable.call rfl
  have runs := (PyCall.synchronize index).run_runs.of_run on.runs rfl
  obtain ⟨_, _, _, same⟩ := synchronize_waited answered
  refine ⟨reachable, ?_, ?_, runs⟩
  · rw [same]
    exact on.opened
  · rw [same]
    exact on.queued

theorem Streamed.onStream {performed : List MgNodeAs} {last : Option Nat}
    (streamed : Streamed hidden stream start performed last process)
    (first : OnStream stream block queue start start) :
    OnStream stream block queue start process := by
  induction streamed with
  | start => exact first
  | launch before planned live screened answered made ih => exact ih.launched planned answered made
  | synchronize before answered ih => exact ih.synchronized answered
  | progress queue before ih =>
      exact ⟨ih.reachable.progress queue, ih.opened, ih.queued, ih.runs⟩

/-- What the device has been given leads to what the nodes do, and what it has been given last
is of the last launch. -/
structure Flowing (hidden : Set Nat) (queue : Nat) (start : PyProcess)
    (performed : List MgNodeAs) (last : Option Nat) (process : PyProcess) : Prop where
  draining : ∃ target, Draining start.programs start.system.world.env.commandBufferFails queue
    process.system.world.env.nextCommandBuffer target process.gpu ∧
    ∀ location ∉ bufferBytes hidden,
      target location = start.programs.perform performed start.gpu.memory location
  latest : ∀ index, last = some index → ∃ launch object,
    process.objects[index]? = some (.launch (some launch)) ∧
      process.system.world.launches.get? launch = some object ∧
      (object.impls ≠ [] →
        ∀ commandBuffer ∈ process.gpu.waiting.getLast?, commandBuffer ∈ object.impls)

theorem Flowing.launched {performed : List MgNodeAs} {last : Option Nat} {plan : MgGraphExec}
    (flowing : Flowing hidden queue start performed last process)
    (on : OnStream stream block queue start process) (sound : process.Sound)
    (complete : ∀ commandBuffer,
      start.system.world.env.commandBufferFails commandBuffer = false)
    (planned : process.objects[exec]? = some (.exec (some address)))
    (live : process.system.world.execs.get? address = some plan)
    (screened : plan.Screened start.programs hidden)
    (answered : ((PyCall.launch exec stream).run process).1 = .ok (.object index))
    (made : (process.after (.launch exec stream)).objects[index]? =
      some (.launch (some launch))) :
    Flowing hidden queue start (performed ++ plan.nodes.map MgExecNode.contents) (some index)
      (process.after (.launch exec stream)) := by
  obtain ⟨success, same⟩ := launch_made planned on.opened on.queued answered made
  obtain ⟨segments, built, events, commands, above, numbered, impls, kept⟩ :=
    launch_segments live success
  obtain ⟨target, draining, agrees⟩ := flowing.draining
  obtain ⟨reached, newest⟩ := draining.segments above numbered fun segment _ => complete _
  have observed : (process.after (.launch exec stream)).gpu =
      (segments.flatMap Segment.events).foldl (Gpu.observe start.programs
        start.system.world.env.commandBufferFails (some queue)) process.gpu := by
    rw [same, ← events, ← on.runs.1, ← on.runs.2]
  refine ⟨⟨start.programs.run (segments.flatMap Segment.commands) target, ?_, ?_⟩, ?_⟩
  · rw [observed, same]
    exact reached
  · intro location visible
    have does := launch_does_nodes sound.calls.reachable live success screened.avoids
      screened.honest target location fun inside => visible (screened.privateBytes_subset inside)
    have split : start.programs.perform (performed ++ plan.nodes.map MgExecNode.contents)
        start.gpu.memory = start.programs.perform (plan.nodes.map MgExecNode.contents)
          (start.programs.perform performed start.gpu.memory) := List.foldl_append
    rw [commands] at does
    rw [does, split]
    exact screened.perform_agrees agrees location visible
  · rintro _ ⟨⟩
    -- The launch has committed its segments last, so what is pending last is one of them.
    refine ⟨launch, built, made, by rw [same]; exact kept, ?_⟩
    intro filled commandBuffer final
    rw [impls] at filled ⊢
    rw [observed] at final
    exact newest (fun none => filled (by rw [none]; rfl)) commandBuffer final

theorem Flowing.synchronized {performed : List MgNodeAs} {last : Option Nat}
    (flowing : Flowing hidden queue start performed last process)
    (on : OnStream stream block queue start process) (sound : process.Sound)
    (answered : ((PyCall.synchronize index).run process).1 = .ok .nothing) :
    Flowing hidden queue start performed last (process.after (.synchronize index)) ∧
      (last = some index → (process.after (.synchronize index)).gpu.waiting = []) := by
  obtain ⟨handle, found, completed, same⟩ := synchronize_waited answered
  cases handle with
  | none => rcases completed with done | done <;> cases done
  | some launch =>
      have there : process.system.Live (.launch launch) :=
        (sound.alive _).mp (mem_nativesOf found rfl)
      obtain ⟨object, live⟩ := Option.isSome_iff_exists.mp there
      obtain ⟨filled, env, launches⟩ := synchronize_completed live completed
      have events : (process.system.record (.launchSynchronize (some launch))).events =
          waits process.system.world.env object.impls := by
        change (process.system.step (.launchSynchronize (some launch))).world.env.trace.drop _ = _
        rw [env]
        exact List.drop_left
      obtain ⟨target, draining, agrees⟩ := flowing.draining
      obtain ⟨reached, suffix, gone⟩ := draining.waited object.impls
        process.system.world.env.commandBufferFails rfl
      have observed : (process.after (.synchronize index)).gpu =
          (waits process.system.world.env object.impls).foldl (Gpu.observe start.programs
            start.system.world.env.commandBufferFails none) process.gpu := by
        rw [same, ← events, ← on.runs.1, ← on.runs.2]
      have counter : (process.after (.synchronize index)).system.world.env.nextCommandBuffer =
          process.system.world.env.nextCommandBuffer := by
        rw [same]
        exact (congrArg Env.nextCommandBuffer env).trans rfl
      rw [← waits, ← observed] at reached suffix gone
      refine ⟨⟨⟨target, counter ▸ reached, agrees⟩, ?_⟩, ?_⟩
      · intro final same'
        obtain ⟨newest, built, held, present, pending⟩ := flowing.latest final same'
        obtain ⟨kept, present', impls⟩ := launches newest built present
        refine ⟨newest, kept, by rw [same]; exact held, by rw [same]; exact present', ?_⟩
        rw [impls]
        intro busy commandBuffer listed
        exact pending busy commandBuffer (getLast_of_suffix suffix listed)
      · intro here
        obtain ⟨newest, built, held, present, pending⟩ := flowing.latest index here
        rw [found] at held
        cases held
        rw [live] at present
        cases present
        exact idle_of_waited suffix (pending filled) gone

theorem Streamed.flowing {performed : List MgNodeAs} {last : Option Nat}
    (streamed : Streamed hidden stream start performed last process)
    (first : OnStream stream block queue start start) (idle : start.gpu.Idle)
    (complete : ∀ commandBuffer,
      start.system.world.env.commandBufferFails commandBuffer = false)
    (bounded : process.system.world.env.heap.overflowed = false) :
    Flowing hidden queue start performed last process := by
  have sound {process : PyProcess} (reachable : process.Reachable)
      (bounded : process.system.world.env.heap.overflowed = false) : process.Sound :=
    reachable.sound.resolve_left (by simp [bounded])
  -- No count has run over at the end, so none had before any of the calls.
  induction streamed with
  | start => exact ⟨⟨start.gpu.memory, idle.draining, fun _ _ => rfl⟩, nofun⟩
  | launch before planned live screened answered made ih =>
      have on := before.onStream first
      obtain ⟨_, same⟩ := launch_made planned on.opened on.queued answered made
      have earlier := System.step_bounded (same ▸ bounded)
      exact (ih earlier).launched on (sound on.reachable earlier) complete planned live screened
        answered made
  | synchronize before answered ih =>
      have on := before.onStream first
      obtain ⟨_, _, _, same⟩ := synchronize_waited answered
      have earlier := System.step_bounded (same ▸ bounded)
      exact ((ih earlier).synchronized on (sound on.reachable earlier) answered).1
  | @progress _ _ process on before ih =>
      obtain ⟨⟨target, draining, agrees⟩, latest⟩ := ih bounded
      have moved : process.gpu.progress process.programs on =
          process.gpu.progress start.programs on := by
        rw [(before.onStream first).runs.1]
      obtain ⟨reached, suffix⟩ := draining.progress on
      rw [← moved] at reached suffix
      refine ⟨⟨target, reached, agrees⟩, ?_⟩
      intro index final
      obtain ⟨launch, object, held, present, pending⟩ := latest index final
      refine ⟨launch, object, held, present, ?_⟩
      intro filled commandBuffer listed
      exact pending filled commandBuffer (getLast_of_suffix suffix listed)

/-- Plans launched one after the other on a stream, at whatever pace the device runs them: once
the last launch is synchronized the device is idle, memory outside the workspaces is what
performing the nodes of the plans in order gives, and so is what the client reads. -/
theorem stream_performs_launches {performed : List MgNodeAs} {last : Nat}
    (reachable : start.Reachable) (idle : start.gpu.Idle)
    (opened : start.objects[stream]? = some (.stream (some block)))
    (queued : start.heap.cells.get? block = some (.stream ⟨some queue⟩))
    (complete : ∀ commandBuffer,
      start.system.world.env.commandBufferFails commandBuffer = false)
    (streamed : Streamed hidden stream start performed (some last) process)
    (answered : ((PyCall.synchronize last).run process).1 = .ok .nothing)
    (bounded : (process.after (.synchronize last)).system.world.env.heap.overflowed = false) :
    (process.after (.synchronize last)).gpu.Idle ∧
      (∀ location ∉ bufferBytes hidden,
        (process.after (.synchronize last)).gpu.memory location =
          start.programs.perform performed start.gpu.memory location) ∧
      ∀ buffer count handle info,
        (process.after (.synchronize last)).objects[buffer]? = some (.buffer (some handle) info) →
        handle.impl.id ∉ hidden →
        ((PyCall.readUint32s buffer count).run (process.after (.synchronize last))).1 =
          ((PyCall.readUint32s buffer count).run { process.after (.synchronize last) with
            gpu := .idle (start.programs.perform performed start.gpu.memory) }).1 := by
  have first : OnStream stream block queue start start := ⟨reachable, opened, queued, rfl, rfl⟩
  have on := streamed.onStream first
  obtain ⟨_, _, _, same⟩ := synchronize_waited answered
  have earlier := System.step_bounded (same ▸ bounded)
  have flowing := streamed.flowing first idle complete earlier
  have sound := on.reachable.sound.resolve_left (by simp [earlier])
  obtain ⟨⟨⟨target, draining, agrees⟩, _⟩, emptied⟩ := flowing.synchronized on sound answered
  have none : (process.after (.synchronize last)).gpu.pending = [] :=
    List.map_eq_nil_iff.mp (emptied rfl)
  have reached : (process.after (.synchronize last)).gpu.memory = target := by
    rw [← draining.reaches, none]
    rfl
  rw [← reached] at agrees
  refine ⟨⟨none, draining.encoded⟩, agrees, ?_⟩
  intro buffer count handle info held visible
  exact readUint32s_agrees count held visible agrees

end Streams

/-! Four words to which a plan adds one, launched twice. The second launch is made while the
first one is under way. -/

def addingReplay : PyProcess :=
  (PyProcess.initial (fun _ => true) (fun _ => false) (fun _ => true) true addOnePrograms (some 7)
    fun _ => none).run (replayCalls.take 7)

def addingDispatch : MgDispatchNode :=
  { relayDispatch with
    metallibPath := "phase0_test_kernels.metallib"
    threadsPerThreadgroup := ⟨1, 1, 1⟩
    buffers := [⟨0, relayBuffer 0, 0⟩] }

def addingNode : MgExecNode := .dispatch { addingDispatch with
  id := 1
  patchFlags := 0
  pipelineImpl := some ⟨"phase0_test_kernels.metallib", "mg_phase0_add_one"⟩ }

def launchedOnce : PyProcess := addingReplay.after (.launch 4 1)

def runningOnce : PyProcess :=
  { launchedOnce with gpu := launchedOnce.gpu.progress launchedOnce.programs (some 1) }

def launchedTwice : PyProcess := runningOnce.after (.launch 4 1)

/-- The nodes and the workspace of the plan. -/
def PyProcess.plan (process : PyProcess) : Option (List MgExecNode × Option MetalBuffer) :=
  (process.system.world.execs.get? 0).map fun plan => (plan.nodes, plan.workspace.backendImpl)

theorem addingNode_screened {process : PyProcess}
    (known : process.plan = some ([addingNode], none)) :
    ∃ plan, process.system.world.execs.get? 0 = some plan ∧ plan.nodes = [addingNode] ∧
      plan.Screened addOnePrograms ∅ := by
  obtain ⟨plan, live, same⟩ := Option.map_eq_some_iff.mp known
  obtain ⟨nodes, workspace⟩ := Prod.mk.injEq _ _ _ _ ▸ same
  refine ⟨plan, live, nodes, ?_, fun _ _ _ _ => Set.notMem_empty _, ?_⟩
  · intro backing present
    rw [workspace] at present
    cases present
  · intro node member
    rw [nodes, List.mem_singleton] at member
    subst member
    have footprint : (MgNodeAs.dispatch addingDispatch).footprint =
        ⟨(relayBuffer 0).impl.range 0 16, (relayBuffer 0).impl.range 0 16⟩ := by
      simp [MgNodeAs.footprint, addingDispatch, relayDispatch, MgDispatchNode.onlyReads,
        MgDispatchNode.boundRange, MgDispatchNode.resourceFor, mgDispatchFindResource,
        relayBuffer, sharedBuffer]
    change Confined _ (MgNodeAs.dispatch addingDispatch).footprint
    rw [footprint]
    exact addOne_confined (relayBuffer 0).impl 0 4

theorem addingReplay_runs : addingReplay.Runs addOnePrograms fun _ => false := by
  unfold addingReplay
  apply PyProcess.run_runs
  exact ⟨rfl, rfl⟩

theorem launchedTwice_streamed :
    Streamed ∅ 1 addingReplay [.dispatch addingDispatch, .dispatch addingDispatch] (some 6)
      launchedTwice := by
  have first : addingReplay.plan = some ([addingNode], none) := by decide +kernel
  have second : runningOnce.plan = some ([addingNode], none) := by decide +kernel
  have adding := addingReplay_runs.1
  obtain ⟨plan, live, nodes, screened⟩ := addingNode_screened first
  obtain ⟨plan', live', nodes', screened'⟩ := addingNode_screened second
  rw [← adding] at screened screened'
  have once : Streamed ∅ 1 addingReplay ([] ++ plan.nodes.map MgExecNode.contents) (some 5)
      launchedOnce :=
    @Streamed.launch ∅ 1 addingReplay [] none addingReplay 4 5 0 0 plan .start
      (by decide +kernel) live screened (by decide +kernel) (by decide +kernel)
  have running : Streamed ∅ 1 addingReplay ([] ++ plan.nodes.map MgExecNode.contents) (some 5)
      runningOnce := once.progress (some 1)
  have twice := @Streamed.launch ∅ 1 addingReplay ([] ++ plan.nodes.map MgExecNode.contents)
    (some 5) runningOnce 4 6 0 1 plan' running (by decide +kernel) live' screened'
    (by decide +kernel) (by decide +kernel)
  rw [nodes, nodes'] at twice
  exact twice

theorem stream_performs_launches_of_two :
    ((PyCall.readUint32s 2 4).run (launchedTwice.after (.synchronize 6))).1 =
      .ok (.words [3, 4, 5, 6]) := by
  have reachable : addingReplay.Reachable :=
    (PyProcess.Reachable.start _ _ _ _ _ _ _).run (by decide +kernel)
  have idle : addingReplay.gpu.Idle :=
    ⟨List.isEmpty_iff.mp (by decide +kernel), List.isEmpty_iff.mp (by decide +kernel)⟩
  have performed := stream_performs_launches reachable idle
    (show addingReplay.objects[1]? = some (.stream (some 1)) by decide +kernel)
    (show addingReplay.heap.cells.get? 1 = some (.stream ⟨some 1⟩) by decide +kernel)
    (congrFun addingReplay_runs.2) launchedTwice_streamed (by decide +kernel) (by decide +kernel)
  rw [performed.2.2 2 4 (relayBuffer 0) .default (by decide +kernel) (Set.notMem_empty _)]
  decide +kernel

end MetalGraph
