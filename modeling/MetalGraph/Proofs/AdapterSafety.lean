import MetalGraph.Proofs.AdapterCalls

set_option autoImplicit false

/- The Python adapter over whole runs: it keeps the library's rules, and its open objects
hold exactly what the library has given out. -/
namespace MetalGraph

open Eff

/-- The library has given out what these objects hold. -/
def Steady (objects : List PyObject) : PyProcess → Prop :=
  State objects (Holds (nativesOf objects) Blocks.Owns)

/-- What holds between calls. -/
def PyProcess.Sound (process : PyProcess) : Prop := Holds process.natives Blocks.Owns process

/-- A call that failed for a reason of its own. -/
def Failed (reason : PyError) : PyProcess → Prop :=
  Unless fun process => reason ≠ .undefined ∧ process.Sound

section Methods

variable {objects : List PyObject}

theorem Steady.sound {process : PyProcess} (steady : Steady objects process) :
    Unless PyProcess.Sound process := by
  obtain ⟨rfl, held⟩ := steady
  exact held

theorem refused_failed {reason : PyError} {process : PyProcess}
    (refused : Refused objects (nativesOf objects) reason process) : Failed reason process := by
  obtain ⟨rfl, held⟩ := refused
  exact held

theorem steady_refused {reason : PyError} {process : PyProcess} (steady : Steady objects process)
    (defined : reason ≠ .undefined) : Refused objects (nativesOf objects) reason process :=
  steady.weaken fun held => ⟨defined, held⟩

/-! ### Handles of the objects -/

theorem held_buffer {index : Nat} {object : PyObject} {handle : Option MgBuffer}
    (found : objects[index]? = some object) (view : object.asBuffer = some handle)
    {buffer : MgBuffer} (same : handle = some buffer) : .buffer buffer ∈ nativesOf objects := by
  subst same
  cases object <;> cases view
  exact mem_nativesOf found rfl

theorem held_graph {index : Nat} {object : PyObject} {handle : Option GraphPtr}
    (found : objects[index]? = some object) (view : object.asGraph = some handle)
    {graph : GraphPtr} (same : handle = some graph) : .graph graph ∈ nativesOf objects := by
  subst same
  cases object <;> cases view
  exact mem_nativesOf found rfl

theorem held_exec {index : Nat} {object : PyObject} {handle : Option ExecPtr}
    (found : objects[index]? = some object) (view : object.asExec = some handle)
    {exec : ExecPtr} (same : handle = some exec) : .exec exec ∈ nativesOf objects := by
  subst same
  cases object <;> cases view
  exact mem_nativesOf found rfl

theorem held_launch {index : Nat} {object : PyObject} {handle : Option LaunchPtr}
    (found : objects[index]? = some object) (view : object.asLaunch = some handle)
    {launch : LaunchPtr} (same : handle = some launch) : .launch launch ∈ nativesOf objects := by
  subst same
  cases object <;> cases view
  exact mem_nativesOf found rfl

theorem held_device {index : Nat} {object : PyObject} {handle : Option Nat}
    (found : objects[index]? = some object) (view : object.asDevice = some handle)
    {address : Nat} (same : handle = some address) : .device address ∈ nativesOf objects := by
  subst same
  cases object <;> cases view
  exact mem_nativesOf found rfl

theorem held_stream {index : Nat} {object : PyObject} {handle : Option Nat}
    (found : objects[index]? = some object) (view : object.asStream = some handle)
    {address : Nat} (same : handle = some address) : .stream address ∈ nativesOf objects := by
  subst same
  cases object <;> cases view
  exact mem_nativesOf found rfl

/-- A handle of one of the tables is null or live. -/
theorem Calls.handleAlive {τ : Type} {natives : Multiset Native} {system : System}
    (calls : Calls natives system) {handle : Option Nat} {native : Nat → Native}
    {table : Slots τ} (held : ∀ address, handle = some address → native address ∈ natives)
    (isTable : ∀ address, (native address).isBlock = false)
    (tabled : ∀ address, system.Live (native address) → (table.get? address).isSome = true) :
    MetalGraph.handleAlive table handle = true := by
  cases handle with
  | none => rfl
  | some address =>
      exact tabled address ((calls.live _ (isTable address)).mp (held address rfl))

theorem Calls.bufferAlive {natives : Multiset Native} {system : System}
    (calls : Calls natives system) {handle : Option MgBuffer}
    (held : ∀ buffer, handle = some buffer → .buffer buffer ∈ natives) :
    system.world.bufferAlive handle = true := by
  cases handle with
  | none => rfl
  | some buffer => exact ((calls.live (.buffer buffer) rfl).mp (held buffer rfl)).2

/-! ### What the methods make -/

/-- A call whose result becomes a new object. -/
theorem making {α : Type} {call : Eff PyProcess Fault α} {view : α → Option Native}
    {wrap : Option α → PyObject} (spec : Makes objects (nativesOf objects) view call)
    (wraps : ∀ out, (wrap out).native = out.bind view) :
    Triple (Steady objects)
      (do
        let answer ← answering call
        let out ← check answer
        newObject (wrap out))
      (fun index process => index = objects.length ∧
        ∃ out, Steady (objects ++ [wrap out]) process)
      (Refused objects (nativesOf objects)) := by
  apply (answering_answers spec).bind
  intro answer
  apply (check_checked answer).bind
  intro out
  apply (newObject_adds (wrap out)).weaken (fun _ start => start) _ fun _ _ stop => stop
  rintro index process ⟨position, state⟩
  refine ⟨position, out, ?_⟩
  rw [← wraps out, ← nativesOf_append] at state
  exact state

theorem deviceAt_reads {natives : Multiset Native} {handle : Option Nat}
    (held : ∀ address, handle = some address → .device address ∈ natives)
    (handles : Multiset (Nat × HeapBlock)) (standing : StandFor handles natives) :
    Triple (Blocks.Owns handles) (deviceAt handle) (fun _ => Blocks.Owns handles)
      fun _ _ => False := by
  cases handle with
  | none => exact Triple.pure fun _ owns => owns
  | some address =>
      obtain ⟨⟨other, block⟩, member, stands⟩ := standing.there rfl (held address rfl)
      cases block with
      | device device =>
          cases stands
          exact Blocks.load_then _ member (Triple.pure fun _ owns => owns)
      | error | text | stream => cases stands

theorem streamAt_reads {natives : Multiset Native} {handle : Option Nat}
    (held : ∀ address, handle = some address → .stream address ∈ natives)
    (handles : Multiset (Nat × HeapBlock)) (standing : StandFor handles natives) :
    Triple (Blocks.Owns handles) (streamAt handle) (fun _ => Blocks.Owns handles)
      fun _ _ => False := by
  cases handle with
  | none => exact Triple.pure fun _ owns => owns
  | some address =>
      obtain ⟨⟨other, block⟩, member, stands⟩ := standing.there rfl (held address rfl)
      cases block with
      | stream stream =>
          cases stands
          exact Blocks.load_then _ member (Triple.pure fun _ owns => owns)
      | error | text | device => cases stands

/-- The last step of a constructor: the new block, or out of memory. -/
theorem created_gives {owned : Multiset (Nat × HeapBlock)} {native : Nat → Native}
    {content : HeapBlock} (stands : ∀ address, nativeOf (address, content) = some (native address))
    (created : Option Nat) :
    Triple (Blocks.Owns (Blocks.pointed created content + owned))
      (orFail created (mgSetOom .create) : OnBlocks Nat)
      (fun address heap => ∃ block, nativeOf (address, block) = some (native address) ∧
        Blocks.Owns ((address, block) ::ₘ owned) heap)
      fun reason heap => reason ≠ .undefined ∧ Blocks.Owns owned heap := by
  intro heap owns
  cases created with
  | none => exact ⟨oom_defined _, by simpa using owns⟩
  | some address => exact ⟨content, stands address, by simpa using owns⟩

theorem systemDefault_makes (metalDevice : Option Nat) :
    Makes objects (nativesOf objects) (fun address => some (.device address))
      (onBlocks (mgDeviceCreateSystemDefault metalDevice)) := by
  apply onBlocks_gives _ fun _ => rfl
  intro owned _
  apply Triple.orFail
  · intro metalDevice _
    apply (Blocks.malloc_owns _).bind
    exact created_gives fun _ => rfl
  · intro _ heap owns
    exact ⟨by simp [mgSetError], owns⟩

theorem systemDefault_run : Triple (Steady objects) Device.systemDefault
    (fun _ => Unless PyProcess.Sound) Failed := by
  apply read_then
  intro process
  have made := making (@systemDefault_makes objects process.systemDefault) fun out =>
    (by cases out <;> rfl : (PyObject.device out).native = out.bind fun address =>
      some (.device address))
  exact made.weaken (fun _ start => start.2) (fun _ _ ⟨_, _, steady⟩ => steady.sound)
    fun _ _ => refused_failed

theorem streamCreate_makes {handle : Option Nat}
    (held : ∀ address, handle = some address → .device address ∈ nativesOf objects) :
    Makes objects (nativesOf objects) (fun address => some (.stream address))
      (onBlocks (mgStreamCreate handle)) := by
  apply onBlocks_gives _ fun _ => rfl
  intro owned standing
  apply Triple.bind
  · apply (deviceAt_reads held owned standing).weaken (fun _ start => start) (fun _ _ owns => owns)
    intro _ _ absurdity
    exact absurdity.elim
  · intro object
    apply Triple.orFail
    · intro metalDevice _
      apply Blocks.ask_owns.bind
      intro queued
      apply Triple.require
      · intro _
        apply (Blocks.malloc_owns _).bind
        intro created
        apply Triple.orFail
        · rintro address rfl
          rw [Blocks.pointed_some, Multiset.singleton_add]
          apply (Blocks.store_owns _ _).bind
          intro _
          exact Triple.pure fun _ owns => ⟨_, rfl, owns⟩
        · rintro rfl heap owns
          exact ⟨oom_defined _, by simpa using owns⟩
      · intro _ heap owns
        exact ⟨by simp [mgSetError], owns⟩
    · intro _ heap owns
      exact ⟨by simp [mgSetError], owns⟩

theorem streamCreate_run (device : Nat) : Triple (Steady objects) (Stream.create device)
    (fun _ => Unless PyProcess.Sound) Failed := by
  apply handleOf_then
  · intro object handle found view
    have made := making (streamCreate_makes fun address => held_device found view) fun out =>
      (by cases out <;> rfl : (PyObject.stream out).native = out.bind fun address =>
        some (.stream address))
    exact made.weaken (fun _ start => start) (fun _ _ ⟨_, _, steady⟩ => steady.sound)
      fun _ _ => refused_failed
  · exact fun _ steady => refused_failed (steady_refused steady (by simp))

/-- Reading a block before a call of the library. -/
theorem Makes.after_read {α β : Type} {natives : Multiset Native} {view : β → Option Native}
    {body : OnBlocks α} {call : α → Eff PyProcess Fault β}
    (reads : ∀ handles, StandFor handles natives → Triple (Blocks.Owns handles) body
      (fun _ => Blocks.Owns handles) fun _ _ => False)
    (makes : ∀ object, Makes objects natives view (call object)) :
    Makes objects natives view (onBlocks body >>= call) :=
  (onBlocks_reads reads).bind makes

/-- What the calls of the adapter answer. -/
theorem created_buffer {system : System} {device : Option MgDevice} {length : UInt64}
    {response : Response} (answer : (system.record (.counted
      (.bufferCreateShared device length))).result = .ok response) :
    ∃ buffer, response = .buffer buffer := by
  obtain ⟨world, _, step⟩ := recorded_step answer
  cases step with
  | nothing missed => exact missed.elim
  | counted call ran =>
      rcases answer_cases ran with ⟨_, failed⟩ | ⟨buffer, same⟩
      · cases failed
      · cases same
        exact ⟨buffer, rfl⟩

theorem created_graph {system : System} {response : Response}
    (answer : (system.record .graphCreate).result = .ok response) :
    ∃ graph, response = .graph graph := by
  obtain ⟨world, _, step⟩ := recorded_step answer
  cases step with
  | nothing missed => exact missed.elim
  | graphCreate ran => exact ⟨_, rfl⟩

theorem added_node {system : System} {graph : Option GraphPtr} {edit : GraphEdit}
    {response : Response}
    (answer : (system.record (.graphEdit graph edit)).result = .ok response) :
    response.native = none := by
  obtain ⟨world, _, step⟩ := recorded_step answer
  cases step with
  | nothing => rfl
  | graphEdit live ran => exact GraphEdit.given_none ran

theorem instantiated_exec {system : System} {graph : Option GraphPtr} {device : Option MgDevice}
    {response : Response}
    (answer : (system.record (.graphInstantiate graph device)).result = .ok response) :
    response.native = response.toExec.map .exec := by
  obtain ⟨world, _, step⟩ := recorded_step answer
  cases step <;> rfl

theorem launched_launch {system : System} {exec : Option ExecPtr} {stream : Option MgStream}
    {response : Response}
    (answer : (system.record (.graphLaunch exec stream)).result = .ok response) :
    response.native = response.toLaunch.map .launch := by
  obtain ⟨world, _, step⟩ := recorded_step answer
  cases step <;> rfl

theorem synchronized_none {system : System} {launch : Option LaunchPtr} {response : Response}
    (answer : (system.record (.launchSynchronize launch)).result = .ok response) :
    response.native = none := by
  obtain ⟨world, _, step⟩ := recorded_step answer
  generalize reached : (Except.ok response : Except Fault Response) = result at step
  cases step with
  | nothing => cases reached; rfl
  | refused => cases reached
  | @launchSynchronize _ _ result =>
      cases result <;> cases reached
      rfl

/-! ### Buffers -/

theorem bufferShared_makes (device : Option MgDevice) (length : UInt64)
    (natives : Multiset Native) :
    Makes objects natives (fun response => response.toBuffer.map .buffer)
      (native none (.counted (.bufferCreateShared device length))) := by
  apply native_gives rfl rfl fun _ _ => rfl
  intro system response answer
  obtain ⟨buffer, rfl⟩ := created_buffer answer
  rfl

theorem bufferShared_made (device : Nat) (length : Int) :
    Triple (Steady objects) (Buffer.shared device length)
      (fun index process => index = objects.length ∧ ∃ handle,
        Steady (objects ++ [.buffer handle .default]) process)
      (Refused objects (nativesOf objects)) := by
  apply handleOf_then
  · intro object handle found view
    have made := making (Makes.after_read (deviceAt_reads fun address => held_device found view)
      fun device => bufferShared_makes device (sizeT length) (nativesOf objects)) fun out =>
      (by cases out <;> rfl : (PyObject.buffer (out.bind Response.toBuffer) .default).native =
        out.bind fun response => response.toBuffer.map .buffer)
    apply made.weaken (fun _ start => start) _ fun _ _ stop => stop
    rintro index process ⟨position, out, steady⟩
    exact ⟨position, _, steady⟩
  · exact fun _ steady => steady_refused steady (by simp)

/-- A buffer whose handle is not null is there. -/
theorem pointee_reads (index : Nat) : Triple (Steady objects) (Buffer.pointee index)
    (fun _ => Steady objects) (Refused objects (nativesOf objects)) := by
  apply handleOf_then
  · intro object handle found view
    apply read_then
    intro process inner start
    obtain ⟨rfl, same, held⟩ := start
    by_cases alive : inner.system.world.bufferAlive handle = true
    · rw [bind_of_ok _ (require_of _ _ _ alive)]
      exact ⟨same, held⟩
    · rw [bind_of_error _ (require_of_not _ _ _ alive)]
      refine ⟨same, held.imp_right fun holds => ?_⟩
      exact (alive (holds.calls.bufferAlive fun buffer => held_buffer found view)).elim
  · exact fun _ steady => steady_refused steady (by simp)

theorem length_reads (index : Nat) : Triple (Steady objects) (Buffer.length index)
    (fun _ => Steady objects) (Refused objects (nativesOf objects)) :=
  (pointee_reads index).bind fun _ => Triple.pure fun _ steady => steady

theorem contents_reads (index : Nat) : Triple (Steady objects) (Buffer.contents index)
    (fun _ => Steady objects) (Refused objects (nativesOf objects)) := by
  apply (pointee_reads index).bind
  intro buffer process steady
  rcases mgBufferContents buffer with _ | place
  · exact steady_refused steady (by simp)
  · exact steady

theorem write_writes (index : Nat) (bytes : List UInt8) :
    Triple (Steady objects) (Buffer.write index bytes) (fun _ => Steady objects)
      (Refused objects (nativesOf objects)) := by
  apply (length_reads index).bind
  intro length
  apply Triple.require
  · intro _
    apply (contents_reads index).bind
    intro place
    apply Triple.update
    intro process steady
    exact ⟨steady.1, steady.2.imp_right fun holds => holds.framed rfl rfl⟩
  · exact fun _ _ steady => steady_refused steady (by simp)

theorem readUint32s_reads (index : Nat) (count : Int) :
    Triple (Steady objects) (Buffer.readUint32s index count) (fun _ => Steady objects)
      (Refused objects (nativesOf objects)) := by
  apply (length_reads index).bind
  intro length
  apply Triple.require
  · intro _
    apply Triple.require
    · intro _
      apply (contents_reads index).bind
      intro place
      apply read_then
      intro process
      exact Triple.pure fun _ start => start.2
    · exact fun _ _ steady => steady_refused steady (by simp)
  · exact fun _ _ steady => steady_refused steady (by simp)

/-! ### Graphs, plans and launches -/

/-- A call that gives out nothing. -/
theorem asking {α β : Type} {call : Eff PyProcess Fault α} {result : Option α → β}
    (spec : Makes objects (nativesOf objects) (fun _ => none) call) :
    Triple (Steady objects)
      (do
        let answer ← answering call
        let out ← check answer
        pure (result out))
      (fun _ => Steady objects) (Refused objects (nativesOf objects)) := by
  apply (answering_answers spec).bind
  intro answer
  apply (check_checked answer).bind
  intro out
  apply Triple.pure
  intro process state
  have nothing : (out.bind fun _ => (none : Option Native)) = none := by cases out <;> rfl
  rwa [nothing] at state

theorem graphCreate_run : Triple (Steady objects) Graph.create
    (fun _ => Unless PyProcess.Sound) Failed := by
  have created : Makes objects (nativesOf objects) (fun response => response.toGraph.map .graph)
      (native none .graphCreate) := by
    apply native_gives rfl rfl fun _ _ => rfl
    intro system response answer
    obtain ⟨graph, rfl⟩ := created_graph answer
    rfl
  have made := making created fun out =>
    (by cases out <;> rfl : (PyObject.graph (out.bind Response.toGraph)).native =
      out.bind fun response => response.toGraph.map .graph)
  exact made.weaken (fun _ start => start) (fun _ _ ⟨_, _, steady⟩ => steady.sound)
    fun _ _ => refused_failed

theorem addDispatchNode_run (graph : Nat) (arguments : DispatchArguments) :
    Triple (Steady objects) (Graph.addDispatchNode graph arguments)
      (fun _ => Unless PyProcess.Sound) Failed := by
  have stops : ∀ process, Steady objects process → Failed .wrongClass process :=
    fun _ steady => refused_failed (steady_refused steady (by simp))
  apply handleOf_then _ stops
  intro object buffer found view
  apply handleOf_then _ stops
  intro object' handle found' view'
  have added : Makes objects (nativesOf objects) (fun _ => none) (native none
      (.graphEdit handle (.addNode (.dispatch (some (arguments.desc buffer)))))) := by
    apply native_gives rfl rfl
    · intro system calls
      have graphs : handleAlive system.world.graphs handle = true :=
        calls.handleAlive (fun graph => held_graph found' view') (fun _ => rfl) fun _ => id
      have buffers := calls.bufferAlive fun buffer => held_buffer found view
      simp only [System.permits, World.editAlive, World.additionAlive, graphs, Bool.true_and]
      simp [DispatchArguments.desc, buffers]
    · exact fun _ _ answer => (added_node answer).symm
  exact (asking added).weaken (fun _ start => start) (fun _ _ steady => steady.sound)
    fun _ _ => refused_failed

theorem instantiate_run (graph device : Nat) :
    Triple (Steady objects) (Graph.instantiate graph device)
    (fun _ => Unless PyProcess.Sound) Failed := by
  have stops : ∀ process, Steady objects process → Failed .wrongClass process :=
    fun _ steady => refused_failed (steady_refused steady (by simp))
  apply handleOf_then _ stops
  intro object handle found view
  apply handleOf_then _ stops
  intro object' handle' found' view'
  have instantiated (device : Option MgDevice) : Makes objects (nativesOf objects)
      (fun response => response.toExec.map .exec)
      (native none (.graphInstantiate handle device)) := by
    apply native_gives rfl rfl
    · intro system calls
      exact calls.handleAlive (fun graph => held_graph found view) (fun _ => rfl) fun _ => id
    · exact fun _ _ answer => (instantiated_exec answer).symm
  have made := making (Makes.after_read (deviceAt_reads fun address => held_device found' view')
    instantiated) fun out => (by cases out <;> rfl :
      (PyObject.exec (out.bind Response.toExec)).native =
        out.bind fun response => response.toExec.map .exec)
  exact made.weaken (fun _ start => start) (fun _ _ ⟨_, _, steady⟩ => steady.sound)
    fun _ _ => refused_failed

theorem launch_run (exec stream : Nat) : Triple (Steady objects) (GraphExec.launch exec stream)
    (fun _ => Unless PyProcess.Sound) Failed := by
  have stops : ∀ process, Steady objects process → Failed .wrongClass process :=
    fun _ steady => refused_failed (steady_refused steady (by simp))
  apply handleOf_then _ stops
  intro object handle found view
  apply handleOf_then _ stops
  intro object' handle' found' view'
  have launched (stream : Option MgStream) : Makes objects (nativesOf objects)
      (fun response => response.toLaunch.map .launch)
      (native (stream.bind MgStream.impl) (.graphLaunch handle stream)) := by
    apply native_gives rfl rfl
    · intro system calls
      exact calls.handleAlive (fun exec => held_exec found view) (fun _ => rfl) fun _ => id
    · exact fun _ _ answer => (launched_launch answer).symm
  have made := making (Makes.after_read (streamAt_reads fun address => held_stream found' view')
    launched) fun out => (by cases out <;> rfl :
      (PyObject.launch (out.bind Response.toLaunch)).native =
        out.bind fun response => response.toLaunch.map .launch)
  exact made.weaken (fun _ start => start) (fun _ _ ⟨_, _, steady⟩ => steady.sound)
    fun _ _ => refused_failed

theorem synchronize_run (launch : Nat) : Triple (Steady objects) (Launch.synchronize launch)
    (fun _ => Unless PyProcess.Sound) Failed := by
  apply handleOf_then
  · intro object handle found view
    have synchronized : Makes objects (nativesOf objects) (fun _ => none)
        (native none (.launchSynchronize handle)) := by
      apply native_gives rfl rfl
      · intro system calls
        exact calls.handleAlive (fun launch => held_launch found view) (fun _ => rfl) fun _ => id
      · exact fun _ _ answer => (synchronized_none answer).symm
    exact (asking synchronized).weaken (fun _ start => start) (fun _ _ steady => steady.sound)
      fun _ _ => refused_failed
  · exact fun _ steady => refused_failed (steady_refused steady (by simp))

theorem readDiagnostics_reads {handle : Option ExecPtr}
    (held : ∀ exec, handle = some exec → .exec exec ∈ nativesOf objects) :
    Makes objects (nativesOf objects) (fun _ => none) (GraphExec.readDiagnostics handle) := by
  apply Triple.orFail
  · rintro exec rfl
    apply read_then
    intro process
    apply Triple.orFail
    · intro object present
      exact fun _ start => start.2
    · rintro missing inner ⟨rfl, same, safe⟩
      refine ⟨same, safe.imp_right fun holds => ?_⟩
      have live : (inner.system.world.execs.get? exec).isSome = true :=
        (holds.calls.live (.exec exec) rfl).mp (held exec rfl)
      simp [missing] at live
  · rintro _ process ⟨same, safe⟩
    exact ⟨same, safe.imp_right fun holds => ⟨by simp [patchFault, mgSetError], holds⟩⟩

theorem diagnostics_run (exec : Nat) : Triple (Steady objects) (GraphExec.diagnostics exec)
    (fun _ => Unless PyProcess.Sound) Failed := by
  apply handleOf_then
  · intro object handle found view
    apply (asking (readDiagnostics_reads fun exec => held_exec found view)).weaken
      (fun _ start => start) (fun _ _ steady => steady.sound) fun _ _ => refused_failed
  · exact fun _ steady => refused_failed (steady_refused steady (by simp))

/-! ### Closing -/

theorem released_takes {call : Call} {natives : Multiset Native} {taken : Native}
    (plain : call.plain = true) (takes : call.takes = some taken) :
    Triple (State objects fun process => Holds (taken ::ₘ natives) Blocks.Owns process ∧
        process.system.permits call = true) (Native.destroy.released call)
      (fun _ => State objects (Holds natives Blocks.Owns))
      fun _ => State objects fun _ => False := by
  have done : Triple (State objects fun process => Holds (taken ::ₘ natives) Blocks.Owns process ∧
      process.system.permits call = true)
      (do
        let _ ← native none call
        pure () : Eff PyProcess Fault Unit)
      (fun _ => State objects (Holds natives Blocks.Owns)) fun _ => State objects fun _ => False :=
    (native_takes plain takes).bind fun _ => Triple.pure fun _ start => start
  exact done.catching fun _ => Triple.fail fun _ start => start

theorem deviceDestroy_frees (address : Nat) (entry : Nat × HeapBlock)
    (owned : Multiset (Nat × HeapBlock)) (stands : nativeOf entry = some (.device address)) :
    Triple (Blocks.Owns (entry ::ₘ owned)) (mgDeviceDestroy (some address))
      (fun _ => Blocks.Owns owned) fun _ _ => False := by
  obtain ⟨other, block⟩ := entry
  cases block with
  | device device =>
      cases stands
      have read : Triple (Blocks.Owns ((other, .device device) ::ₘ owned)) (deviceAt (some other))
          (fun _ => Blocks.Owns ((other, .device device) ::ₘ owned)) fun _ _ => False :=
        Blocks.load_then _ (Multiset.mem_cons_self _ _) (Triple.pure fun _ owns => owns)
      exact read.bind fun _ => Blocks.free_owns _
  | error | text | stream => cases stands

theorem streamDestroy_frees (address : Nat) (entry : Nat × HeapBlock)
    (owned : Multiset (Nat × HeapBlock)) (stands : nativeOf entry = some (.stream address)) :
    Triple (Blocks.Owns (entry ::ₘ owned)) (mgStreamDestroy (some address))
      (fun _ => Blocks.Owns owned) fun _ _ => False := by
  obtain ⟨other, block⟩ := entry
  cases block with
  | stream stream =>
      cases stands
      have read : Triple (Blocks.Owns ((other, .stream stream) ::ₘ owned)) (streamAt (some other))
          (fun _ => Blocks.Owns ((other, .stream stream) ::ₘ owned)) fun _ _ => False :=
        Blocks.load_then _ (Multiset.mem_cons_self _ _) (Triple.pure fun _ owns => owns)
      exact read.bind fun _ => Blocks.free_owns _
  | error | text | device => cases stands

/-- Destroying what a handle stands for takes the handle, and never fails. -/
theorem destroy_takes {natives : Multiset Native} (handle : Native) :
    Triple (State objects fun process => Holds (handle ::ₘ natives) Blocks.Owns process ∧
        ∀ exec, handle = .exec exec → process.system.world.busy exec = false) handle.destroy
      (fun _ => State objects (Holds natives Blocks.Owns))
      fun _ => State objects fun _ => False := by
  have live {process : PyProcess} (table : handle.isBlock = false)
      (holds : Holds (handle ::ₘ natives) Blocks.Owns process) : process.system.Live handle :=
    (holds.calls.live handle table).mp (Multiset.mem_cons_self _ _)
  cases handle with
  | device address =>
      apply Triple.weaken (onHeap_takes (deviceDestroy_frees address) rfl
        fun _ wrapped same => ⟨same, .inl wrapped⟩) _ (fun _ _ finish => finish)
        fun _ _ stop => stop
      intro process start
      exact start.weaken And.left
  | stream address =>
      apply Triple.weaken (onHeap_takes (streamDestroy_frees address) rfl
        fun _ wrapped same => ⟨same, .inl wrapped⟩) _ (fun _ _ finish => finish)
        fun _ _ stop => stop
      intro process start
      exact start.weaken And.left
  | buffer buffer =>
      apply (released_takes rfl rfl).weaken _ (fun _ _ finish => finish) fun _ _ stop => stop
      intro process start
      apply start.weaken
      rintro ⟨holds, _⟩
      obtain ⟨owned, alive⟩ := live rfl holds
      exact ⟨holds, by simpa [System.permits, System.permitsObject, System.owns, owned] using alive⟩
  | graph address =>
      apply (released_takes rfl rfl).weaken _ (fun _ _ finish => finish) fun _ _ stop => stop
      intro process start
      exact start.weaken fun held => ⟨held.1, live rfl held.1⟩
  | exec address =>
      apply (released_takes rfl rfl).weaken _ (fun _ _ finish => finish) fun _ _ stop => stop
      intro process start
      apply start.weaken
      rintro ⟨holds, idle⟩
      exact ⟨holds, Bool.and_eq_true_iff.mpr ⟨live rfl holds, by simp [idle address rfl]⟩⟩
  | launch address =>
      apply (released_takes rfl rfl).weaken _ (fun _ _ finish => finish) fun _ _ stop => stop
      intro process start
      exact start.weaken fun held => ⟨held.1, live rfl held.1⟩

theorem closed_native (object : PyObject) : object.closed.native = none := by
  cases object <;> rfl

/-- An object without a handle is closed. -/
theorem closed_of_null {object : PyObject} (null : object.native = none) :
    object.closed = object := by
  cases object <;> simp_all [PyObject.native, PyObject.closed]

theorem nativesOf_cons (object : PyObject) (rest : List PyObject) :
    nativesOf (object :: rest) = adding (nativesOf rest) object.native := by
  unfold nativesOf
  rcases held : object.native with _ | native
  · rw [List.filterMap_cons_none held]
    rfl
  · rw [List.filterMap_cons_some held]
    rfl

/-- Closing an object gives back its handle. -/
theorem nativesOf_closed {index : Nat} {object : PyObject} {native : Native}
    (found : objects[index]? = some object) (held : object.native = some native) :
    nativesOf objects = native ::ₘ nativesOf (objects.set index object.closed) := by
  induction objects generalizing index with
  | nil => simp at found
  | cons first rest ih =>
      cases index with
      | zero =>
          cases found
          rw [List.set_cons_zero, nativesOf_cons, nativesOf_cons, closed_native, held]
          rfl
      | succ index =>
          rw [List.set_cons_succ, nativesOf_cons, nativesOf_cons, ih found]
          rcases first.native with _ | other
          · rfl
          · rw [adding_some, adding_some]
            exact Multiset.cons_swap other native _

/-- Closing an object gives back what it holds, and fails for no reason. -/
theorem close_closes {index : Nat} {object : PyObject} (found : objects[index]? = some object) :
    Triple (fun process => Steady objects process ∧ process.permits (.close index) = true)
      (close index) (fun _ => Steady (objects.set index object.closed))
      fun _ => State objects fun _ => False := by
  rintro process ⟨⟨same, safe⟩, permitted⟩
  subst same
  have here : objectAt index process = (.ok object, process) := by
    simp [objectAt, bind_apply, found]
  rw [close, bind_of_ok _ here]
  rcases held : object.native with _ | handle
  · have unchanged : process.objects.set index object.closed = process.objects := by
      obtain ⟨inside, rfl⟩ := List.getElem?_eq_some_iff.mp found
      rw [closed_of_null held, List.set_getElem_self]
    rw [unchanged]
    exact ⟨rfl, safe⟩
  · simp only [PyProcess.permits, found] at permitted
    have idle : ∀ exec, handle = .exec exec → process.system.world.busy exec = false := by
      rintro exec rfl
      cases object <;> simp [PyObject.native] at held
      subst held
      simpa using permitted
    apply (destroy_takes handle).bind (fun _ => setObject_sets index object.closed) process
    refine ⟨rfl, safe.imp_right fun holds => ⟨?_, idle⟩⟩
    rwa [nativesOf_closed found held] at holds

theorem close_run (index : Nat) :
    Triple (fun process => Steady objects process ∧ process.permits (.close index) = true)
      (close index) (fun _ => Unless PyProcess.Sound) Failed := by
  rcases found : objects[index]? with _ | object
  · rintro process ⟨⟨same, safe⟩, _⟩
    subst same
    have missing : objectAt index process = (.error .wrongClass, process) := by
      simp [objectAt, bind_apply, found]
    rw [close, bind_of_error _ missing]
    exact refused_failed (steady_refused ⟨rfl, safe⟩ (by simp))
  · apply (close_closes found).weaken (fun _ start => start) (fun _ _ steady => steady.sound)
    rintro reason process ⟨_, wrapped | absurdity⟩
    · exact .inl wrapped
    · exact absurdity.elim

/-! ### Imports -/

theorem memoryview_defined {array : PySource} {reason : PyError}
    (refused : memoryviewForExplicitCopy array = .error reason) : reason ≠ .undefined := by
  rintro rfl
  unfold memoryviewForExplicitCopy at refused
  rcases present : array.view with _ | view <;> simp only [present] at refused
  · cases refused
  · rcases except_bind_error.mp refused with empty | ⟨_, _, refused⟩
    · cases (demand_error.mp empty).2
    · rcases except_bind_error.mp refused with strided | ⟨_, _, absurdity⟩
      · cases (demand_error.mp strided).2
      · cases absurdity

/-- An object that is replaced by one with the same handle. -/
theorem nativesOf_set {index : Nat} {object other : PyObject}
    (found : objects[index]? = some object) (same : other.native = object.native) :
    nativesOf (objects.set index other) = nativesOf objects := by
  induction objects generalizing index with
  | nil => simp at found
  | cons first rest ih =>
      cases index with
      | zero =>
          cases found
          rw [List.set_cons_zero, nativesOf_cons, nativesOf_cons, same]
      | succ index => rw [List.set_cons_succ, nativesOf_cons, nativesOf_cons, ih found]

theorem setInfo_sets (index : Nat) (info : BufferInfo) : Triple (Steady objects)
    (Buffer.setInfo index info) (fun _ => Unless PyProcess.Sound) Failed := by
  apply handleOf_then
  · intro object handle found view
    have same : (PyObject.buffer handle info).native = object.native := by
      cases object <;> cases view
      rfl
    apply (setObject_sets index _).weaken (fun _ start => start) _ fun _ _ stop => stop
    intro _ process state
    rw [← nativesOf_set found same] at state
    exact Steady.sound state
  · exact fun _ steady => refused_failed (steady_refused steady (by simp))

/-- What a copy that does not fit leaves behind: nothing. -/
theorem discard_run {index : Nat} {object : PyObject} (found : objects[index]? = some object)
    (buffer : object.asBuffer.isSome = true) (reason : PyError) :
    Triple (Refused objects (nativesOf objects) reason)
      (do
        whenever (reason.isException = true) (close index)
        fail reason : Py Unit)
      (fun _ => Steady objects) Failed := by
  cases reason with
  | undefined =>
      apply Triple.fail
      rintro process ⟨same, wrapped | ⟨absurdity, _⟩⟩
      · exact .inl wrapped
      · exact (absurdity rfl).elim
  | _ =>
      have closed : Triple (fun process => Steady objects process ∧
          process.permits (.close index) = true) (close index)
          (fun _ => Steady (objects.set index object.closed)) Failed := by
        apply (close_closes found).weaken (fun _ start => start) fun _ _ steady => steady
        rintro reason process ⟨_, wrapped | absurdity⟩
        · exact .inl wrapped
        · exact absurdity.elim
      apply Triple.bind
      · apply closed.weaken _ (fun _ _ steady => steady) fun _ _ stop => stop
        rintro process ⟨same, safe⟩
        refine ⟨⟨same, safe.imp_right And.right⟩, ?_⟩
        simp only [PyProcess.permits, same, found]
        cases object <;> simp_all [PyObject.asBuffer]
      · intro _
        apply Triple.fail
        exact fun _ steady => refused_failed (steady_refused steady (by simp))

theorem importMlxArray_run (array : PySource) (mode : String) (device : Option Nat) :
    Triple (Steady objects) (importMlxArray array mode device)
      (fun _ => Unless PyProcess.Sound) Failed := by
  have stops {reason : PyError} (defined : reason ≠ .undefined) (process : PyProcess)
      (steady : Steady objects process) : Failed reason process :=
    refused_failed (steady_refused steady defined)
  apply Triple.require _ fun _ => stops (by simp)
  intro _
  apply Triple.require _ fun _ => stops (by simp [badMode])
  intro _
  apply Triple.orFail _ fun _ => stops (by simp)
  intro device _
  apply Triple.ofExcept _ fun _ refused => stops (memoryview_defined refused)
  intro source _
  apply Triple.bind
  · exact (bufferShared_made device source.length).weaken (fun _ start => start)
      (fun _ _ made => made) fun _ _ => refused_failed
  · rintro index process ⟨rfl, handle, steady⟩
    have found : (objects ++ [PyObject.buffer handle .default])[objects.length]? =
        some (.buffer handle .default) := by simp
    have copied : Triple (Steady (objects ++ [.buffer handle .default]))
        (catching (Buffer.writeBytes objects.length source) fun reason => do
          whenever (reason.isException = true) (close objects.length)
          fail reason)
        (fun _ => Steady (objects ++ [.buffer handle .default])) Failed :=
      (write_writes objects.length source).catching fun reason => discard_run found rfl reason
    apply copied.bind _ process steady
    intro _
    apply (setInfo_sets objects.length _).bind
    intro _
    exact Triple.pure fun _ sound => sound

/-! ### Runs -/

theorem PyCall.run_sound (call : PyCall) :
    Triple (fun process => Steady objects process ∧ process.permits call = true) call.run
      (fun _ => Unless PyProcess.Sound) Failed := by
  have plain {α : Type} {body : Py α} {answer : α → PyValue}
      (spec : Triple (Steady objects) body (fun _ => Unless PyProcess.Sound) Failed) :
      Triple (fun process => Steady objects process ∧ process.permits call = true)
        (do
          let value ← body
          pure (answer value))
        (fun _ => Unless PyProcess.Sound) Failed := by
    have ran : Triple (Steady objects)
        (do
          let value ← body
          pure (answer value) : Py PyValue)
        (fun _ => Unless PyProcess.Sound) Failed :=
      spec.bind fun _ => Triple.pure fun _ sound => sound
    exact ran.weaken (fun _ start => start.1) (fun _ _ sound => sound) fun _ _ stop => stop
  have steady {α : Type} {body : Py α} {answer : α → PyValue}
      (spec : Triple (Steady objects) body (fun _ => Steady objects)
        (Refused objects (nativesOf objects))) :
      Triple (fun process => Steady objects process ∧ process.permits call = true)
        (do
          let value ← body
          pure (answer value))
        (fun _ => Unless PyProcess.Sound) Failed :=
    plain (spec.weaken (fun _ start => start) (fun _ _ steady => steady.sound)
      fun _ _ => refused_failed)
  cases call with
  | systemDefault => exact plain systemDefault_run
  | streamCreate device => exact plain (streamCreate_run device)
  | bufferShared device length =>
      exact plain ((bufferShared_made device length).weaken (fun _ start => start)
        (fun _ _ ⟨_, _, steady⟩ => steady.sound) fun _ _ => refused_failed)
  | writeUint32s buffer values => exact steady (write_writes buffer _)
  | writeBytes buffer values => exact steady (write_writes buffer values)
  | readUint32s buffer count => exact steady (readUint32s_reads buffer count)
  | graphCreate => exact plain graphCreate_run
  | addDispatchNode graph arguments => exact plain (addDispatchNode_run graph arguments)
  | instantiate graph device => exact plain (instantiate_run graph device)
  | launch exec stream => exact plain (launch_run exec stream)
  | diagnostics exec => exact plain (diagnostics_run exec)
  | synchronize launch => exact plain (synchronize_run launch)
  | importMlxArray array mode device => exact plain (importMlxArray_run array mode device)
  | close object => exact (close_run object).bind fun _ => Triple.pure fun _ sound => sound

end Methods

/-! ### Announced imports -/

theorem setInfo_ok {index : Nat} {info : BufferInfo} {process finish : PyProcess} {result : Unit}
    (ran : Buffer.setInfo index info process = (.ok result, finish)) :
    ∃ handle, finish.objects[index]? = some (.buffer handle info) := by
  simp only [Buffer.setInfo, bufferHandle, handleOf, objectAt, setObject, bind_ok, read_ok,
    orFail_ok, update_apply, Prod.mk.injEq, true_and] at ran
  obtain ⟨handle, _, ⟨object, _, ⟨_, _, ⟨rfl, rfl⟩, found, rfl⟩, _, rfl⟩, rfl⟩ := ran
  obtain ⟨inside, _⟩ := List.getElem?_eq_some_iff.mp found
  exact ⟨handle, List.getElem?_set_self inside⟩

section Imports

variable {mlxAvailable : Bool} {array : PySource} {mode : String} {device : Option Nat}
  {process finish : PyProcess}

/-- An imported buffer was announced, and carries the diagnostic that was announced. -/
theorem importMlxArray_announced {index : Nat}
    (ran : importMlxArray array mode device process = (.ok index, finish)) :
    ∃ support handle, canImportMlxArray mlxAvailable array mode = .ok support ∧
      support.supported = true ∧
      finish.objects[index]? = some (.buffer handle ⟨"copy", false, support.diagnostic⟩) := by
  simp only [importMlxArray, bind_ok, require_ok, orFail_ok, ofExcept_ok, pure_ok] at ran
  obtain ⟨_, _, ⟨shared, rfl⟩, _, _, ⟨rfl, rfl⟩, _, _, ⟨rfl, rfl⟩, source, _, ⟨viewed, rfl⟩, _, _,
    _, _, _, _, _, _, labelled, rfl, rfl⟩ := ran
  obtain ⟨handle, stored⟩ := setInfo_ok labelled
  have announced : ∃ support, canImportMlxArray mlxAvailable array "copy" = .ok support ∧
      support.supported = true ∧
      support.diagnostic = some (explicitCopyDiagnostic source.length) := by
    unfold canImportMlxArray
    rw [if_neg shared, if_pos rfl, viewed]
    exact ⟨_, rfl, rfl, rfl⟩
  obtain ⟨support, answered, supported, shown⟩ := announced
  exact ⟨support, handle, answered, supported, shown ▸ stored⟩

/-- What is announced not to be supported is not begun. -/
theorem importMlxArray_unsupported {support : MlxImportSupport}
    (announced : canImportMlxArray mlxAvailable array mode = .ok support)
    (refused : support.supported = false) :
    ∃ reason, importMlxArray array mode device process = (.error reason, process) := by
  unfold canImportMlxArray at announced
  by_cases shared : mode = "zero_copy"
  · exact ⟨_, by simp [importMlxArray, bind_apply, shared]; rfl⟩
  · rw [if_neg shared] at announced
    by_cases copying : mode = "copy"
    · rw [if_pos copying] at announced
      rcases device with _ | device
      · exact ⟨_, by simp [importMlxArray, bind_apply, copying]; rfl⟩
      · rcases viewed : memoryviewForExplicitCopy array with reason | source
        · exact ⟨reason, by simp [importMlxArray, bind_apply, copying, viewed]⟩
        · rw [viewed] at announced
          cases announced
          cases refused
    · rw [if_neg copying] at announced
      cases announced

end Imports

/-! ### Runs of a process -/

theorem Steady.of_sound {process : PyProcess} (sound : Unless PyProcess.Sound process) :
    Steady process.objects process := ⟨rfl, sound⟩

theorem PyProcess.Sound.initial (oracle commandBufferFails requests : Nat → Bool)
    (mpsgraphEnabled : Bool) (programs : Programs) (systemDefault : Option Nat)
    (texts : Nat → Option String) : (PyProcess.initial oracle commandBufferFails requests
      mpsgraphEnabled programs systemDefault texts).Sound where
  distinct := Multiset.nodup_zero
  calls := {
    reachable := .start oracle commandBufferFails mpsgraphEnabled
    live := by
      intro native table
      have none : native ∉ (0 : Multiset Native) := Multiset.notMem_zero native
      apply iff_of_false none
      cases native <;>
        simp [PyProcess.initial, System.initial, World.initial, System.Live, World.Tabled]
    counted := nofun }
  blocks := ⟨0, Blocks.owns_empty requests, rfl⟩

/-- A call that clients may make keeps what holds between calls, and reads nothing freed. -/
theorem PyProcess.Sound.call {process : PyProcess} {call : PyCall}
    (sound : Unless PyProcess.Sound process) (permitted : process.permits call = true) :
    Unless (fun after => (call.run process).1 ≠ .error .undefined ∧ after.Sound)
      (process.after call) := by
  have start : Steady process.objects process ∧ process.permits call = true :=
    ⟨.of_sound sound, permitted⟩
  unfold PyProcess.after
  rcases ran : call.run process with ⟨reason | value, finish⟩
  · exact (call.run_sound.error start ran).imp_right fun ⟨defined, kept⟩ => ⟨by simpa, kept⟩
  · exact (call.run_sound.ok start ran).imp_right fun kept => ⟨by simp, kept⟩

theorem PyProcess.Reachable.sound {process : PyProcess} (reachable : process.Reachable) :
    Unless PyProcess.Sound process := by
  induction reachable with
  | start oracle fails requests enabled programs systemDefault texts =>
      exact .inr (.initial oracle fails requests enabled programs systemDefault texts)
  | call before permitted ih => exact (Sound.call ih permitted).imp_right And.right
  | progress queue before ih => exact ih.imp_right fun sound => sound.framed rfl rfl

/-! ### Handles between calls -/

/-- What a handle stands for is still there. -/
def PyProcess.Alive (process : PyProcess) : Native → Prop
  | .device address => ∃ device, process.heap.cells.get? address = some (.device device)
  | .stream address => ∃ stream, process.heap.cells.get? address = some (.stream stream)
  | native => process.system.Live native

theorem StandFor.mem_iff {handles : Multiset (Nat × HeapBlock)} {natives : Multiset Native}
    (standing : StandFor handles natives) {native : Native} (isBlock : native.isBlock = true) :
    native ∈ natives ↔ ∃ entry ∈ handles, nativeOf entry = some native := by
  refine ⟨standing.there isBlock, ?_⟩
  rintro ⟨entry, member, stands⟩
  have listed : some native ∈ handles.map nativeOf := Multiset.mem_map.mpr ⟨entry, member, stands⟩
  rw [standing] at listed
  obtain ⟨other, held, same⟩ := Multiset.mem_map.mp listed
  cases same
  exact (Multiset.mem_filter.mp held).1

/-- The open objects hold what is there, and nothing else is. -/
theorem PyProcess.Sound.alive {process : PyProcess} (sound : process.Sound) (native : Native) :
    native ∈ process.natives ↔ process.Alive native := by
  obtain ⟨handles, owns, standing⟩ := sound.blocks
  have listed : native.isBlock = true → (native ∈ process.natives ↔ ∃ address content,
      process.heap.cells.get? address = some content ∧
        nativeOf (address, content) = some native) := by
    intro isBlock
    rw [standing.mem_iff isBlock]
    constructor
    · rintro ⟨⟨address, content⟩, member, stands⟩
      exact ⟨address, content, (owns.blocks address content).mpr member, stands⟩
    · rintro ⟨address, content, present, stands⟩
      exact ⟨(address, content), (owns.blocks address content).mp present, stands⟩
  cases native with
  | device address =>
      rw [listed rfl]
      constructor
      · rintro ⟨other, content, present, stands⟩
        cases content <;> cases stands
        exact ⟨_, present⟩
      · rintro ⟨device, present⟩
        exact ⟨address, .device device, present, rfl⟩
  | stream address =>
      rw [listed rfl]
      constructor
      · rintro ⟨other, content, present, stands⟩
        cases content <;> cases stands
        exact ⟨_, present⟩
      · rintro ⟨stream, present⟩
        exact ⟨address, .stream stream, present, rfl⟩
  | buffer | graph | exec | launch => exact sound.calls.live _ rfl

/-- Every block in the heap is an open device or stream: no error object is left behind. -/
theorem PyProcess.Sound.total {process : PyProcess} (sound : process.Sound) :
    process.heap.cells.total (fun _ => 1) =
      (process.natives.filter fun native => native.isBlock = true).card := by
  obtain ⟨handles, owns, standing⟩ := sound.blocks
  have counted := congrArg Multiset.card standing
  rw [Multiset.card_map, Multiset.card_map] at counted
  rw [owns.total, counted]

/-- In every run of the adapter in which no count has run over, the library is called within
its rules, no two objects hold one handle, the open objects hold exactly what is there, and
nothing freed has been touched; nor will the next call touch it, if no count runs over. -/
theorem adapter_keeps_rules {process : PyProcess} (reachable : process.Reachable)
    (bounded : process.system.world.env.heap.overflowed = false) :
    MetalGraph.Reachable process.system ∧ process.natives.Nodup ∧
      (∀ native, native ∈ process.natives ↔ process.Alive native) ∧
      process.heap.cells.total (fun _ => 1) =
        (process.natives.filter fun native => native.isBlock = true).card ∧
      process.system.world.env.heap.dangling = false ∧
      ∀ call, process.permits call = true →
        (process.after call).system.world.env.heap.overflowed = false →
        (call.run process).1 ≠ .error .undefined ∧
          (process.after call).system.world.env.heap.dangling = false := by
  have sound := reachable.sound.resolve_left (by simp [bounded])
  have counted := sound.calls.reachable.counted bounded
  refine ⟨sound.calls.reachable, sound.distinct, sound.alive, sound.total, counted.sound, ?_⟩
  intro call permitted room
  obtain ⟨defined, after⟩ :=
    (PyProcess.Sound.call (.inr sound) permitted).resolve_left (by simp [room])
  exact ⟨defined, (after.calls.reachable.counted room).sound⟩

theorem PyProcess.Reachable.run {process : PyProcess} (reachable : process.Reachable)
    {calls : List PyCall} (permitted : process.permitsAll calls = true) :
    (process.run calls).Reachable := by
  induction calls generalizing process with
  | nil => exact reachable
  | cons call rest ih =>
      obtain ⟨first, others⟩ := Bool.and_eq_true_iff.mp permitted
      exact ih (reachable.call first) others

/-! A minimal replay: four words, a kernel over them, a plan and a launch of it. -/

def grantedProcess : PyProcess :=
  .initial (fun _ => true) (fun _ => false) (fun _ => true) true
    ⟨fun _ _ _ _ memory => memory, fun _ _ _ memory => memory⟩ (some 7) fun _ => none

def replayArguments : DispatchArguments where
  metallibPath := "phase0_test_kernels.metallib"
  kernelName := "mg_phase0_add_one"
  buffer := 2
  index := 0
  byteCount := 16
  gridSize := (4, 1, 1)
  threadsPerThreadgroup := (1, 1, 1)
  access := 3
  alignment := 4
  offset := 0

def replayCalls : List PyCall :=
  [.systemDefault, .streamCreate 0, .bufferShared 0 16, .writeUint32s 2 [1, 2, 3, 4],
    .graphCreate, .addDispatchNode 3 replayArguments, .instantiate 3 0, .launch 4 1]

def launchedReplay : PyProcess := grantedProcess.run replayCalls

theorem launchedReplay_reachable : launchedReplay.Reachable :=
  (PyProcess.Reachable.start _ _ _ _ _ _ _).run (by decide +kernel)

theorem launchedReplay_bounded : launchedReplay.system.world.env.heap.overflowed = false := by
  decide +kernel

theorem adapter_keeps_rules_of_replay :
    launchedReplay.natives.card = 6 ∧ launchedReplay.Alive (.launch 0) ∧
      ((PyCall.synchronize 5).run launchedReplay).1 ≠ .error .undefined ∧
      (launchedReplay.after (.synchronize 5)).system.world.env.heap.dangling = false := by
  obtain ⟨_, _, alive, _, _, defined⟩ :=
    adapter_keeps_rules launchedReplay_reachable launchedReplay_bounded
  have held : .launch 0 ∈ launchedReplay.natives := by decide +kernel
  exact ⟨by decide +kernel, (alive _).mp held, defined _ rfl (by decide +kernel)⟩

end MetalGraph
