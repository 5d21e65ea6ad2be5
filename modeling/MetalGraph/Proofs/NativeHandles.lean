import MetalGraph.Model.Adapter
import MetalGraph.Proofs.Frame
import MetalGraph.Proofs.Ownership

set_option autoImplicit false

/- Which handles of the library are alive, call by call: a call makes the handle that it
gives out and takes the one that it destroys, and touches no other. -/
namespace MetalGraph

/-- The handle in an answer. -/
def Response.native : Response → Option Native
  | .buffer given => some (.buffer given)
  | .graph given => some (.graph given)
  | .exec given => some (.exec given)
  | .launch given => some (.launch given)
  | .done | .event _ | .arena _ | .node _ => none

def given (result : Except Fault Response) : Option Native :=
  match result with
  | .ok response => response.native
  | .error _ => none

/-- The handle that a call destroys. -/
def Call.takes : Call → Option Native
  | .counted (.bufferDestroy buffer) => buffer.map .buffer
  | .graphDestroy graph => graph.map .graph
  | .execDestroy exec => exec.map .exec
  | .launchDestroy launch => launch.map .launch
  | _ => none

/-! ### Tables -/

/-- Graphs, plans and launches that are there. Buffers, devices and streams have no table. -/
def World.Tabled (world : World) : Native → Prop
  | .graph address => (world.graphs.get? address).isSome = true
  | .exec address => (world.execs.get? address).isSome = true
  | .launch address => (world.launches.get? address).isSome = true
  | .buffer _ | .device _ | .stream _ => False

theorem tabled_missed {world : World} {call : Call} (missed : call.misses world)
    {native : Native} (there : world.Tabled native) : call.takes ≠ some native := by
  intro taken
  cases call with
  | counted | graphCreate => exact missed.elim
  | graphEdit | graphValidate | graphInstantiate | execPatch | graphLaunch
  | launchSynchronize => cases taken
  | graphDestroy handle | execDestroy handle | launchDestroy handle =>
      cases handle with
      | none => cases taken
      | some address =>
          cases taken
          simp [World.Tabled, missed address rfl] at there

/-- What a computation that ends in an answer answers. -/
theorem answer_cases {σ α : Type} {body : Eff σ Fault α} {answer : α → Response}
    {state reached : σ} {result : Except Fault Response} (ran : (do
      let value ← body
      pure (answer value) : Eff σ Fault Response) state = (result, reached)) :
    (∃ reason, result = .error reason) ∨ ∃ value, result = .ok (answer value) := by
  rcases outcome : body state with ⟨reason | value, middle⟩
  · rw [Eff.bind_of_error _ outcome] at ran
    cases ran
    exact .inl ⟨reason, rfl⟩
  · rw [Eff.bind_of_ok _ outcome] at ran
    cases ran
    exact .inr ⟨value, rfl⟩

/-- Calls on counted objects give out buffers only, of what has a handle here. -/
theorem ObjectCall.given_buffer {call : ObjectCall} {env env' : Env}
    {result : Except Fault Response} (ran : call.run env = (result, env')) {native : Native}
    (made : given result = some native) : ∃ buffer, native = .buffer buffer := by
  cases call <;>
    · rcases answer_cases ran with ⟨reason, rfl⟩ | ⟨value, rfl⟩
      · cases made
      · simp only [given, Response.native, Option.some.injEq, reduceCtorEq] at made
        try exact ⟨value, made.symm⟩

theorem GraphEdit.given_none {edit : GraphEdit} {start focus : Focus MgGraph}
    {result : Except Fault Response} (ran : edit.run start = (result, focus)) :
    given result = none := by
  cases edit <;>
    · rcases answer_cases ran with ⟨reason, rfl⟩ | ⟨value, rfl⟩ <;> rfl

theorem SyncStep.kept {object : LaunchOf} {env : Env} {result : Except Fault Unit}
    {focus : Focus LaunchOf} (step : SyncStep object env result focus) :
    focus.object.launch.exec = object.launch.exec ∧
      focus.object.exec.isSome = object.exec.isSome := by
  cases step with
  | idle | orphaned | again => exact ⟨rfl, rfl⟩
  | first =>
      refine ⟨rfl, ?_⟩
      dsimp only
      split <;> simp

/-- Writing a launch back makes no plan and takes none. -/
theorem putLaunch_isSome {world : World} {env : Env} {address : LaunchPtr} {launch : MgLaunch}
    {object : LaunchOf} (named : object.launch.exec = launch.exec)
    (owned : object.exec.isSome = (world.execOf launch).isSome) (exec : ExecPtr) :
    ((World.putLaunch { world with env := env } address object).execs.get? exec).isSome = true ↔
      (world.execs.get? exec).isSome = true := by
  unfold World.putLaunch
  rw [named]
  unfold World.execOf at owned
  rcases pointed : launch.exec with _ | pointer
  · rfl
  · rcases present : object.exec with _ | after
    · rfl
    · rw [pointed, present, Option.bind_some] at owned
      obtain ⟨before, live⟩ := Option.isSome_iff_exists.mp owned.symm
      exact Slots.isSome_put live after

/-- A call makes the handle it gives out, takes the one it destroys, and no other. -/
theorem CallStep.tabled {world world' : World} {call : Call} {result : Except Fault Response}
    (step : CallStep world call result world') (native : Native)
    (table : ∀ buffer, native ≠ .buffer buffer) :
    world'.Tabled native ↔
      (world.Tabled native ∧ call.takes ≠ some native) ∨ given result = some native := by
  cases step with
  | refused reason missed => 
      simp only [given, reduceCtorEq, or_false]
      exact ⟨fun there => ⟨there, tabled_missed missed there⟩, And.left⟩
  | nothing missed => 
      simp only [given, Response.native, reduceCtorEq, or_false]
      exact ⟨fun there => ⟨there, tabled_missed missed there⟩, And.left⟩
  | @counted call result env ran =>
      have other : given result ≠ some native := fun made => by
        obtain ⟨buffer, same⟩ := call.given_buffer ran made
        exact table buffer same
      cases native <;> cases call <;> simp_all [World.Tabled, Call.takes]
  | graphCreate ran =>
      cases native <;>
        simp [World.Tabled, given, Response.native, Call.takes, Slots.isSome_push]
  | graphNotCreated ran => cases native <;> simp [World.Tabled, given, Call.takes]
  | graphDestroy live ran =>
      cases native <;>
        simp [World.Tabled, given, Response.native, Call.takes, Slots.isSome_free]
  | graphEdit live ran =>
      cases native <;>
        simp [World.Tabled, GraphEdit.given_none ran, Call.takes, Slots.isSome_put live]
  | @graphValidate _ _ result _ live ran =>
      have other : given (result.map fun _ => Response.done) = none := by cases result <;> rfl
      cases native <;> simp [World.Tabled, other, Call.takes]
  | graphInstantiate live ran =>
      cases native <;>
        simp [World.Tabled, given, Response.native, Call.takes, Slots.isSome_push]
  | graphNotInstantiated live ran => cases native <;> simp [World.Tabled, given, Call.takes]
  | execDestroy live ran =>
      cases native <;>
        simp [World.Tabled, given, Response.native, Call.takes, Slots.isSome_free]
  | @execPatch _ _ _ result _ live ran =>
      have other : given (result.map fun _ => Response.done) = none := by cases result <;> rfl
      cases native <;> simp [World.Tabled, other, Call.takes, Slots.isSome_put live]
  | graphLaunch live ran =>
      cases native <;>
        simp [World.Tabled, given, Response.native, Call.takes, Slots.isSome_push,
          Slots.isSome_put live]
  | graphNotLaunched live ran =>
      cases native <;> simp [World.Tabled, given, Call.takes, Slots.isSome_put live]
  | @launchSynchronize address launch result focus live ran =>
      have other : given (result.map fun _ => Response.done) = none := by cases result <;> rfl
      have sync := mgLaunchSynchronize_step ⟨launch, world.execOf launch⟩ world.env
      rw [ran] at sync
      obtain ⟨named, owned⟩ := sync.kept
      cases native with
      | exec exec => simp [World.Tabled, other, Call.takes, putLaunch_isSome named owned]
      | launch handle =>
          simp [World.Tabled, other, Call.takes, World.putLaunch, Slots.isSome_put live]
      | graph handle => simp [World.Tabled, other, Call.takes, World.putLaunch]
      | buffer | device | stream => simp [World.Tabled, other]
  | launchDestroy live ran =>
      cases native <;>
        simp [World.Tabled, given, Response.native, Call.takes, Slots.isSome_free]

/-! ### Buffers -/

/-- The calls that the adapter makes: no events, no arenas, no wrapped buffers. -/
def Call.plain : Call → Bool
  | .counted (.bufferCreateShared _ _) | .counted (.bufferDestroy _) => true
  | .counted _ => false
  | _ => true

/-- A handle that the caller may still use. -/
def System.Live (system : System) : Native → Prop
  | .buffer buffer =>
    buffer.address ∈ system.handles ∧ system.world.bufferAlive (some buffer) = true
  | native => system.world.Tabled native

theorem bufferAlive_iff {world : World} {buffer : MgBuffer} :
    world.bufferAlive (some buffer) = true ↔
      ∃ count owner, world.env.heap.cells.get? buffer.address =
        some ⟨count, .buffer buffer owner⟩ := by
  rw [World.bufferAlive, Option.elim_some]
  split
  · rename_i count live owner present
    rw [present]
    constructor
    · intro same
      rw [beq_iff_eq.mp same]
      exact ⟨count, owner, rfl⟩
    · rintro ⟨count', owner', same⟩
      cases same
      exact beq_self_eq_true _
  · rename_i absent
    constructor
    · intro wrong
      cases wrong
    · rintro ⟨count, owner, present⟩
      exact (absent count buffer owner present).elim

/-- Two live buffers at one address are one buffer. -/
theorem bufferAlive_unique {world : World} {first second : MgBuffer}
    (one : world.bufferAlive (some first) = true) (two : world.bufferAlive (some second) = true)
    (same : first.address = second.address) : first = second := by
  obtain ⟨_, _, here⟩ := bufferAlive_iff.mp one
  obtain ⟨_, _, there⟩ := bufferAlive_iff.mp two
  rw [same, there] at here
  cases here
  rfl

/-- A buffer whose address is in use before and after is alive after if it was before. -/
theorem bufferAlive_kept {before after : World} (keeps : before.env.heap.Keeps after.env.heap)
    {buffer : MgBuffer} {cell cell' : Counted Object}
    (live : before.env.heap.cells.get? buffer.address = some cell)
    (still : after.env.heap.cells.get? buffer.address = some cell') :
    after.bufferAlive (some buffer) = true ↔ before.bufferAlive (some buffer) = true := by
  obtain ⟨old, present, same⟩ :=
    keeps.payloads buffer.address cell' (Slots.lt_size_of_get? live) still
  rw [bufferAlive_iff, bufferAlive_iff, present, still]
  obtain ⟨count, payload⟩ := old
  obtain ⟨count', payload'⟩ := cell'
  change payload = payload' at same
  subst same
  simp

/-- What a new shared buffer is. -/
structure Shared (length : UInt64) (env env' : Env) (buffer : MgBuffer) : Prop where
  fresh : buffer.address = env.heap.cells.size
  placed : env'.heap.cells.get? buffer.address = some ⟨1, .buffer buffer none⟩
  length : buffer.length = length
  offset : buffer.byteOffset = 0
  visible : buffer.impl.hasContents = true

theorem newBufferWithLength_made {device : Nat} {length : UInt64} {hasContents : Bool}
    {metal : MetalBuffer} {env env' : Env}
    (made : newBufferWithLength device length hasContents env = (.ok (some metal), env')) :
    metal.length = length ∧ metal.hasContents = hasContents ∧ env'.heap = env.heap := by
  simp only [newBufferWithLength, Eff.bind_ok, attempt_ok] at made
  obtain ⟨granted, asked, ⟨_, rfl⟩, made⟩ := made
  cases granted with
  | false => simp at made
  | true =>
      cases made
      exact ⟨rfl, rfl, rfl⟩

theorem mgBufferCreateShared_shared {device : Option MgDevice} {length : UInt64} {env env' : Env}
    {buffer : MgBuffer} (ran : mgBufferCreateShared device length env = (.ok buffer, env')) :
    Shared length env env' buffer := by
  simp only [mgBufferCreateShared, Eff.bind_ok, Eff.orFail_ok, Eff.require_ok,
    attemptOr_ok] at ran
  obtain ⟨_, _, ⟨_, rfl⟩, _, _, ⟨_, rfl⟩, created, asked, made, metal, _, ⟨rfl, rfl⟩, _, _,
    ⟨_, rfl⟩, _, _, ⟨_, rfl⟩, placed⟩ := ran
  obtain ⟨sized, visible, heap⟩ := newBufferWithLength_made made
  cases placed
  constructor
  · exact congrArg (fun heap => heap.cells.size) heap
  · simp only [RefHeap.alloc, Slots.get?_push, ↓reduceIte]
  · exact sized
  · rfl
  · exact visible

/-- The address that the caller keeps of a buffer it has been given. -/
def Native.counted : Native → Option Nat
  | .buffer held => some held.address
  | _ => none

theorem takenBack_eq {call : Call} (plain : call.plain = true) :
    call.takenBack = call.takes.bind Native.counted := by
  cases call with
  | counted call =>
      cases call with
      | bufferDestroy buffer => cases buffer <;> rfl
      | bufferCreateShared => rfl
      | metalBufferWrap | eventCreate | arenaCreate | eventDestroy | arenaDestroy => cases plain
  | graphDestroy handle | execDestroy handle | launchDestroy handle => cases handle <;> rfl
  | graphCreate | graphEdit | graphValidate | graphInstantiate | execPatch | graphLaunch
  | launchSynchronize => rfl

theorem CallStep.handedOut_eq {world world' : World} {call : Call}
    {result : Except Fault Response} (step : CallStep world call result world')
    (plain : call.plain = true) (events : List MetalEvent) :
    Entry.handedOut ⟨call, result, events⟩ = (given result).bind Native.counted := by
  cases step with
  | counted call ran =>
      cases call with
      | bufferCreateShared | bufferDestroy =>
          rcases answer_cases ran with ⟨reason, rfl⟩ | ⟨value, rfl⟩ <;> rfl
      | metalBufferWrap | eventCreate | arenaCreate | eventDestroy | arenaDestroy => cases plain
  | graphEdit live ran => rw [GraphEdit.handedOut_none ran, GraphEdit.given_none ran]; rfl
  | @graphValidate _ _ result | @execPatch _ _ _ result | @launchSynchronize _ _ result =>
      cases result <;> rfl
  | refused | nothing | graphCreate | graphNotCreated | graphDestroy | graphInstantiate
  | graphNotInstantiated | execDestroy | graphLaunch | graphNotLaunched | launchDestroy => rfl

/-- What the caller keeps after a plain call. -/
theorem System.step_handles (system : System) {call : Call} (plain : call.plain = true) :
    (system.step call).handles =
      ((given (system.record call).result).bind Native.counted).toList ++
        (call.takes.bind Native.counted).elim system.handles system.handles.erase := by
  rw [← takenBack_eq plain, ← (system.step_recorded call).handedOut_eq plain
    (system.record call).events]
  rfl

/-- The result of a plain call that gives out a buffer is a new shared buffer. -/
theorem CallStep.given_shared {world world' : World} {call : Call}
    {result : Except Fault Response} (step : CallStep world call result world')
    (plain : call.plain = true) {buffer : MgBuffer} (made : given result = some (.buffer buffer)) :
    ∃ length, Shared length world.env world'.env buffer := by
  cases step with
  | counted call ran =>
      cases call with
      | bufferCreateShared device length =>
          rcases answer_cases ran with ⟨reason, rfl⟩ | ⟨value, rfl⟩
          · cases made
          · cases made
            simp only [ObjectCall.run, Eff.bind_ok, Eff.pure_ok] at ran
            obtain ⟨_, _, created, same, rfl⟩ := ran
            cases same
            exact ⟨length, mgBufferCreateShared_shared created⟩
      | bufferDestroy =>
          rcases answer_cases ran with ⟨reason, rfl⟩ | ⟨value, rfl⟩ <;> cases made
      | metalBufferWrap | eventCreate | arenaCreate | eventDestroy | arenaDestroy => cases plain
  | graphEdit live ran => rw [GraphEdit.given_none ran] at made; cases made
  | @graphValidate _ _ result | @execPatch _ _ _ result | @launchSynchronize _ _ result =>
      cases result <;> cases made
  | refused | nothing | graphCreate | graphNotCreated | graphDestroy | graphInstantiate
  | graphNotInstantiated | execDestroy | graphLaunch | graphNotLaunched | launchDestroy =>
      cases made

/-- A permitted call destroys only what is alive. -/
theorem System.takes_live {system : System} {call : Call} (permitted : system.permits call = true)
    {native : Native} (taken : call.takes = some native) : system.Live native := by
  cases call with
  | counted call =>
      cases call with
      | bufferDestroy buffer =>
          cases buffer with
          | none => cases taken
          | some buffer =>
              cases taken
              simpa [System.permits, System.permitsObject, System.owns, System.Live] using permitted
      | bufferCreateShared | metalBufferWrap | eventCreate | arenaCreate | eventDestroy
      | arenaDestroy => cases taken
  | graphDestroy handle | launchDestroy handle =>
      cases handle with
      | none => cases taken
      | some address =>
          cases taken
          exact permitted
  | execDestroy handle =>
      cases handle with
      | none => cases taken
      | some address =>
          cases taken
          exact (Bool.and_eq_true_iff.mp permitted).1
  | graphCreate | graphEdit | graphValidate | graphInstantiate | execPatch | graphLaunch
  | launchSynchronize => cases taken

section Buffers

variable {system : System} {call : Call} {buffer : MgBuffer}

/-- A buffer that a plain call gives out is alive after it. -/
theorem System.given_live (plain : call.plain = true)
    (made : given (system.record call).result = some (.buffer buffer)) :
    (system.step call).Live (.buffer buffer) := by
  obtain ⟨length, shared⟩ := (system.step_recorded call).given_shared plain made
  constructor
  · rw [system.step_handles plain, made]
    exact List.mem_append_left _ (by simp [Native.counted])
  · exact bufferAlive_iff.mpr ⟨1, none, shared.placed⟩

/-- A handle that the caller keeps is one that it had or the one that the call gives out. -/
theorem System.kept_handle (reachable : Reachable system)
    (room : system.world.env.heap.overflowed = false) (plain : call.plain = true)
    (kept : (system.step call).Live (.buffer buffer)) :
    given (system.record call).result = some (.buffer buffer) ∨
      buffer.address ∈ system.handles ∧ call.takes ≠ some (.buffer buffer) := by
  obtain ⟨member, alive⟩ := kept
  rw [system.step_handles plain, List.mem_append] at member
  rcases member with new | old
  · left
    rcases made : given (system.record call).result with _ | native
    · simp [made] at new
    · cases native with
      | buffer other =>
          simp only [made, Option.bind_some, Native.counted, Option.toList_some,
            List.mem_singleton] at new
          rw [bufferAlive_unique alive (system.given_live plain made).2 new]
      | graph | exec | launch | device | stream => simp [made, Native.counted] at new
  · right
    constructor
    · cases taken : call.takes.bind Native.counted with
      | none => simpa [taken] using old
      | some address => exact List.mem_of_mem_erase (by simpa [taken] using old)
    · intro taken
      have distinct := reachable.holdings.distinct.resolve_left (by simp [room])
      rw [taken] at old
      exact distinct.not_mem_erase old

/-- A handle that is not destroyed stays with the caller. -/
theorem System.handle_kept (plain : call.plain = true) (permitted : system.permits call = true)
    (live : system.Live (.buffer buffer)) (stays : call.takes ≠ some (.buffer buffer)) :
    buffer.address ∈ (system.step call).handles := by
  rw [system.step_handles plain]
  apply List.mem_append_right
  rcases taken : call.takes with _ | native
  · exact live.1
  · cases native with
    | buffer other =>
        apply (List.mem_erase_of_ne _).mpr live.1
        intro same
        have there := System.takes_live permitted taken
        rw [bufferAlive_unique there.2 live.2 same.symm] at taken
        exact stays taken
    | graph | exec | launch | device | stream => exact live.1

end Buffers

/-- From the handles that are alive before a plain call to those that are alive after it. -/
theorem System.live_step {system : System} {call : Call} (reachable : Reachable system)
    (plain : call.plain = true) (permitted : system.permits call = true)
    (bounded : (system.step call).world.env.heap.overflowed = false) (native : Native) :
    (system.step call).Live native ↔
      (system.Live native ∧ call.takes ≠ some native) ∨
        given (system.record call).result = some native := by
  have step := system.step_recorded call
  have early : system.world.env.heap.overflowed = false := by
    by_contra wrapped
    have later := step.env_le.overflowed (by simpa using wrapped)
    simp [later] at bounded
  cases native with
  | graph address => exact step.tabled (.graph address) (by simp)
  | exec address => exact step.tabled (.exec address) (by simp)
  | launch address => exact step.tabled (.launch address) (by simp)
  | device address => exact step.tabled (.device address) (by simp)
  | stream address => exact step.tabled (.stream address) (by simp)
  | buffer buffer =>
      have alive_iff (before : buffer.address ∈ system.handles)
          (after : buffer.address ∈ (system.step call).handles) :=
        have live := ((reachable.counted early).alive buffer.address).mpr (.inl before)
        have still := (((reachable.step permitted).counted bounded).alive buffer.address).mpr
          (.inl after)
        bufferAlive_kept step.env_le.heap live.choose_spec still.choose_spec
      constructor
      · intro kept
        rcases System.kept_handle reachable early plain kept with made | ⟨before, stays⟩
        · exact .inr made
        · exact .inl ⟨⟨before, (alive_iff before kept.1).mp kept.2⟩, stays⟩
      · rintro (⟨live, stays⟩ | made)
        · have after := System.handle_kept plain permitted live stays
          exact ⟨after, (alive_iff live.1 after).mpr live.2⟩
        · exact System.given_live plain made

theorem CallStep.given_fresh {world world' : World} {call : Call}
    {result : Except Fault Response} (step : CallStep world call result world') (native : Native)
    (table : ∀ buffer, native ≠ .buffer buffer) (made : given result = some native) :
    ¬ world.Tabled native := by
  cases step with
  | counted call ran =>
      obtain ⟨buffer, same⟩ := call.given_buffer ran made
      exact (table buffer same).elim
  | graphEdit live ran => rw [GraphEdit.given_none ran] at made; cases made
  | @graphValidate _ _ result | @execPatch _ _ _ result | @launchSynchronize _ _ result =>
      cases result <;> cases made
  | graphCreate | graphInstantiate | graphLaunch =>
      cases made
      simp [World.Tabled]
  | refused | nothing | graphNotCreated | graphDestroy | graphNotInstantiated | execDestroy
  | graphNotLaunched | launchDestroy => cases made

/-- A handle that is given out was not in use. -/
theorem System.given_fresh {system : System} {call : Call} (reachable : Reachable system)
    (plain : call.plain = true)
    (bounded : system.world.env.heap.overflowed = false) {native : Native}
    (made : given (system.record call).result = some native) : ¬ system.Live native := by
  have step := system.step_recorded call
  cases native with
  | graph address => exact step.given_fresh (.graph address) (by simp) made
  | exec address => exact step.given_fresh (.exec address) (by simp) made
  | launch address => exact step.given_fresh (.launch address) (by simp) made
  | device address => exact step.given_fresh (.device address) (by simp) made
  | stream address => exact step.given_fresh (.stream address) (by simp) made
  | buffer buffer =>
      intro live
      obtain ⟨length, shared⟩ := step.given_shared plain made
      obtain ⟨cell, present⟩ := ((reachable.counted bounded).alive buffer.address).mpr (.inl live.1)
      exact (Slots.lt_size_of_get? present).ne shared.fresh

end MetalGraph
