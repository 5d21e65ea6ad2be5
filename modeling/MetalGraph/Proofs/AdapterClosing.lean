import MetalGraph.Proofs.AdapterSafety

set_option autoImplicit false

/- The end of a process of the adapter: once each of its objects is closed, the library
holds nothing any more. -/
namespace MetalGraph

open Eff

/-! ### Releases -/

/-- Whether a count has run over. -/
def Wrapped (flag : Bool) (env : Env) : Prop := env.heap.overflowed = flag

section Releases

variable {flag : Bool} {excused : Fault → Prop}

theorem releaseObject_wrapped (address : Nat) :
    Stable excused (Wrapped flag) (releaseObject address) :=
  .update fun env wrapped => (env.heap.release_overflowed address).trans wrapped

theorem releaseEach_wrapped {τ : Type} (values : List τ) (address : τ → Nat) :
    Stable excused (Wrapped flag) (forEach (fun value => releaseObject (address value)) values) :=
  .forEach fun value _ => releaseObject_wrapped (address value)

theorem mgArenaRelease_wrapped (arena : Option MgArena) :
    Stable excused (Wrapped flag) (mgArenaRelease arena) := by
  cases arena with
  | none => exact .pure ()
  | some arena => exact releaseObject_wrapped arena.address

theorem mgNodeClear_wrapped (as : MgNodeAs) : Stable excused (Wrapped flag) (mgNodeClear as) := by
  cases as with
  | dispatch node => exact releaseEach_wrapped node.buffers _
  | copy node => exact .bind (releaseObject_wrapped _) fun _ => releaseObject_wrapped _
  | fill node => exact releaseObject_wrapped _
  | eventWait node => exact releaseObject_wrapped _
  | eventSignal node => exact releaseObject_wrapped _
  | barrier => exact .pure ()
  | mpsgraph node =>
      exact .bind (releaseEach_wrapped node.feeds _) fun _ => releaseEach_wrapped node.targets _
  | workspace node => exact .pure ()
  | workspaceFill node => exact releaseObject_wrapped _
  | unknown kind => exact .pure ()

theorem mgExecNodeClear_wrapped (node : MgExecNode) :
    Stable excused (Wrapped flag) (mgExecNodeClear node) := by
  cases node with
  | dispatch node => exact releaseEach_wrapped node.buffers _
  | copy node => exact .bind (releaseObject_wrapped _) fun _ => releaseObject_wrapped _
  | fill node => exact releaseObject_wrapped _
  | eventWait node => exact releaseObject_wrapped _
  | eventSignal node => exact releaseObject_wrapped _
  | mpsgraph node =>
      exact .bind (releaseEach_wrapped node.feeds _) fun _ => releaseEach_wrapped node.targets _
  | barrier node => exact .pure ()
  | workspace node => exact .pure ()
  | workspaceFill node => exact releaseObject_wrapped _
  | unknown kind => exact .pure ()

theorem mgGraphDestroy_wrapped (graph : MgGraph) :
    Stable excused (Wrapped flag) (mgGraphDestroy graph) :=
  .bind (.forEach fun _ _ => mgNodeClear_wrapped _) fun _ => mgArenaRelease_wrapped _

theorem mgGraphExecDestroy_wrapped (exec : MgGraphExec) :
    Stable excused (Wrapped flag) (mgGraphExecDestroy exec) :=
  .bind (.forEach fun node _ => mgExecNodeClear_wrapped node) fun _ => mgArenaRelease_wrapped _

theorem mgLaunchDestroy_wrapped (launch : MgLaunch) :
    Stable excused (Wrapped flag) (mgLaunchDestroy launch) :=
  .bind (releaseEach_wrapped launch.retainedBuffers _) fun _ =>
    releaseEach_wrapped launch.retainedEvents _

end Releases

/-- Destroying runs no count over. -/
theorem System.step_wrapped {system : System} {call : Call} {native : Native}
    (taken : call.takes = some native) :
    (system.step call).world.env.heap.overflowed = system.world.env.heap.overflowed := by
  change Wrapped system.world.env.heap.overflowed (system.step call).world.env
  have start : Wrapped system.world.env.heap.overflowed system.world.env := rfl
  have step := system.step_recorded call
  generalize (system.step call).world = after at step
  generalize (system.record call).result = result at step
  cases step with
  | refused | nothing => exact start
  | counted call ran =>
      cases call with
      | bufferDestroy buffer =>
          have stable : Stable (fun _ => False) (Wrapped system.world.env.heap.overflowed)
              (ObjectCall.bufferDestroy buffer).run :=
            .bind (releaseEach_wrapped _ MgBuffer.address) fun _ => .pure _
          exact stable.of_run start ran
      | _ => cases taken
  | graphDestroy live ran => exact (@mgGraphDestroy_wrapped _ (fun _ => False) _).of_run start ran
  | execDestroy live ran =>
      exact (@mgGraphExecDestroy_wrapped _ (fun _ => False) _).of_run start ran
  | launchDestroy live ran => exact (@mgLaunchDestroy_wrapped _ (fun _ => False) _).of_run start ran
  | graphCreate | graphNotCreated | graphEdit | graphValidate | graphInstantiate
  | graphNotInstantiated | execPatch | graphLaunch | graphNotLaunched | launchSynchronize =>
      cases taken

/-! ### Closing one object -/

/-- Whether a count of the library has run over. -/
def PyProcess.Wrapped (flag : Bool) (process : PyProcess) : Prop :=
  process.system.world.env.heap.overflowed = flag

section Closing

variable {flag : Bool}

theorem close_wrapped (index : Nat) :
    Stable (fun _ => False) (PyProcess.Wrapped flag) (close index) := by
  have aside : Aside (PyProcess.Wrapped flag) :=
    ⟨fun _ _ wrapped => wrapped, fun _ _ wrapped => wrapped⟩
  apply aside.close_stable
  intro call taken takes
  exact native_stable fun _ _ wrapped => (System.step_wrapped takes).trans wrapped

theorem run_close (index : Nat) (process : PyProcess) : (PyCall.close index).run process =
    ((close index process).1.map fun _ => .nothing, (close index process).2) := by
  change (close index >>= fun _ => pure PyValue.nothing) process = _
  rcases ran : close index process with ⟨reason | value, finish⟩
  · rw [bind_of_error _ ran]
    rfl
  · rw [bind_of_ok _ ran]
    rfl

/-- Closing an object of a process whose counts have not run over succeeds. -/
theorem closing_step {process : PyProcess} (sound : process.Sound)
    (bounded : process.Wrapped false) {index : Nat} {object : PyObject}
    (found : process.objects[index]? = some object)
    (permitted : process.permits (.close index) = true) :
    ((PyCall.close index).run process).1 = .ok .nothing ∧
      (process.after (.close index)).Sound ∧ (process.after (.close index)).Wrapped false ∧
      (process.after (.close index)).objects = process.objects.set index object.closed := by
  have start : Steady process.objects process ∧ process.permits (.close index) = true :=
    ⟨.of_sound (.inr sound), permitted⟩
  rw [PyProcess.after, run_close]
  rcases ran : close index process with ⟨reason | value, finish⟩
  · have room : finish.Wrapped false := (close_wrapped index).of_run bounded ran
    obtain ⟨_, wrapped | absurdity⟩ := (close_closes found).error start ran
    · cases wrapped.symm.trans room
    · exact absurdity.elim
  · have room : finish.Wrapped false := (close_wrapped index).of_run bounded ran
    have steady := (close_closes found).ok start ran
    refine ⟨rfl, steady.sound.resolve_left ?_, room, steady.1⟩
    exact fun wrapped => nomatch wrapped.symm.trans room

end Closing

/-! ### Closing all of them -/

/-- A plan comes only after every launch that is open. -/
def LaunchesFirst (objects : List PyObject) (order : List Nat) : Prop :=
  ∀ before index after exec, order = before ++ index :: after →
    objects[index]? = some (.exec (some exec)) →
    ∀ position launch, objects[position]? = some (.launch (some launch)) → position ∈ before

/-- Nothing of the library is there any more. -/
structure PyProcess.Empty (process : PyProcess) : Prop where
  objects : process.natives = 0
  blocks : ∀ address, process.heap.cells.get? address = none
  graphs : ∀ address, process.system.world.graphs.get? address = none
  execs : ∀ address, process.system.world.execs.get? address = none
  launches : ∀ address, process.system.world.launches.get? address = none
  counted : ∀ address, process.system.world.env.heap.cells.get? address = none

theorem World.references_empty {world : World}
    (graphs : ∀ address, world.graphs.get? address = none)
    (execs : ∀ address, world.execs.get? address = none)
    (launches : ∀ address, world.launches.get? address = none) : world.references = 0 := by
  rw [World.references, Slots.total_of_none _ graphs, Slots.total_of_none _ execs,
    Slots.total_of_none _ launches]
  rfl

/-- What holds between calls leaves nothing where no object is open. -/
theorem PyProcess.Sound.empty {process : PyProcess} (sound : process.Sound)
    (bounded : process.Wrapped false) (closed : process.natives = 0) : process.Empty := by
  have gone : ∀ native, ¬ process.Alive native := by
    intro native alive
    rw [← sound.alive, closed] at alive
    exact Multiset.notMem_zero native alive
  have absent {τ : Type} {table : Slots τ} {address : Nat}
      (dead : ¬ (table.get? address).isSome = true) : table.get? address = none :=
    Option.not_isSome_iff_eq_none.mp dead
  have graphs (address : Nat) := absent (gone (.graph address))
  have execs (address : Nat) := absent (gone (.exec address))
  have launches (address : Nat) := absent (gone (.launch address))
  refine ⟨closed, ?_, graphs, execs, launches, ?_⟩
  · obtain ⟨handles, owns, standing⟩ := sound.blocks
    have none : handles = 0 := by
      have counted := congrArg Multiset.card standing
      rw [closed, Multiset.card_map] at counted
      exact Multiset.card_eq_zero.mp counted
    subst none
    intro address
    apply Option.eq_none_iff_forall_ne_some.mpr
    intro content present
    exact Multiset.notMem_zero _ ((owns.blocks address content).mp present)
  · intro address
    apply Option.eq_none_iff_forall_ne_some.mpr
    intro cell present
    -- a counted object is held by the caller, or by a graph, a plan or a launch
    rcases ((sound.calls.reachable.counted bounded).alive address).mp ⟨cell, present⟩ with
      handle | reference
    · obtain ⟨buffer, held, _⟩ := sound.calls.counted address handle
      rw [closed] at held
      exact Multiset.notMem_zero _ held
    · rw [World.references_empty graphs execs launches] at reference
      exact Multiset.notMem_zero _ reference

/-- No launch is open where no object is one. -/
theorem PyProcess.Sound.idle {process : PyProcess} (sound : process.Sound)
    (closed : ∀ (position : Nat) (launch : LaunchPtr),
      process.objects[position]? ≠ some (.launch (some launch)))
    (exec : ExecPtr) : process.system.world.busy exec = false := by
  apply Bool.eq_false_iff.mpr
  intro busy
  obtain ⟨cell, member, pending⟩ := List.any_eq_true.mp busy
  cases cell with
  | none => cases pending
  | some launch =>
      obtain ⟨address, here⟩ := List.mem_iff_getElem?.mp member
      have live : process.system.world.launches.get? address = some launch :=
        Slots.get?_eq_some.mpr here
      have held : .launch address ∈ process.natives :=
        (sound.alive (.launch address)).mpr (Option.isSome_iff_exists.mpr ⟨launch, live⟩)
      obtain ⟨object, inside, native⟩ := List.mem_filterMap.mp (Multiset.mem_coe.mp held)
      obtain ⟨position, found⟩ := List.mem_iff_getElem?.mp inside
      apply closed position address
      rw [found]
      cases object <;> simp_all [PyObject.native]

/-- The client's one duty is met where no plan comes before an open launch. -/
theorem closing_permitted {process : PyProcess} (sound : process.Sound) {index : Nat}
    {rest : List Nat} (launchesFirst : LaunchesFirst process.objects (index :: rest)) :
    process.permits (.close index) = true := by
  unfold PyProcess.permits
  dsimp only
  split
  · rename_i exec found
    rw [PyProcess.Sound.idle sound _ exec]
    · rfl
    · intro position launch open_
      simpa using launchesFirst [] index rest exec rfl found position launch open_
  · rfl

theorem LaunchesFirst.rest {objects : List PyObject} {index : Nat} {rest : List Nat}
    {object : PyObject} (found : objects[index]? = some object)
    (launchesFirst : LaunchesFirst objects (index :: rest)) :
    LaunchesFirst (objects.set index object.closed) rest := by
  have same {position : Nat} {other : PyObject} {native : Native}
      (present : (objects.set index object.closed)[position]? = some other)
      (held : other.native = some native) : position ≠ index ∧ objects[position]? = some other := by
    have inside := (List.getElem?_eq_some_iff.mp found).1
    by_cases here : position = index
    · subst here
      rw [List.getElem?_set_self inside] at present
      cases present
      simp [closed_native] at held
    · rw [List.getElem?_set_ne (Ne.symm here)] at present
      exact ⟨here, present⟩
  intro before later after exec split plan position launch opened
  obtain ⟨_, earlier⟩ := same plan rfl
  obtain ⟨away, started⟩ := same opened rfl
  have listed := launchesFirst (index :: before) later after exec (by rw [split]; rfl) earlier
    position launch started
  exact (List.mem_cons.mp listed).resolve_left away

/-- Closing these leaves the other objects as they are. -/
def Closes (order : List Nat) (objects left : List PyObject) : Prop :=
  ∀ index object, left[index]? = some object →
    object.native = none ∨ index ∉ order ∧ objects[index]? = some object

theorem closes_cons {index : Nat} {order : List Nat} {objects left : List PyObject}
    {object : PyObject} (found : objects[index]? = some object)
    (leaves : Closes order (objects.set index object.closed) left) :
    Closes (index :: order) objects left := by
  intro position other present
  rcases leaves position other present with closed | ⟨missed, kept⟩
  · exact .inl closed
  · have inside := (List.getElem?_eq_some_iff.mp found).1
    by_cases here : position = index
    · subst here
      rw [List.getElem?_set_self inside] at kept
      cases kept
      exact .inl (closed_native object)
    · rw [List.getElem?_set_ne (Ne.symm here)] at kept
      exact .inr ⟨by simp [here, missed], kept⟩

section Closings

variable {order : List Nat}

theorem closings_permitted {process : PyProcess} (sound : process.Sound)
    (bounded : process.Wrapped false) (inside : ∀ index ∈ order, index < process.objects.length)
    (launchesFirst : LaunchesFirst process.objects order) :
    process.permitsAll (order.map .close) = true := by
  induction order generalizing process with
  | nil => rfl
  | cons index rest ih =>
      have permitted := closing_permitted sound launchesFirst
      obtain ⟨object, found⟩ : ∃ object, process.objects[index]? = some object :=
        ⟨_, List.getElem?_eq_getElem (inside index List.mem_cons_self)⟩
      obtain ⟨_, kept, room, objects⟩ := closing_step sound bounded found permitted
      apply Bool.and_eq_true_iff.mpr ⟨permitted, ih kept room _ _⟩
      · intro other member
        rw [objects, List.length_set]
        exact inside other (List.mem_cons_of_mem index member)
      · rw [objects]
        exact launchesFirst.rest found

/-- A permitted order of closes succeeds from its first to its last. -/
theorem closings_run {process : PyProcess} (sound : process.Sound)
    (bounded : process.Wrapped false) (inside : ∀ index ∈ order, index < process.objects.length)
    (permitted : process.permitsAll (order.map .close) = true) :
    process.answers (order.map .close) = order.map (fun _ => .ok .nothing) ∧
      (process.run (order.map .close)).Sound ∧ (process.run (order.map .close)).Wrapped false ∧
      Closes order process.objects (process.run (order.map .close)).objects := by
  induction order generalizing process with
  | nil => exact ⟨rfl, sound, bounded, fun index object present => .inr ⟨List.not_mem_nil, present⟩⟩
  | cons index rest ih =>
      obtain ⟨first, others⟩ := Bool.and_eq_true_iff.mp permitted
      obtain ⟨object, found⟩ : ∃ object, process.objects[index]? = some object :=
        ⟨_, List.getElem?_eq_getElem (inside index List.mem_cons_self)⟩
      obtain ⟨answer, kept, room, objects⟩ := closing_step sound bounded found first
      have inside' : ∀ other ∈ rest, other < (process.after (.close index)).objects.length := by
        intro other member
        rw [objects, List.length_set]
        exact inside other (List.mem_cons_of_mem index member)
      obtain ⟨answers, final, room', leaves⟩ := ih kept room inside' others
      rw [objects] at leaves
      refine ⟨?_, final, room', closes_cons found leaves⟩
      change ((PyCall.close index).run process).1 :: _ = _
      rw [answer, answers]
      rfl

end Closings

/-- A process in which no count has run over can be closed down: an order of closes in which
plans come after the open launches is permitted, and any permitted order that comes to every
object succeeds at every step and leaves nothing of the library behind. -/
theorem closing_leaves_nothing {process : PyProcess} (reachable : process.Reachable)
    (bounded : process.system.world.env.heap.overflowed = false) {order : List Nat}
    (inside : ∀ index ∈ order, index < process.objects.length)
    (covers : ∀ index < process.objects.length, index ∈ order) :
    (LaunchesFirst process.objects order → process.permitsAll (order.map .close) = true) ∧
      (process.permitsAll (order.map .close) = true →
        process.answers (order.map .close) = order.map (fun _ => .ok .nothing) ∧
          (process.run (order.map .close)).Empty) := by
  have sound := reachable.sound.resolve_left (by simp [bounded])
  refine ⟨closings_permitted sound bounded inside, ?_⟩
  intro permitted
  obtain ⟨answers, final, room, leaves⟩ := closings_run sound bounded inside permitted
  refine ⟨answers, final.empty room ?_⟩
  have none : (process.run (order.map .close)).objects.filterMap PyObject.native = [] := by
    apply List.filterMap_eq_nil_iff.mpr
    intro object member
    obtain ⟨index, present⟩ := List.mem_iff_getElem?.mp member
    apply (leaves index object present).resolve_right
    rintro ⟨missed, before⟩
    exact missed (covers index (List.getElem?_eq_some_iff.mp before).1)
  exact congrArg Multiset.ofList none

theorem closing_leaves_nothing_of_replay :
    launchedReplay.answers ([5, 4, 2, 3, 1, 0].map .close) = List.replicate 6 (.ok .nothing) ∧
      (launchedReplay.run ([5, 4, 2, 3, 1, 0].map .close)).Empty := by
  obtain ⟨_, closes⟩ := closing_leaves_nothing launchedReplay_reachable launchedReplay_bounded
    (by decide +kernel : ∀ index ∈ [5, 4, 2, 3, 1, 0], index < launchedReplay.objects.length)
    (by decide +kernel)
  exact closes (by decide +kernel)

end MetalGraph
