import MetalGraph.Proofs.Definedness
import MetalGraph.Proofs.ErrorObjects
import MetalGraph.Proofs.NativeHandles

set_option autoImplicit false

/- The steps of the Python adapter, each with the handles that it gives and takes. -/
namespace MetalGraph

open Eff

/-! ### What the adapter holds -/

def nativesOf (objects : List PyObject) : Multiset Native :=
  Multiset.ofList (objects.filterMap PyObject.native)

def PyProcess.natives (process : PyProcess) : Multiset Native := nativesOf process.objects

/-- Devices and streams, which are not counted. -/
def Native.isBlock : Native → Bool
  | .device _ | .stream _ => true
  | .buffer _ | .graph _ | .exec _ | .launch _ => false

/-- The handle that a block is for its owner. -/
def nativeOf (entry : Nat × HeapBlock) : Option Native :=
  match entry.2 with
  | .device _ => some (.device entry.1)
  | .stream _ => some (.stream entry.1)
  | .error _ | .text _ => none

/-- The library's own tables hold what these handles stand for, and no more. -/
structure Calls (natives : Multiset Native) (system : System) : Prop where
  reachable : Reachable system
  live : ∀ native : Native, native.isBlock = false → (native ∈ natives ↔ system.Live native)
  counted : ∀ address ∈ system.handles, ∃ buffer, .buffer buffer ∈ natives ∧
    buffer.address = address

/-- These blocks are the devices and streams among the handles. -/
def StandFor (handles : Multiset (Nat × HeapBlock)) (natives : Multiset Native) : Prop :=
  handles.map nativeOf = (natives.filter fun native => native.isBlock = true).map some

/-- The assertion is about the blocks that no handle stands for. -/
structure Holds (natives : Multiset Native)
    (assertion : Multiset (Nat × HeapBlock) → BlockHeap → Prop) (process : PyProcess) : Prop where
  distinct : natives.Nodup
  calls : Calls natives process.system
  blocks : ∃ handles, assertion handles process.heap ∧ StandFor handles natives

/-- The library promises nothing once a reference count has run over. -/
def Unless (property : PyProcess → Prop) (process : PyProcess) : Prop :=
  process.system.world.env.heap.overflowed = true ∨ property process

def State (objects : List PyObject) (property : PyProcess → Prop) (process : PyProcess) : Prop :=
  process.objects = objects ∧ Unless property process

/-- A failure that leaves everything as it was, and touches nothing that is not there. -/
def Refused (objects : List PyObject) (natives : Multiset Native) (reason : PyError) :
    PyProcess → Prop :=
  State objects fun process => reason ≠ .undefined ∧ Holds natives Blocks.Owns process

/-- The same for a function of the library. -/
def CallRefused (objects : List PyObject) (natives : Multiset Native) (reason : Fault) :
    PyProcess → Prop :=
  State objects fun process => reason ≠ .undefined ∧ Holds natives Blocks.Owns process

theorem read_then {σ ε α : Type} {before : σ → Prop} {next : σ → Eff σ ε α}
    {after : α → σ → Prop} {failed : ε → σ → Prop}
    (rest : ∀ state, Triple (fun inner => inner = state ∧ before inner) (next state) after failed) :
    Triple before (Eff.read >>= next) after failed :=
  fun state start => rest state state ⟨rfl, start⟩

/-- With one handle more, if there is one. -/
def adding (natives : Multiset Native) (native : Option Native) : Multiset Native :=
  native.elim natives (· ::ₘ natives)

@[simp] theorem adding_none (natives : Multiset Native) : adding natives none = natives := rfl

@[simp] theorem adding_some (natives : Multiset Native) (native : Native) :
    adding natives (some native) = native ::ₘ natives := rfl

theorem StandFor.cons_block {handles : Multiset (Nat × HeapBlock)} {natives : Multiset Native}
    (standing : StandFor handles natives) {entry : Nat × HeapBlock} {native : Native}
    (stands : nativeOf entry = some native) (isBlock : native.isBlock = true) :
    StandFor (entry ::ₘ handles) (native ::ₘ natives) := by
  have first : (native ::ₘ natives).filter (fun native => native.isBlock = true) =
      native ::ₘ natives.filter fun native => native.isBlock = true :=
    Multiset.filter_cons_of_pos natives isBlock
  rw [StandFor, first, Multiset.map_cons, Multiset.map_cons, stands, standing]

/-- Handles of the library's tables stand for no blocks. -/
theorem standFor_cons {handles : Multiset (Nat × HeapBlock)} {natives : Multiset Native}
    {native : Native} (table : native.isBlock = false) :
    StandFor handles (native ::ₘ natives) ↔ StandFor handles natives := by
  have first : (native ::ₘ natives).filter (fun native => native.isBlock = true) =
      natives.filter fun native => native.isBlock = true :=
    Multiset.filter_cons_of_neg natives (by simp [table])
  rw [StandFor, first, StandFor]

/-- A handle stands for one block only. -/
theorem nativeOf_address {first second : Nat × HeapBlock} {native : Native}
    (one : nativeOf first = some native) (two : nativeOf second = some native) :
    first.1 = second.1 := by
  obtain ⟨address, block⟩ := first
  obtain ⟨other, content⟩ := second
  cases block <;> cases content <;> simp_all [nativeOf]
  all_goals
    subst one
    simp_all

/-- The block of a handle, apart from the others. -/
theorem StandFor.taken {handles : Multiset (Nat × HeapBlock)} {natives : Multiset Native}
    {taken : Native} (standing : StandFor handles (taken ::ₘ natives))
    (isBlock : taken.isBlock = true) :
    ∃ entry rest, handles = entry ::ₘ rest ∧ nativeOf entry = some taken ∧
      StandFor rest natives := by
  have first : (taken ::ₘ natives).filter (fun native => native.isBlock = true) =
      taken ::ₘ natives.filter fun native => native.isBlock = true :=
    Multiset.filter_cons_of_pos natives isBlock
  rw [StandFor, first, Multiset.map_cons] at standing
  obtain ⟨entry, member, equal, rest⟩ := (Multiset.map_eq_cons _ _ _ _).mpr standing
  exact ⟨entry, handles.erase entry, (Multiset.cons_erase member).symm, equal, rest⟩

/-- A device or stream that is held is there. -/
theorem StandFor.there {handles : Multiset (Nat × HeapBlock)} {natives : Multiset Native}
    {native : Native} (standing : StandFor handles natives) (isBlock : native.isBlock = true)
    (held : native ∈ natives) : ∃ entry ∈ handles, nativeOf entry = some native := by
  obtain ⟨rest, rfl⟩ := Multiset.exists_cons_of_mem held
  obtain ⟨entry, others, rfl, equal, _⟩ := standing.taken isBlock
  exact ⟨entry, Multiset.mem_cons_self _ _, equal⟩

/-- A call of the library that gives out what its value stands for, or is refused. -/
def Makes {α : Type} (objects : List PyObject) (natives : Multiset Native)
    (view : α → Option Native) (call : Eff PyProcess Fault α) : Prop :=
  Triple (State objects (Holds natives Blocks.Owns)) call
    (fun value => State objects (Holds (adding natives (view value)) Blocks.Owns))
    fun reason => CallRefused objects natives reason

section Steps

variable {objects : List PyObject} {natives : Multiset Native}

theorem State.weaken {property property' : PyProcess → Prop} {process : PyProcess}
    (state : State objects property process)
    (implied : property process → property' process) : State objects property' process :=
  ⟨state.1, state.2.imp_right implied⟩

/-! ### Calls of the library -/

theorem Response.native_isBlock {response : Response} {native : Native}
    (given : response.native = some native) : native.isBlock = false := by
  cases response <;> cases given <;> rfl

theorem Call.takes_isBlock {call : Call} {native : Native} (taken : call.takes = some native) :
    native.isBlock = false := by
  cases call with
  | counted call =>
      cases call with
      | bufferDestroy buffer => cases buffer <;> cases taken; rfl
      | _ => cases taken
  | graphDestroy handle | execDestroy handle | launchDestroy handle =>
      cases handle <;> cases taken; rfl
  | _ => cases taken

section Calls

variable {system : System} {call : Call}

/-- Devices and streams are in none of the library's tables. -/
theorem Calls.blocks_cons (calls : Calls natives system) {native : Native}
    (isBlock : native.isBlock = true) : Calls (native ::ₘ natives) system where
  reachable := calls.reachable
  live := by
    intro other table
    have different : other ≠ native := by
      rintro rfl
      simp [isBlock] at table
    rw [Multiset.mem_cons, or_iff_right different]
    exact calls.live other table
  counted := by
    intro address member
    obtain ⟨buffer, held, same⟩ := calls.counted address member
    exact ⟨buffer, Multiset.mem_cons_of_mem held, same⟩

theorem Calls.of_blocks_cons {native : Native} (calls : Calls (native ::ₘ natives) system)
    (isBlock : native.isBlock = true) : Calls natives system where
  reachable := calls.reachable
  live := by
    intro other table
    have different : other ≠ native := by
      rintro rfl
      simp [isBlock] at table
    rw [← calls.live other table, Multiset.mem_cons, or_iff_right different]
  counted := by
    intro address member
    obtain ⟨buffer, held, same⟩ := calls.counted address member
    refine ⟨buffer, (Multiset.mem_cons.mp held).resolve_left ?_, same⟩
    rintro rfl
    cases isBlock

/-- A plain call changes the handles as it says. -/
theorem Calls.step {after : Multiset Native} (calls : Calls natives system)
    (plain : call.plain = true) (permitted : system.permits call = true)
    (bounded : (system.step call).world.env.heap.overflowed = false)
    (effect : ∀ native, native ∈ after ↔ (native ∈ natives ∧ call.takes ≠ some native) ∨
      given (system.record call).result = some native) : Calls after (system.step call) where
  reachable := calls.reachable.step permitted
  live := by
    intro native table
    rw [effect, System.live_step calls.reachable plain permitted bounded, calls.live native table]
  counted := by
    intro address member
    have early : system.world.env.heap.overflowed ≠ true := by
      intro wrapped
      simp [(system.step_recorded call).env_le.overflowed wrapped] at bounded
    rw [system.step_handles plain, List.mem_append] at member
    rcases member with new | old
    · rcases made : given (system.record call).result with _ | native
      · simp [made] at new
      · cases native with
        | buffer buffer =>
            simp only [made, Option.bind_some, Native.counted, Option.toList_some,
              List.mem_singleton] at new
            exact ⟨buffer, (effect _).mpr (.inr made), new.symm⟩
        | graph | exec | launch | device | stream => simp [made, Native.counted] at new
    · rcases taken : call.takes.bind Native.counted with _ | gone
      · rw [taken] at old
        obtain ⟨buffer, held, same⟩ := calls.counted address old
        refine ⟨buffer, (effect _).mpr (.inl ⟨held, ?_⟩), same⟩
        intro wrong
        simp [wrong, Native.counted] at taken
      · rw [taken] at old
        obtain ⟨buffer, held, same⟩ := calls.counted address (List.mem_of_mem_erase old)
        refine ⟨buffer, (effect _).mpr (.inl ⟨held, ?_⟩), same⟩
        intro wrong
        have distinct := calls.reachable.holdings.distinct.resolve_left early
        simp only [wrong, Option.bind_some, Native.counted, Option.some.injEq] at taken
        rw [← taken, same] at old
        exact distinct.not_mem_erase old

/-- A permitted call never fails to destroy. -/
theorem System.takes_done {native : Native} (permitted : system.permits call = true)
    (taken : call.takes = some native) : (system.record call).result = .ok .done := by
  have live := System.takes_live permitted taken
  cases call with
  | counted call =>
      cases call with
      | bufferDestroy buffer => cases buffer <;> cases taken; rfl
      | _ => cases taken
  | graphDestroy handle =>
      cases handle <;> cases taken
      obtain ⟨graph, present⟩ := Option.isSome_iff_exists.mp live
      obtain ⟨env, ran⟩ := mgGraphDestroy_total graph system.world.env
      exact congrArg Prod.fst (destroying_live present ran)
  | execDestroy handle =>
      cases handle <;> cases taken
      obtain ⟨exec, present⟩ := Option.isSome_iff_exists.mp live
      obtain ⟨env, ran⟩ := mgGraphExecDestroy_total exec system.world.env
      exact congrArg Prod.fst (destroying_live present ran)
  | launchDestroy handle =>
      cases handle <;> cases taken
      obtain ⟨launch, present⟩ := Option.isSome_iff_exists.mp live
      obtain ⟨env, ran⟩ := mgLaunchDestroy_total launch system.world.env
      exact congrArg Prod.fst (destroying_live present ran)
  | _ => cases taken

end Calls

theorem native_apply (queue : Option Nat) (call : Call) (process : PyProcess) :
    ∃ gpu, native queue call process = ((process.system.record call).result,
      { process with system := process.system.step call, gpu := gpu }) := ⟨_, rfl⟩

/-- A call that is refused or that gives out a handle. -/
theorem native_gives {queue : Option Nat} {call : Call} {view : Response → Option Native}
    (plain : call.plain = true) (keeps : call.takes = none)
    (permitted : ∀ system, Calls natives system → system.permits call = true)
    (answers : ∀ system response, (System.record system call).result = .ok response →
      view response = response.native) : Makes objects natives view (native queue call) := by
  intro process start
  obtain ⟨same, safe⟩ := start
  have step := process.system.step_recorded call
  obtain ⟨gpu, ran⟩ := native_apply queue call process
  rw [ran]
  by_cases wrapped : (process.system.step call).world.env.heap.overflowed = true
  · rcases (process.system.record call).result with reason | response
    · exact ⟨same, .inl wrapped⟩
    · exact ⟨same, .inl wrapped⟩
  · have bounded := Bool.not_eq_true _ ▸ wrapped
    have early : process.system.world.env.heap.overflowed ≠ true :=
      fun before => wrapped (step.env_le.overflowed before)
    obtain ⟨distinct, calls, handles, blocks, listed⟩ := safe.resolve_left early
    have allowed := permitted _ calls
    have effect := fun after => @Calls.step natives process.system call after calls plain allowed
      bounded
    simp only [keeps, reduceCtorEq, ne_eq, not_false_eq_true, and_true] at effect
    rcases answer : (process.system.record call).result with reason | response
    · refine ⟨same, .inr ⟨?_, distinct, ?_, handles, blocks, listed⟩⟩
      · rintro rfl
        exact calls.reachable.fails_ordinary allowed answer
      · exact effect natives (by simp [answer, given])
    · refine ⟨same, .inr ?_⟩
      rw [answers process.system response answer]
      rcases made : response.native with _ | fresh
      · exact ⟨distinct, effect natives (by simp [answer, given, made]), handles, blocks, listed⟩
      · have table := Response.native_isBlock made
        have unused := System.given_fresh calls.reachable plain (by simpa using early)
          (answer ▸ made : given (process.system.record call).result = some fresh)
        rw [← calls.live fresh table] at unused
        refine ⟨Multiset.nodup_cons.mpr ⟨unused, distinct⟩, ?_, handles, blocks, ?_⟩
        · apply effect
          intro other
          simp [answer, given, made, or_comm, eq_comm]
        · exact (standFor_cons table).mpr listed

/-- A call that destroys a handle. -/
theorem native_takes {call : Call} {taken : Native} (plain : call.plain = true)
    (takes : call.takes = some taken) :
    Triple (State objects fun process => Holds (taken ::ₘ natives) Blocks.Owns process ∧
        process.system.permits call = true) (native none call)
      (fun _ => State objects (Holds natives Blocks.Owns))
      fun _ => State objects fun _ => False := by
  intro process start
  obtain ⟨same, safe⟩ := start
  have step := process.system.step_recorded call
  obtain ⟨gpu, ran⟩ := native_apply none call process
  rw [ran]
  by_cases wrapped : (process.system.step call).world.env.heap.overflowed = true
  · rcases (process.system.record call).result with reason | response
    · exact ⟨same, .inl wrapped⟩
    · exact ⟨same, .inl wrapped⟩
  · have bounded := Bool.not_eq_true _ ▸ wrapped
    have early : process.system.world.env.heap.overflowed ≠ true :=
      fun before => wrapped (step.env_le.overflowed before)
    obtain ⟨⟨distinct, calls, handles, blocks, listed⟩, allowed⟩ := safe.resolve_left early
    have answer := System.takes_done allowed takes
    obtain ⟨apart, distinct'⟩ := Multiset.nodup_cons.mp distinct
    rw [answer]
    refine ⟨same, .inr ⟨distinct', ?_, handles, blocks, ?_⟩⟩
    · apply calls.step plain allowed bounded
      intro other
      rw [answer, takes]
      by_cases here : other = taken
      · subst here
        simp [apart, given, Response.native]
      · simp [here, given, Response.native, Ne.symm here]
    · exact (standFor_cons (Call.takes_isBlock takes)).mp listed

/-! ### Calls on blocks -/

/-- A call on blocks that no handle stands for. -/
theorem onBlocks_keeps {α : Type} {body : OnBlocks α}
    {before : Multiset (Nat × HeapBlock) → BlockHeap → Prop}
    {after : α → Multiset (Nat × HeapBlock) → BlockHeap → Prop}
    {failed : Fault → Multiset (Nat × HeapBlock) → BlockHeap → Prop}
    (spec : ∀ handles, Triple (before handles) body (fun value => after value handles)
      fun reason => failed reason handles) :
    Triple (State objects (Holds natives before)) (onBlocks body)
      (fun value => State objects (Holds natives (after value)))
      fun reason => State objects (Holds natives (failed reason)) := by
  intro process start
  obtain ⟨same, safe⟩ := start
  have held : ∀ {assertion : Multiset (Nat × HeapBlock) → BlockHeap → Prop} {heap : BlockHeap},
      (∀ handles, before handles process.heap → assertion handles heap) →
      State objects (Holds natives assertion) { process with heap := heap } := by
    intro assertion heap implied
    refine ⟨same, safe.imp_right ?_⟩
    rintro ⟨distinct, calls, handles, blocks, listed⟩
    exact ⟨distinct, calls, handles, implied handles blocks, listed⟩
  unfold onBlocks Eff.zoom
  rcases ran : body process.heap with ⟨reason | value, heap⟩
  · exact held fun handles blocks => (spec handles).error blocks ran
  · exact held fun handles blocks => (spec handles).ok blocks ran

theorem onHeap_keeps {α : Type} {body : OnBlocks α}
    {before : Multiset (Nat × HeapBlock) → BlockHeap → Prop}
    {after : α → Multiset (Nat × HeapBlock) → BlockHeap → Prop}
    {failed : PyError → PyProcess → Prop}
    (spec : ∀ handles, Triple (before handles) body (fun value => after value handles)
      fun _ _ => False)
    (stops : ∀ process, process.system.world.env.heap.overflowed = true →
      process.objects = objects → failed .undefined process) :
    Triple (State objects (Holds natives before)) (onHeap body)
      (fun value => State objects (Holds natives (after value))) failed := by
  apply (onBlocks_keeps spec).catching
  intro reason
  apply Triple.fail
  rintro process ⟨same, wrapped | held⟩
  · exact stops process wrapped same
  · obtain ⟨_, _, _, impossible, _⟩ := held
    exact impossible.elim

/-- A call on blocks that makes a handle. -/
theorem onBlocks_gives {body : OnBlocks Nat} {native : Nat → Native}
    (spec : ∀ owned, StandFor owned natives → Triple (Blocks.Owns owned) body
      (fun address heap => ∃ block, nativeOf (address, block) = some (native address) ∧
        Blocks.Owns ((address, block) ::ₘ owned) heap)
      fun reason heap => reason ≠ .undefined ∧ Blocks.Owns owned heap)
    (isBlock : ∀ address, (native address).isBlock = true) :
    Makes objects natives (fun address => some (native address)) (onBlocks body) := by
  intro process start
  obtain ⟨same, safe⟩ := start
  unfold onBlocks Eff.zoom
  rcases ran : body process.heap with ⟨reason | address, heap⟩
  · refine ⟨same, safe.imp_right ?_⟩
    rintro ⟨distinct, calls, handles, owns, listed⟩
    obtain ⟨defined, kept⟩ := (spec handles listed).error owns ran
    exact ⟨defined, distinct, calls, handles, kept, listed⟩
  · refine ⟨same, safe.imp_right ?_⟩
    rintro ⟨distinct, calls, handles, owns, listed⟩
    obtain ⟨block, stands, grown⟩ := (spec handles listed).ok owns ran
    -- a handle that was there already would stand for a block at the same address
    have unused : native address ∉ natives := by
      intro held
      obtain ⟨⟨other, content⟩, present, equal⟩ := listed.there (isBlock address) held
      have here := nativeOf_address equal stands
      subst here
      exact grown.apart present
    exact ⟨Multiset.nodup_cons.mpr ⟨unused, distinct⟩, calls.blocks_cons (isBlock address),
      (address, block) ::ₘ handles, grown, listed.cons_block stands (isBlock address)⟩

/-- A call on blocks that destroys a handle. -/
theorem onHeap_takes {body : OnBlocks Unit} {taken : Native}
    {failed : PyError → PyProcess → Prop}
    (spec : ∀ entry owned, nativeOf entry = some taken →
      Triple (Blocks.Owns (entry ::ₘ owned)) body (fun _ => Blocks.Owns owned) fun _ _ => False)
    (isBlock : taken.isBlock = true)
    (stops : ∀ process, process.system.world.env.heap.overflowed = true →
      process.objects = objects → failed .undefined process) :
    Triple (State objects (Holds (taken ::ₘ natives) Blocks.Owns)) (onHeap body)
      (fun _ => State objects (Holds natives Blocks.Owns)) failed := by
  rintro process ⟨same, safe⟩
  unfold onHeap Eff.catching onBlocks Eff.zoom
  rcases ran : body process.heap with ⟨reason | value, heap⟩
  · rcases safe with wrapped | ⟨distinct, calls, handles, owns, listed⟩
    · exact stops _ wrapped same
    · obtain ⟨entry, rest, rfl, equal, _⟩ := listed.taken isBlock
      exact ((spec entry rest equal).error owns ran).elim
  · refine ⟨same, safe.imp_right ?_⟩
    rintro ⟨distinct, calls, handles, owns, listed⟩
    obtain ⟨entry, rest, rfl, equal, listed'⟩ := listed.taken isBlock
    exact ⟨(Multiset.nodup_cons.mp distinct).2, calls.of_blocks_cons isBlock, rest,
      (spec entry rest equal).ok owns ran, listed'⟩

/-- A call that only reads blocks. -/
theorem onBlocks_reads {α : Type} {body : OnBlocks α}
    (spec : ∀ handles, StandFor handles natives → Triple (Blocks.Owns handles) body
      (fun _ => Blocks.Owns handles) fun _ _ => False) :
    Triple (State objects (Holds natives Blocks.Owns)) (onBlocks body)
      (fun _ => State objects (Holds natives Blocks.Owns)) (CallRefused objects natives) := by
  rintro process ⟨same, safe⟩
  unfold onBlocks Eff.zoom
  rcases ran : body process.heap with ⟨reason | value, heap⟩
  · refine ⟨same, safe.imp_right ?_⟩
    rintro ⟨_, _, handles, owns, listed⟩
    exact ((spec handles listed).error owns ran).elim
  · refine ⟨same, safe.imp_right ?_⟩
    rintro ⟨distinct, calls, handles, owns, listed⟩
    exact ⟨distinct, calls, handles, (spec handles listed).ok owns ran, listed⟩

/-! ### Errors -/

/-- What is in the heap while an answer is being read: the error, if there is one. -/
def Reported (error : Option Nat) (handles : Multiset (Nat × HeapBlock)) (heap : BlockHeap) :
    Prop :=
  error.elim (Blocks.Owns handles heap) fun address =>
    ∃ object : ErrorObject, object.address = address ∧ Blocks.Owns (object.blocks + handles) heap

/-- An answer with its error in the heap. -/
def Answered {α : Type} (objects : List PyObject) (natives : Multiset Native)
    (view : α → Option Native) (answer : Answer α) : PyProcess → Prop :=
  State objects fun process => (answer.status ≠ .ok → answer.out = none) ∧
    Holds (adding natives (answer.out.bind view)) (Reported answer.error) process

variable {α : Type} {view : α → Option Native}

/-- Objects are as they were where only the library is at fault. -/
theorem refused_wrapped {process : PyProcess} {reason : PyError}
    (wrapped : process.system.world.env.heap.overflowed = true)
    (same : process.objects = objects) : Refused objects natives reason process :=
  ⟨same, .inl wrapped⟩

theorem mgSetErrorOut_reports (error : MgError) (text : Option String)
    (handles : Multiset (Nat × HeapBlock)) :
    Triple (Blocks.Owns handles) (mgSetErrorOut true error.status error.stage error.nodeId
        (some error.message) text)
      (fun report heap => Reported report.error handles heap) fun _ _ => False := by
  have handed : Triple (Blocks.Owns handles) _ _ fun _ _ => False :=
    raise_never_fails ⟨error.status, error.stage, error.nodeId, some error.message, text⟩ true
  apply handed.weaken (fun _ start => start) _ fun _ _ stop => stop
  rintro report heap ⟨_, ⟨nothing, owns⟩ | ⟨object, _, address, owns⟩⟩
  · rw [nothing]
    exact owns
  · rw [address]
    exact ⟨object, rfl, owns⟩

theorem reporting_answers (reason : Fault) :
    Triple (CallRefused objects natives reason) (reporting reason : Py (Answer α))
      (Answered objects natives view) (Refused objects natives) := by
  cases reason with
  | undefined =>
      apply Triple.fail
      rintro process ⟨same, wrapped | ⟨absurdity, _⟩⟩
      · exact refused_wrapped wrapped same
      · exact (absurdity rfl).elim
  | error error =>
      refine read_then fun process => ?_
      apply Triple.bind
      · have reports := @onHeap_keeps objects natives _ _ _ _ (Refused objects natives)
          (mgSetErrorOut_reports error (process.text error)) fun process => refused_wrapped
        apply reports.weaken _ (fun _ _ stop => stop) fun _ _ stop => stop
        rintro process ⟨_, start⟩
        exact start.weaken And.right
      · intro report
        apply Triple.pure
        intro process start
        apply start.weaken
        intro held
        exact ⟨fun _ => rfl, held⟩

/-- A call with its answer in C's own form. -/
theorem answering_answers {call : Eff PyProcess Fault α} (spec : Makes objects natives view call) :
    Triple (State objects (Holds natives Blocks.Owns)) (answering call)
      (Answered objects natives view) (Refused objects natives) := by
  apply Triple.catching _ reporting_answers
  apply spec.bind
  intro value
  apply Triple.pure
  intro process start
  exact start.weaken fun held => ⟨fun failed => (failed rfl).elim, held⟩

/-- Reading an error that is there leaves it there. -/
theorem reported_reads {β : Type} {body : OnBlocks β} {address : Nat}
    (reads : ∀ told heap, Reads told address heap → ∃ value, body heap = (.ok value, heap))
    (handles : Multiset (Nat × HeapBlock)) :
    Triple (Reported (some address) handles) body (fun _ => Reported (some address) handles)
      fun _ _ => False := by
  rintro heap ⟨object, rfl, owns⟩
  obtain ⟨value, ran⟩ := reads _ _ (object.reads owns)
  rw [ran]
  exact ⟨object, rfl, owns⟩

theorem mgErrorDestroy_reports {address : Nat} (handles : Multiset (Nat × HeapBlock)) :
    Triple (Reported (some address) handles) (mgErrorDestroy (some address))
      (fun _ => Blocks.Owns handles) fun _ _ => False := by
  rintro heap ⟨object, rfl, owns⟩
  exact destroy_never_fails object heap owns

theorem raiseFromError_refused (status : MgStatus) (error : Option Nat) :
    Triple (State objects (Holds natives (Reported error)))
      (raiseFromError status error : Py α) (fun _ _ => False) (Refused objects natives) := by
  cases error with
  | none =>
      apply Triple.fail
      intro process start
      exact start.weaken fun held => ⟨by simp, held⟩
  | some address =>
      have reading {β : Type} {body : OnBlocks β}
          (reads : ∀ told heap, Reads told address heap → ∃ value, body heap = (.ok value, heap)) :
          Triple (State objects (Holds natives (Reported (some address)))) (onHeap body)
            (fun _ => State objects (Holds natives (Reported (some address))))
            (Refused objects natives) :=
        onHeap_keeps (reported_reads reads) fun process => refused_wrapped
      apply (reading fun _ _ reads => ⟨_, reads.status⟩).bind
      intro raised
      apply (reading fun _ _ reads => ⟨_, reads.stage⟩).bind
      intro stage
      apply (reading fun _ _ reads => ⟨_, reads.nodeId⟩).bind
      intro nodeId
      apply (reading fun _ _ reads => ⟨_, reads.message⟩).bind
      intro message
      apply (reading fun _ _ reads => ⟨_, reads.backendMessage⟩).bind
      intro backendMessage
      apply (onHeap_keeps mgErrorDestroy_reports fun process => refused_wrapped).bind
      intro _
      apply Triple.fail
      intro process start
      exact start.weaken fun held => ⟨by simp, held⟩

/-- An answer that is not a success becomes an exception, and no error stays behind. -/
theorem check_checked (answer : Answer α) :
    Triple (Answered objects natives view answer) (check answer)
      (fun out => State objects (Holds (adding natives (out.bind view)) Blocks.Owns))
      (Refused objects natives) := by
  obtain ⟨status, error, out⟩ := answer
  have raised : Triple (Answered objects natives view ⟨status, error, out⟩)
      (whenever (status ≠ .ok) (raiseFromError status error))
      (fun _ => State objects (Holds (adding natives (out.bind view)) (Reported error)))
      (Refused objects natives) := by
    apply Triple.whenever
    · intro failed
      have refused : Triple (State objects (Holds natives (Reported error)))
          (raiseFromError status error : Py Unit) _ (Refused objects natives) :=
        raiseFromError_refused status error
      apply refused.weaken
      · intro process start
        apply start.weaken
        rintro ⟨nothing, held⟩
        have gone : out = none := nothing failed
        simpa [adding, gone] using held
      · intro _ _ absurdity
        exact absurdity.elim
      · exact fun _ _ stop => stop
    · intro _ process start
      exact start.weaken And.right
  apply raised.bind
  intro _
  cases error with
  | none => exact Triple.pure fun process start => start
  | some address =>
      have destroyed : Triple _ (onHeap (mgErrorDestroy (some address)))
          (fun _ => State objects (Holds (adding natives (out.bind view)) Blocks.Owns))
          (Refused objects natives) :=
        onHeap_keeps mgErrorDestroy_reports fun process => refused_wrapped
      apply destroyed.bind
      intro _
      exact Triple.pure fun process start => start

/-! ### Objects -/

/-- The client's own data are not the library's concern. -/
theorem Holds.framed {assertion : Multiset (Nat × HeapBlock) → BlockHeap → Prop}
    {process other : PyProcess} (held : Holds natives assertion process)
    (system : other.system = process.system) (heap : other.heap = process.heap) :
    Holds natives assertion other := by
  obtain ⟨distinct, calls, handles, blocks, listed⟩ := held
  exact ⟨distinct, system ▸ calls, handles, heap ▸ blocks, listed⟩

theorem newObject_adds {assertion : Multiset (Nat × HeapBlock) → BlockHeap → Prop}
    {failed : PyError → PyProcess → Prop} (object : PyObject) :
    Triple (State objects (Holds natives assertion)) (newObject object)
      (fun index process => index = objects.length ∧
        State (objects ++ [object]) (Holds natives assertion) process) failed := by
  apply read_then
  rintro process inner ⟨rfl, rfl, held⟩
  exact ⟨rfl, rfl, held.imp_right fun kept => kept.framed rfl rfl⟩

theorem setObject_sets {assertion : Multiset (Nat × HeapBlock) → BlockHeap → Prop}
    {failed : PyError → PyProcess → Prop} (index : Nat) (object : PyObject) :
    Triple (State objects (Holds natives assertion)) (setObject index object)
      (fun _ => State (objects.set index object) (Holds natives assertion)) failed := by
  apply Triple.update
  rintro process ⟨rfl, held⟩
  exact ⟨rfl, held.imp_right fun kept => kept.framed rfl rfl⟩

/-- Looking an object up tells what it is, whatever the library does. -/
theorem objectAt_then {α : Type} {property : PyProcess → Prop} {index : Nat}
    {next : PyObject → Py α} {after : α → PyProcess → Prop} {failed : PyError → PyProcess → Prop}
    (rest : ∀ object, objects[index]? = some object →
      Triple (State objects property) (next object) after failed)
    (stops : ∀ process, State objects property process → failed .wrongClass process) :
    Triple (State objects property) (objectAt index >>= next) after failed := by
  rintro process ⟨same, held⟩
  unfold objectAt
  rcases found : process.objects[index]? with _ | object
  · simpa only [bind_apply, read_apply, found, orFail_none] using stops process ⟨same, held⟩
  · have reached := rest object (same ▸ found) process ⟨same, held⟩
    simpa only [bind_apply, read_apply, found, orFail_some] using reached

/-- A handle that is read from an object of its class. -/
theorem handleOf_then {τ α : Type} {view : PyObject → Option τ} {property : PyProcess → Prop}
    {index : Nat} {next : τ → Py α} {after : α → PyProcess → Prop}
    {failed : PyError → PyProcess → Prop}
    (rest : ∀ object handle, objects[index]? = some object → view object = some handle →
      Triple (State objects property) (next handle) after failed)
    (stops : ∀ process, State objects property process → failed .wrongClass process) :
    Triple (State objects property) (handleOf view index >>= next) after failed := by
  unfold handleOf
  rw [bind_assoc]
  apply objectAt_then _ stops
  intro object found
  exact Triple.orFail (fun handle seen => rest object handle found seen)
    fun _ process start => stops process start

theorem mem_nativesOf {index : Nat} {object : PyObject} {native : Native}
    (found : objects[index]? = some object) (holds : object.native = some native) :
    native ∈ nativesOf objects :=
  List.mem_filterMap.mpr ⟨object, List.mem_of_getElem? found, holds⟩

theorem nativesOf_append (object : PyObject) :
    nativesOf (objects ++ [object]) = adding (nativesOf objects) object.native := by
  unfold nativesOf adding
  rw [List.filterMap_append]
  rcases held : object.native with _ | native
  · simp [held]
  · rw [List.filterMap_cons_some held, List.filterMap_nil, ← Multiset.coe_add,
      Multiset.coe_singleton, add_comm, Multiset.singleton_add]
    rfl

end Steps

/-! ### What blocks and objects have no part in -/

/-- Neither the blocks nor the objects of a process have a part in the property. -/
structure Aside (property : PyProcess → Prop) : Prop where
  heap : ∀ process heap, property process → property { process with heap := heap }
  objects : ∀ process objects, property process → property { process with objects := objects }

section Aside

variable {α : Type} {property : PyProcess → Prop} {excused : Fault → Prop}
  {excused' : PyError → Prop}

theorem native_stable {queue : Option Nat} {call : Call}
    (kept : ∀ process gpu, property process →
      property { process with system := process.system.step call, gpu := gpu }) :
    Stable excused property (native queue call) := by
  intro process holds
  obtain ⟨gpu, ran⟩ := native_apply queue call process
  rw [ran]
  rcases (process.system.record call).result with reason | response
  · exact .inr (kept process gpu holds)
  · exact kept process gpu holds

theorem handleOf_stable {τ : Type} (view : PyObject → Option τ) (index : Nat) :
    Stable excused' property (handleOf view index) :=
  .bind (.bind .read fun _ => .orFail) fun _ => .orFail

namespace Aside

theorem onBlocks_stable (aside : Aside property) (body : OnBlocks α) :
    Stable excused property (onBlocks body) := by
  intro process holds
  unfold onBlocks Eff.zoom
  rcases body process.heap with ⟨reason | value, heap⟩
  · exact .inr (aside.heap process heap holds)
  · exact aside.heap process heap holds

theorem onHeap_stable (aside : Aside property) (body : OnBlocks α) :
    Stable excused' property (onHeap body) :=
  .catching (aside.onBlocks_stable body) fun _ => .fail _

theorem answering_stable (aside : Aside property) {call : Eff PyProcess Fault α}
    (inner : Stable (fun _ => False) property call) :
    Stable excused' property (answering call) := by
  apply Stable.catching (inner.bind fun _ => .pure _)
  intro reason
  cases reason with
  | undefined => exact .fail _
  | error error => exact .bind .read fun _ => .bind (aside.onHeap_stable _) fun _ => .pure _

theorem raiseFromError_stable (aside : Aside property) (status : MgStatus)
    (error : Option Nat) : Stable excused' property (raiseFromError status error : Py α) := by
  cases error with
  | none => exact .fail _
  | some address =>
      exact .bind (aside.onHeap_stable _) fun _ => .bind (aside.onHeap_stable _) fun _ =>
        .bind (aside.onHeap_stable _) fun _ => .bind (aside.onHeap_stable _) fun _ =>
        .bind (aside.onHeap_stable _) fun _ => .bind (aside.onHeap_stable _) fun _ => .fail _

theorem check_stable (aside : Aside property) (answer : Answer α) :
    Stable excused' property (check answer) :=
  .bind (.whenever fun _ => aside.raiseFromError_stable _ _) fun _ =>
    .bind (.whenever fun _ => aside.onHeap_stable _) fun _ => .pure _

/-- A call of the library with `check`. -/
theorem asking_stable (aside : Aside property) {β : Type} {call : Eff PyProcess Fault α}
    {next : Option α → Py β} (inner : Stable (fun _ => False) property call)
    (rest : ∀ out, Stable excused' property (next out)) :
    Stable excused' property (do
      let answer ← answering call
      let out ← check answer
      next out) :=
  .bind (aside.answering_stable inner) fun _ => .bind (aside.check_stable _) rest

theorem newObject_stable (aside : Aside property) (object : PyObject) :
    Stable excused' property (newObject object) :=
  .bind .read fun _ => .bind (.update fun _ holds => aside.objects _ _ holds) fun _ => .pure _

theorem setObject_stable (aside : Aside property) (index : Nat) (object : PyObject) :
    Stable excused' property (setObject index object) :=
  .update fun _ holds => aside.objects _ _ holds

theorem close_stable (aside : Aside property) (index : Nat)
    (called : ∀ (call : Call) (taken : Native), call.takes = some taken →
      Stable (fun _ => False) property (native none call)) :
    Stable excused' property (close index) := by
  have released {call : Call} {taken : Native} (takes : call.takes = some taken) :
      Stable excused' property (Native.destroy.released call) :=
    .catching (.bind (called call taken takes) fun _ => .pure _) fun _ => .fail _
  have destroyed (handle : Native) : Stable excused' property handle.destroy := by
    cases handle with
    | device | stream => exact aside.onHeap_stable _
    | buffer | graph | exec | launch => exact released rfl
  apply Stable.bind (.bind .read fun _ => .orFail)
  intro object
  cases object.native with
  | none => exact .pure ()
  | some handle => exact .bind (destroyed handle) fun _ => aside.setObject_stable _ _

end Aside

end Aside

end MetalGraph
