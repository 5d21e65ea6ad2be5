import Mathlib.Data.Multiset.Bind
import MetalGraph.Model.Errors

set_option autoImplicit false

/- Error objects through their whole lives: however often the allocator refuses, an error
that was handed out tells what was reported, and nothing is left of one that was destroyed. -/
namespace MetalGraph

open Eff

/-- What a report says. -/
structure ErrorReport where
  status : MgStatus
  stage : MgErrorStage
  nodeId : MgNodeId
  message : Option String
  backendMessage : Option String
deriving DecidableEq, Repr

/-- An error without a message of its own tells its status. -/
def ErrorReport.text (told : ErrorReport) : String := told.message.getD (mgStatusString told.status)

def ErrorReport.raise (told : ErrorReport) (wanted : Bool) : OnBlocks Report :=
  mgSetErrorOut wanted told.status told.stage told.nodeId told.message told.backendMessage

/-- An error object with the addresses of its texts. -/
structure ErrorObject where
  address : Nat
  told : ErrorReport
  message : Nat
  backendMessage : Option Nat
  paired : backendMessage = none ↔ told.backendMessage = none
deriving DecidableEq

def ErrorObject.block (object : ErrorObject) : ErrorBlock :=
  ⟨object.told.status, object.told.stage, object.told.nodeId, some object.message,
    object.backendMessage⟩

def ErrorObject.blocks (object : ErrorObject) : Multiset (Nat × HeapBlock) :=
  (object.address, .error object.block) ::ₘ (object.message, .text object.told.text) ::ₘ
    Blocks.pointed object.backendMessage (.text (object.told.backendMessage.getD ""))

/-- The blocks that an error of this report consists of. -/
def ErrorReport.blockCount (told : ErrorReport) : Nat :=
  2 + told.backendMessage.elim 0 fun _ => 1

theorem ErrorObject.card_blocks (object : ErrorObject) :
    object.blocks.card = object.told.blockCount := by
  have paired := object.paired
  rcases texts : object.told.backendMessage with _ | text <;>
    rcases given : object.backendMessage with _ | address <;>
    simp [ErrorObject.blocks, ErrorReport.blockCount, Blocks.pointed, texts, given] at paired ⊢

section Rules

variable {owned : Multiset (Nat × HeapBlock)} {failed : Fault → BlockHeap → Prop}

theorem mgStrdup_owns (value : Option String) :
    Triple (Blocks.Owns owned) (mgStrdup value)
      (fun address heap => (value = none → address = none) ∧
        Blocks.Owns (Blocks.pointed address (.text (value.getD "")) + owned) heap) failed := by
  cases value with
  | none => exact Triple.pure fun _ owns => ⟨fun _ => rfl, by simpa using owns⟩
  | some text =>
      apply (Blocks.malloc_owns _).weaken (fun _ start => start) _ fun _ _ stop => stop
      intro address heap owns
      exact ⟨by simp, owns⟩

theorem errorAt_then {α : Type} {address : Nat} {error : ErrorBlock}
    {next : ErrorBlock → OnBlocks α} {after : α → BlockHeap → Prop}
    (member : (address, .error error) ∈ owned)
    (rest : Triple (Blocks.Owns owned) (next error) after failed) :
    Triple (Blocks.Owns owned) (errorAt address >>= next) after failed := by
  unfold errorAt
  rw [Eff.bind_assoc]
  exact Blocks.load_then Fault.undefined member rest

/-- Destroying an error frees its texts, as far as it has any, and the error itself. -/
theorem mgErrorDestroy_frees {address : Nat} (error : ErrorBlock) (text backendText : HeapBlock) :
    Triple (Blocks.Owns (Blocks.pointed error.message text +
        (Blocks.pointed error.backendMessage backendText + ((address, .error error) ::ₘ owned))))
      (mgErrorDestroy (some address)) (fun _ => Blocks.Owns owned) failed := by
  refine errorAt_then (Multiset.mem_add.mpr (.inr (Multiset.mem_add.mpr (.inr
    (Multiset.mem_cons_self _ _))))) ?_
  apply (Blocks.free_pointed _ _).bind
  intro _
  apply (Blocks.free_pointed _ _).bind
  intro _
  exact Blocks.free_owns _

theorem mgErrorDestroy_owns (object : ErrorObject) :
    Triple (Blocks.Owns (object.blocks + owned)) (mgErrorDestroy (some object.address))
      (fun _ => Blocks.Owns owned) failed := by
  have split : object.blocks + owned =
      Blocks.pointed object.block.message (.text object.told.text) +
        (Blocks.pointed object.block.backendMessage (.text (object.told.backendMessage.getD "")) +
          ((object.address, .error object.block) ::ₘ owned)) := by
    simp only [ErrorObject.blocks, ErrorObject.block, Blocks.pointed_some,
      ← Multiset.singleton_add]
    ac_rfl
  rw [split]
  exact mgErrorDestroy_frees _ _ _

/-- What a report leaves behind: its status, and a whole error object or nothing. -/
def ErrorReport.Handed (told : ErrorReport) (owned : Multiset (Nat × HeapBlock)) (report : Report)
    (heap : BlockHeap) : Prop :=
  report.status = told.status ∧
    (report.error = none ∧ Blocks.Owns owned heap ∨
      ∃ object : ErrorObject, object.told = told ∧ report.error = some object.address ∧
        Blocks.Owns (object.blocks + owned) heap)

/-- Where a text is missing, the error is destroyed again before anyone sees it. -/
theorem fillError_owns {told : ErrorReport} {address : Nat} {text backendText : Option Nat}
    (old : HeapBlock) (untold : told.backendMessage = none → backendText = none) :
    Triple (Blocks.Owns ((address, old) ::ₘ (Blocks.pointed text (.text told.text) +
        (Blocks.pointed backendText (.text (told.backendMessage.getD "")) + owned))))
      (do
        Blocks.store .undefined address
          (.error ⟨told.status, told.stage, told.nodeId, text, backendText⟩)
        if text = none ∨ (told.backendMessage ≠ none ∧ backendText = none) then do
          mgErrorDestroy (some address)
          pure ⟨told.status, none⟩
        else pure ⟨told.status, some address⟩ : OnBlocks Report)
      (told.Handed owned) failed := by
  apply (Blocks.store_owns _ _).bind
  intro _
  by_cases incomplete : text = none ∨ (told.backendMessage ≠ none ∧ backendText = none)
  · rw [if_pos incomplete]
    have destroyed : Triple _ _ (fun _ => Blocks.Owns owned) failed :=
      @mgErrorDestroy_frees owned failed address
        ⟨told.status, told.stage, told.nodeId, text, backendText⟩ (.text told.text)
        (.text (told.backendMessage.getD ""))
    rw [Multiset.add_cons, Multiset.add_cons] at destroyed
    apply destroyed.bind
    intro _
    exact Triple.pure fun _ owns => ⟨rfl, .inl ⟨rfl, owns⟩⟩
  · rw [if_neg incomplete]
    obtain ⟨present, told'⟩ := not_or.mp incomplete
    obtain ⟨message, rfl⟩ := Option.ne_none_iff_exists'.mp present
    apply Triple.pure
    intro heap owns
    refine ⟨rfl, .inr ⟨⟨address, told, message, backendText, ?_⟩, rfl, rfl, ?_⟩⟩
    · constructor
      · intro missing
        by_contra present
        exact told' ⟨present, missing⟩
      · exact untold
    · simpa [ErrorObject.blocks, ErrorObject.block, Multiset.cons_add, add_assoc] using owns

/-- A report returns its status whatever is refused, and hands out a whole error or none. -/
theorem raise_owns (told : ErrorReport) (wanted : Bool) :
    Triple (Blocks.Owns owned) (told.raise wanted) (told.Handed owned) failed := by
  unfold ErrorReport.raise mgSetErrorOut
  cases wanted with
  | false => exact Triple.pure fun _ owns => ⟨rfl, .inl ⟨rfl, owns⟩⟩
  | true =>
      simp only [Bool.true_eq_false, ↓reduceIte]
      apply (Blocks.malloc_owns _).bind
      intro created
      cases created with
      | none => exact Triple.pure fun _ owns => ⟨rfl, .inl ⟨rfl, by simpa using owns⟩⟩
      | some address =>
          apply (mgStrdup_owns _).bind
          intro text
          apply Triple.known
          intro _
          apply (mgStrdup_owns _).bind
          intro backendText
          apply Triple.known
          intro untold
          apply (fillError_owns (.error ⟨.ok, .none, 0, none, none⟩) untold).weaken _
            (fun _ _ handed => handed) fun _ _ stop => stop
          intro heap owns
          rw [Blocks.pointed_some, Multiset.singleton_add, Multiset.add_cons, Multiset.add_cons,
            add_left_comm] at owns
          exact owns

end Rules

/-- The requests of a report are those for the object and for each of its texts. -/
theorem granted_iff (told : ErrorReport) (granted : Nat → Prop) :
    (∀ index < told.blockCount, granted index) ↔
      granted 0 ∧ granted 1 ∧ (told.backendMessage ≠ none → granted 2) := by
  unfold ErrorReport.blockCount
  rcases told.backendMessage with _ | text
  · constructor
    · intro all
      exact ⟨all 0 (by decide), all 1 (by decide), fun absurdity => (absurdity rfl).elim⟩
    · rintro ⟨first, second, _⟩ index inside
      have position : index = 0 ∨ index = 1 := by
        simp only [Option.elim_none] at inside
        omega
      rcases position with rfl | rfl
      · exact first
      · exact second
  · constructor
    · intro all
      exact ⟨all 0 (by simp), all 1 (by simp), fun _ => all 2 (by simp)⟩
    · rintro ⟨first, second, third⟩ index inside
      have position : index = 0 ∨ index = 1 ∨ index = 2 := by
        simp only [Option.elim_some] at inside
        omega
      rcases position with rfl | rfl | rfl
      · exact first
      · exact second
      · exact third (by simp)

theorem always {α : Type} (body : OnBlocks α) :
    Triple (fun _ => True) body (fun _ _ => True) fun _ _ => True := by
  apply Triple.of_outcomes <;> intros <;> trivial

theorem mgStrdup_granted {oracle : Nat → Bool} {clock : Nat} (value : Option String) :
    Triple (Blocks.Ticks oracle clock) (mgStrdup value)
      (fun address _ => (value ≠ none → address.isSome = oracle clock) ∧ True)
      fun _ _ => True := by
  cases value with
  | none => exact Triple.pure fun _ _ => by simp
  | some text =>
      apply (Blocks.malloc_ticks _).weaken (fun _ start => start) _ fun _ _ stop => stop
      intro address heap granted
      exact ⟨fun _ => granted.1, trivial⟩

/-- Whatever becomes of the blocks, a report without one of its texts hands out nothing. -/
theorem fillError_handed {told : ErrorReport} {address : Nat} {text backendText : Option Nat} :
    Triple (fun _ => True)
      (do
        Blocks.store .undefined address
          (.error ⟨told.status, told.stage, told.nodeId, text, backendText⟩)
        if text = none ∨ (told.backendMessage ≠ none ∧ backendText = none) then do
          mgErrorDestroy (some address)
          pure ⟨told.status, none⟩
        else pure ⟨told.status, some address⟩ : OnBlocks Report)
      (fun report _ => report.error.isSome = true ↔
        text.isSome = true ∧ (told.backendMessage ≠ none → backendText.isSome = true))
      fun _ _ => True := by
  apply (always _).bind
  intro _
  split
  · rename_i incomplete
    apply (always _).bind
    intro _
    apply Triple.pure
    intro _ _
    rcases incomplete with missing | ⟨wanted, missing⟩
    · simp [missing]
    · simp [missing, wanted]
  · rename_i complete
    apply Triple.pure
    intro _ _
    obtain ⟨present, whole⟩ := not_or.mp complete
    simp only [Option.isSome_some, true_iff]
    refine ⟨Option.isSome_iff_ne_none.mpr present, fun wanted => ?_⟩
    exact Option.isSome_iff_ne_none.mpr fun missing => whole ⟨wanted, missing⟩

/-- An error is handed out exactly where the caller wants one and every block is granted. -/
theorem raise_handed {oracle : Nat → Bool} {clock : Nat} (told : ErrorReport) (wanted : Bool) :
    Triple (Blocks.Ticks oracle clock) (told.raise wanted)
      (fun report _ => report.error.isSome = true ↔
        wanted = true ∧ ∀ index < told.blockCount, oracle (clock + index) = true)
      fun _ _ => True := by
  simp only [granted_iff told fun index => oracle (clock + index) = true]
  unfold ErrorReport.raise mgSetErrorOut
  cases wanted with
  | false => exact Triple.pure fun _ _ => by simp
  | true =>
      simp only [Bool.true_eq_false, ↓reduceIte]
      apply (Blocks.malloc_ticks _).bind
      intro created
      apply Triple.known
      intro first
      cases created with
      | none =>
          apply Triple.pure
          intro _ _
          simp [← first]
      | some address =>
          apply (Blocks.malloc_ticks _).bind
          intro text
          apply Triple.known
          intro second
          apply (mgStrdup_granted told.backendMessage).bind
          intro backendText
          apply Triple.known
          intro third
          apply fillError_handed.weaken (fun _ _ => trivial) _ fun _ _ stop => stop
          intro report _ handed
          rw [handed, second]
          simp only [true_and, ← first, Nat.add_zero, Option.isSome_some]
          apply and_congr_right
          intro _
          apply forall_congr'
          intro asked
          rw [third asked]

/-! ### Callers -/

/-- The five readings of an error, which leave the heap as it is. -/
structure Reads (told : ErrorReport) (address : Nat) (heap : BlockHeap) : Prop where
  status : mgErrorStatus (some address) heap = (.ok told.status, heap)
  stage : mgErrorStage (some address) heap = (.ok told.stage, heap)
  nodeId : mgErrorNodeId (some address) heap = (.ok told.nodeId, heap)
  message : mgErrorMessage (some address) heap = (.ok (some told.text), heap)
  backendMessage :
    mgErrorBackendMessage (some address) heap = (.ok (told.backendMessage.getD ""), heap)

theorem load_ok {heap : BlockHeap} {address : Nat} {block : HeapBlock}
    (live : heap.cells.get? address = some block) :
    Blocks.load Fault.undefined address heap = (.ok block, heap) := by
  simp [Blocks.load, bind_apply, live]

theorem errorAt_ok {heap : BlockHeap} {address : Nat} {error : ErrorBlock}
    (live : heap.cells.get? address = some (.error error)) :
    errorAt address heap = (.ok error, heap) := by
  rw [errorAt, bind_of_ok _ (load_ok live)]
  rfl

theorem textAt_ok {heap : BlockHeap} {address : Nat} {value : String}
    (live : heap.cells.get? address = some (.text value)) :
    textAt address heap = (.ok value, heap) := by
  rw [textAt, bind_of_ok _ (load_ok live)]
  rfl

theorem ErrorObject.reads {object : ErrorObject} {owned : Multiset (Nat × HeapBlock)}
    {heap : BlockHeap} (owns : Blocks.Owns (object.blocks + owned) heap) :
    Reads object.told object.address heap := by
  have error : errorAt object.address heap = (.ok object.block, heap) :=
    errorAt_ok (owns.live (by simp [ErrorObject.blocks]))
  have text : textAt object.message heap = (.ok object.told.text, heap) :=
    textAt_ok (owns.live (by simp [ErrorObject.blocks]))
  constructor
  · exact bind_of_ok _ error _
  · exact bind_of_ok _ error _
  · exact bind_of_ok _ error _
  · exact (bind_of_ok _ error _).trans (bind_of_ok _ text _)
  · refine (bind_of_ok _ error _).trans ?_
    have paired := object.paired
    rcases given : object.backendMessage with _ | address
    · rw [paired.mp given]
      simp [ErrorObject.block, given]
    · have kept : textAt address heap = (.ok (object.told.backendMessage.getD ""), heap) :=
        textAt_ok (owns.live (by simp [ErrorObject.blocks, given]))
      simpa [ErrorObject.block, given] using kept

/-- An error that a caller has been given, with what was reported. -/
structure ErrorHolding where
  address : Nat
  told : ErrorReport

/-- The blocks, and the errors that callers have been given and not destroyed. -/
structure ErrorClient where
  heap : BlockHeap
  held : Multiset ErrorHolding

/-- Any report, and any destruction of an error that is held. -/
inductive ErrorClient.Step : ErrorClient → ErrorClient → Prop
  | raise {client : ErrorClient} (told : ErrorReport) (wanted : Bool) {report : Report}
      {heap : BlockHeap} (ran : told.raise wanted client.heap = (.ok report, heap)) :
      Step client ⟨heap, report.error.elim 0 (fun address => {⟨address, told⟩}) + client.held⟩
  | destroy {heap after : BlockHeap} {holding : ErrorHolding} {held : Multiset ErrorHolding}
      (ran : mgErrorDestroy (some holding.address) heap = (.ok (), after)) :
      Step ⟨heap, holding ::ₘ held⟩ ⟨after, held⟩

inductive ErrorClient.Reachable : ErrorClient → Prop
  | start (oracle : Nat → Bool) : Reachable ⟨⟨.empty, oracle, 0⟩, 0⟩
  | step {client after : ErrorClient} :
      Reachable client → ErrorClient.Step client after → Reachable after

def ErrorObject.holding (object : ErrorObject) : ErrorHolding := ⟨object.address, object.told⟩

/-- The heap consists of the errors that are held. -/
def ErrorClient.Accounted (client : ErrorClient) : Prop :=
  ∃ objects : Multiset ErrorObject, objects.map ErrorObject.holding = client.held ∧
    Blocks.Owns (objects.bind ErrorObject.blocks) client.heap

theorem raise_never_fails {owned : Multiset (Nat × HeapBlock)} (told : ErrorReport)
    (wanted : Bool) : Triple (Blocks.Owns owned) (told.raise wanted) (told.Handed owned)
      fun _ _ => False := raise_owns told wanted

theorem destroy_never_fails {owned : Multiset (Nat × HeapBlock)} (object : ErrorObject) :
    Triple (Blocks.Owns (object.blocks + owned)) (mgErrorDestroy (some object.address))
      (fun _ => Blocks.Owns owned) fun _ _ => False := mgErrorDestroy_owns object

theorem ErrorClient.Step.accounted {client after : ErrorClient} (step : client.Step after)
    (accounted : client.Accounted) : after.Accounted := by
  obtain ⟨objects, listed, owns⟩ := accounted
  cases step with
  | raise told wanted ran =>
      obtain ⟨_, outcome⟩ := (raise_never_fails told wanted).ok owns ran
      rcases outcome with ⟨nothing, kept⟩ | ⟨object, same, handed, grown⟩
      · exact ⟨objects, by simp [nothing, listed], kept⟩
      · refine ⟨object ::ₘ objects, ?_, ?_⟩
        · simp [handed, listed, ErrorObject.holding, same]
        · rwa [Multiset.cons_bind]
  | @destroy heap after holding held ran =>
      obtain ⟨object, member, same, rest⟩ := (Multiset.map_eq_cons _ _ _ _).mpr listed
      refine ⟨objects.erase object, rest, ?_⟩
      rw [← Multiset.cons_erase member, Multiset.cons_bind] at owns
      subst same
      exact (destroy_never_fails object).ok owns ran

theorem ErrorClient.Reachable.accounted {client : ErrorClient} (reachable : client.Reachable) :
    client.Accounted := by
  induction reachable with
  | start oracle => exact ⟨0, rfl, Blocks.owns_empty oracle⟩
  | step _ step ih => exact step.accounted ih

/-- From every state of every caller: a report returns its status whatever is refused, and
hands out an error exactly where one is wanted and all its blocks are granted; every error
that is held reads as it was reported and can be destroyed; and nothing else is allocated. -/
theorem error_objects_accounted {client : ErrorClient} (reachable : client.Reachable) :
    (∀ told : ErrorReport, ∀ wanted, ∃ report heap,
      told.raise wanted client.heap = (.ok report, heap) ∧ report.status = told.status ∧
        (report.error.isSome = true ↔ wanted = true ∧
          ∀ index < told.blockCount, client.heap.oracle (client.heap.clock + index) = true)) ∧
    (∀ holding ∈ client.held, Reads holding.told holding.address client.heap ∧
      ∃ heap, mgErrorDestroy (some holding.address) client.heap = (.ok (), heap)) ∧
    client.heap.cells.total (fun _ => 1) =
      (client.held.map fun holding => holding.told.blockCount).sum := by
  obtain ⟨objects, listed, owns⟩ := reachable.accounted
  refine ⟨?_, ?_, ?_⟩
  · intro told wanted
    have whole := raise_never_fails told wanted client.heap owns
    have handed := raise_handed told wanted client.heap ⟨rfl, rfl⟩
    rcases ran : told.raise wanted client.heap with ⟨reason | report, heap⟩ <;>
      rw [ran] at whole handed
    · exact whole.elim
    · exact ⟨report, heap, rfl, whole.1, handed⟩
  · intro holding member
    rw [← listed] at member
    obtain ⟨object, present, rfl⟩ := Multiset.mem_map.mp member
    rw [← Multiset.cons_erase present, Multiset.cons_bind] at owns
    refine ⟨object.reads owns, ?_⟩
    have destroyed := destroy_never_fails object client.heap owns
    rcases ran : mgErrorDestroy (some object.address) client.heap with ⟨reason | value, heap⟩ <;>
      rw [ran] at destroyed
    · exact destroyed.elim
    · exact ⟨heap, ran⟩
  · rw [owns.total, Multiset.card_bind, ← listed, Multiset.map_map]
    congr 1
    apply Multiset.map_congr rfl
    intro object _
    exact object.card_blocks

/-! A library that cannot be loaded, as the caller is told of it. -/

def loadReport : ErrorReport where
  status := .backendError
  stage := .instantiate
  nodeId := 1
  message := some "failed to load Metal library"
  backendMessage := some "library not found"

def loadClient : ErrorClient where
  heap := (loadReport.raise true ⟨.empty, fun _ => true, 0⟩).2
  held := {⟨0, loadReport⟩}

theorem load_reachable : loadClient.Reachable :=
  .step (.start fun _ => true) <| .raise loadReport true <|
    show loadReport.raise true _ = (.ok ⟨.backendError, some 0⟩, loadClient.heap) from rfl

theorem error_objects_of_load :
    Reads loadReport 0 loadClient.heap ∧ loadClient.heap.cells.total (fun _ => 1) = 3 :=
  ⟨((error_objects_accounted load_reachable).2.1 ⟨0, loadReport⟩
      (Multiset.mem_singleton_self _)).1,
    (error_objects_accounted load_reachable).2.2⟩

end MetalGraph
