import MetalGraph.Proofs.MachineRules

set_option autoImplicit false

/- The account of a heap: which references are held, and what the owners of external
buffers have been told. -/
namespace MetalGraph

open Eff

def OwnerCall.buffer : OwnerCall → Nat
  | .retain buffer _ | .release buffer _ => buffer

/-- What the owner of this buffer has been told, in order. -/
def Env.ownerHistory (env : Env) (address : Nat) : List OwnerCall :=
  env.ownerCalls.filter fun call => call.buffer == address

/-- An owner is told once that its buffer is in use, and once that it no longer is. -/
structure Owners (env : Env) : Prop where
  live : ∀ address cell, env.heap.cells.get? address = some cell →
    env.ownerHistory address = (cell.payload.owner.map (OwnerCall.retain address)).toList
  freed : ∀ address, env.heap.cells.get? address = none → env.ownerHistory address = [] ∨
    ∃ context, env.ownerHistory address = [.retain address context, .release address context]
  fresh : ∀ address, env.heap.cells.size ≤ address → env.ownerHistory address = []

/-- Either a count has run over, or every count is the number of references held. -/
def Ledger (held : Multiset Nat) (env : Env) : Prop :=
  env.heap.overflowed = true ∨ env.heap.Balanced held ∧ Owners env

/-! ### The heap -/

section Heap

variable {α : Type} {heap : RefHeap α} {address : Nat} {cell : Counted α}

theorem retain_cells (live : heap.cells.get? address = some cell) :
    (heap.retain address).cells =
      heap.cells.put address { cell with count := cell.count + 1 } := by
  simp only [RefHeap.retain, live]

/-- A release keeps the cell, or frees it and hands its payload to the caller. -/
theorem release_cases (live : heap.cells.get? address = some cell) :
    (heap.lastReference address = none ∧ (heap.release address).cells =
        heap.cells.put address { cell with count := cell.count - 1 }) ∨
      heap.lastReference address = some cell.payload ∧
        (heap.release address).cells = heap.cells.free address := by
  by_cases several : cell.count > 1
  · exact .inl ⟨by simp only [RefHeap.lastReference, live, several, ↓reduceIte],
      by simp only [RefHeap.release, live, several, ↓reduceIte]⟩
  · exact .inr ⟨by simp only [RefHeap.lastReference, live, several, ↓reduceIte],
      by simp only [RefHeap.release, live, several, ↓reduceIte]⟩

end Heap

/-! ### Owners -/

section Owners

variable {env : Env} {address : Nat} {cell : Counted Object}

/-- A new count of a live object concerns no owner. -/
theorem Owners.recounted (owners : Owners env) {heap : RefHeap Object} {count : UInt32}
    (live : env.heap.cells.get? address = some cell)
    (cells : heap.cells = env.heap.cells.put address { cell with count := count }) :
    Owners { env with heap := heap } where
  live := by
    intro other found present
    simp only [cells, Slots.get?_put live] at present
    split at present
    · rename_i here
      cases present
      subst here
      exact owners.live other cell live
    · exact owners.live other found present
  freed := by
    intro other dead
    simp only [cells, Slots.get?_put live] at dead
    split at dead
    · cases dead
    · exact owners.freed other dead
  fresh := by
    intro other beyond
    simp only [cells, Slots.size_put] at beyond
    exact owners.fresh other beyond

theorem Owners.placed (owners : Owners env) (payload : Object) :
    Owners { env with
      heap := env.heap.alloc payload
      ownerCalls := env.ownerCalls ++
        (payload.owner.map (OwnerCall.retain env.heap.cells.size)).toList } := by
  have history : ∀ other, ({ env with
      heap := env.heap.alloc payload
      ownerCalls := env.ownerCalls ++
        (payload.owner.map (OwnerCall.retain env.heap.cells.size)).toList } : Env).ownerHistory
        other = env.ownerHistory other ++ if other = env.heap.cells.size then
          (payload.owner.map (OwnerCall.retain other)).toList else [] := by
    intro other
    simp only [Env.ownerHistory, List.filter_append]
    congr 1
    split
    · rename_i here
      subst here
      cases payload.owner <;> simp [OwnerCall.buffer]
    · rename_i away
      cases payload.owner <;> simp [OwnerCall.buffer, Ne.symm away]
  refine ⟨fun other found present => ?_, fun other dead => ?_, fun other beyond => ?_⟩
  · rw [history]
    simp only [RefHeap.alloc, Slots.get?_push] at present
    split at present
    · rename_i here
      cases present
      rw [owners.fresh other here.ge, if_pos here, List.nil_append]
    · rename_i away
      rw [if_neg away, List.append_nil]
      exact owners.live other found present
  · rw [history]
    simp only [RefHeap.alloc, Slots.get?_push] at dead
    split at dead
    · cases dead
    · rename_i away
      rw [if_neg away, List.append_nil]
      exact owners.freed other dead
  · rw [history]
    simp only [RefHeap.alloc, Slots.size_push] at beyond
    rw [if_neg (by omega), List.append_nil]
    exact owners.fresh other (by omega)

theorem Owners.released (owners : Owners env) (live : env.heap.cells.get? address = some cell) :
    Owners (env.release address) := by
  rcases release_cases live with ⟨kept, cells⟩ | ⟨last, cells⟩
  · have same : env.release address = { env with heap := env.heap.release address } := by
      simp [Env.release, kept]
    rw [same]
    exact owners.recounted live cells
  · have history : ∀ other, (env.release address).ownerHistory other = env.ownerHistory other ++
        if other = address then
          (cell.payload.owner.map (OwnerCall.release address)).toList else [] := by
      intro other
      simp only [Env.release, Env.ownerHistory, last, Option.bind_some, List.filter_append]
      congr 1
      cases cell.payload.owner with
      | none => simp
      | some context =>
          split
          · rename_i here
            simp [OwnerCall.buffer, here]
          · rename_i away
            simp [OwnerCall.buffer, Ne.symm away]
    refine ⟨fun other found present => ?_, fun other dead => ?_, fun other beyond => ?_⟩
    · rw [history]
      simp only [Env.release, cells, Slots.get?_free] at present
      split at present
      · cases present
      · rename_i away
        rw [if_neg away, List.append_nil]
        exact owners.live other found present
    · rw [history]
      simp only [Env.release, cells, Slots.get?_free] at dead
      split at dead
      · rename_i here
        subst here
        rw [owners.live other cell live, if_pos rfl]
        cases cell.payload.owner with
        | none => exact .inl rfl
        | some context => exact .inr ⟨context, rfl⟩
      · rename_i away
        rw [if_neg away, List.append_nil]
        exact owners.freed other dead
    · rw [history]
      simp only [Env.release, cells, Slots.size_free] at beyond
      rw [if_neg (beyond.trans_lt' (Slots.lt_size_of_get? live)).ne', List.append_nil]
      exact owners.fresh other beyond

end Owners

/-! ### The ledger -/

section Ledger

variable {held : Multiset Nat} {env : Env} {address : Nat}

theorem Ledger.of_same {after : Env} (ledger : Ledger held env) (heap : after.heap = env.heap)
    (calls : after.ownerCalls = env.ownerCalls) : Ledger held after := by
  refine ledger.imp (fun wrapped => heap ▸ wrapped) fun ⟨balanced, owners⟩ => ⟨heap ▸ balanced, ?_⟩
  have history : after.ownerHistory = env.ownerHistory := by
    funext other
    simp only [Env.ownerHistory, calls]
  exact ⟨by rw [heap, history]; exact owners.live, by rw [heap, history]; exact owners.freed,
    by rw [heap, history]; exact owners.fresh⟩

theorem Ledger.retain (ledger : Ledger held env) (member : address ∈ held) :
    Ledger (address ::ₘ held) { env with heap := env.heap.retain address } := by
  rcases ledger with wrapped | ⟨balanced, owners⟩
  · exact .inl (env.heap.retain_overflowed address wrapped)
  · rcases room : (env.heap.retain address).overflowed with _ | _
    · obtain ⟨cell, live⟩ := balanced.live_of_mem member
      exact .inr ⟨balanced.retain member room, owners.recounted live (retain_cells live)⟩
    · exact .inl room

theorem Ledger.release (ledger : Ledger (address ::ₘ held) env) :
    Ledger held (env.release address) := by
  rcases ledger with wrapped | ⟨balanced, owners⟩
  · exact .inl ((env.heap.release_overflowed address).trans wrapped)
  · obtain ⟨cell, live⟩ := balanced.live_of_mem (Multiset.mem_cons_self address held)
    exact .inr ⟨balanced.release, owners.released live⟩

/-- A new object is referred to by whoever made it, and by nobody before. -/
theorem Ledger.place (ledger : Ledger held env) (payload : Object) :
    Ledger (env.heap.cells.size ::ₘ held) { env with
      heap := env.heap.alloc payload
      ownerCalls := env.ownerCalls ++
        (payload.owner.map (OwnerCall.retain env.heap.cells.size)).toList } :=
  ledger.imp id fun ⟨balanced, owners⟩ => ⟨balanced.alloc payload, owners.placed payload⟩

theorem Ledger.fresh (ledger : Ledger held env) :
    env.heap.overflowed = true ∨ env.heap.cells.size ∉ held := by
  refine ledger.imp id fun ⟨balanced, _⟩ member => ?_
  obtain ⟨cell, live⟩ := balanced.live_of_mem member
  rw [Slots.get?_size] at live
  cases live

end Ledger

/-! ### The operations -/

section Operations

variable {ε α β : Type} {excused : ε → Prop} {held : Multiset Nat}

theorem attempt_stable : Stable excused (Ledger held) attempt := by
  intro env ledger
  unfold attempt
  cases env.oracle env.clock
  · exact Ledger.of_same ledger rfl rfl
  · exact Ledger.of_same ledger rfl rfl

theorem attemptOr_stable (reason : ε) : Stable excused (Ledger held) (attemptOr reason) :=
  .bind attempt_stable fun _ => .require

theorem attemptBoth_stable (reason : ε) : Stable excused (Ledger held) (attemptBoth reason) :=
  .bind attempt_stable fun _ => .bind attempt_stable fun _ => .require

theorem emit_stable {excused : Fault → Prop} (event : MetalEvent) :
    Stable excused (Ledger held) (emit event) := .update fun _ ledger => ledger.of_same rfl rfl

theorem newMetalObject_stable {excused : Fault → Prop} :
    Stable excused (Ledger held) newMetalObject := fun _ ledger => ledger.of_same rfl rfl

theorem newCommandBuffer_stable {excused : Fault → Prop} :
    Stable excused (Ledger held) newCommandBuffer := by
  refine .bind attempt_stable fun granted => ?_
  cases granted
  · exact .pure none
  · exact fun _ ledger => ledger.of_same rfl rfl

theorem waitUntilCompleted_stable {excused : Fault → Prop} (commandBuffer : Nat) :
    Stable excused (Ledger held) (waitUntilCompleted commandBuffer) :=
  fun _ ledger => ledger.of_same rfl rfl

/-- A body that cannot fail and turns one set of references into another. -/
def Moves (before after : Multiset Nat) (body : Run Unit) : Prop :=
  Triple (Ledger before) body (fun _ => Ledger after) fun _ _ => False

/-- A body that cannot fail and gives up references. -/
def Gives (given : List Nat) (body : Run Unit) : Prop :=
  ∀ held : Multiset Nat, Moves (given + held) held body

theorem Moves.rule {before after : Multiset Nat} {body : Run Unit} (moves : Moves before after body)
    {failed : Fault → Env → Prop} :
    Triple (Ledger before) body (fun _ => Ledger after) failed :=
  moves.weaken (fun _ ledger => ledger) (fun _ _ ledger => ledger) fun _ _ never => never.elim

theorem retainObject_moves {address : Nat} (member : address ∈ held) :
    Moves held (address ::ₘ held) (retainObject address) :=
  Triple.update fun _ ledger => ledger.retain member

theorem retainEach_moves {address : α → Nat} {values : List α}
    (members : ∀ value ∈ values, address value ∈ held) :
    Moves held (values.map address + held)
      (Eff.forEach (fun value => retainObject (address value)) values) := by
  induction values generalizing held with
  | nil => exact Triple.pure fun _ ledger => by simpa using ledger
  | cons value rest ih =>
      have same : ((value :: rest).map address : Multiset Nat) + held =
          (rest.map address : Multiset Nat) + (address value ::ₘ held) := by
        rw [List.map_cons, ← Multiset.cons_coe, Multiset.add_cons, Multiset.cons_add]
      rw [same]
      exact Triple.bind (retainObject_moves (members value (by simp))) fun _ =>
        ih fun other member => Multiset.mem_cons_of_mem (members other (by simp [member]))

theorem releaseObject_gives (address : Nat) : Gives [address] (releaseObject address) :=
  fun _ => Triple.update fun _ ledger => Ledger.release ledger

theorem Gives.nothing : Gives [] (pure ()) := fun held =>
  Triple.pure fun _ ledger => by simpa using ledger

theorem Gives.seq {first second : List Nat} {head tail : Run Unit} (gives : Gives first head)
    (rest : Gives second tail) : Gives (first ++ second) (do head; tail) := by
  intro held
  rw [← Multiset.coe_add, add_assoc]
  exact Triple.bind (gives _) fun _ => rest held

theorem Gives.forEach {body : α → Run Unit} {given : α → List Nat}
    (each : ∀ value, Gives (given value) (body value)) (values : List α) :
    Gives (values.flatMap given) (Eff.forEach body values) := by
  induction values with
  | nil => exact Gives.nothing
  | cons value rest ih => exact (each value).seq ih

theorem releaseEach_gives (address : α → Nat) (values : List α) :
    Gives (values.map address)
      (Eff.forEach (fun value => releaseObject (address value)) values) := by
  rw [List.map_eq_flatMap]
  exact Gives.forEach (fun value => releaseObject_gives (address value)) values

theorem mgArenaRelease_gives (arena : Option MgArena) :
    Gives (arena.map MgArena.address).toList (mgArenaRelease arena) := by
  cases arena with
  | none => exact Gives.nothing
  | some arena => exact releaseObject_gives arena.address

/-- What a failed body has left is given up. -/
theorem cleaning_rule {excused : Fault → Prop} {before : Env → Prop} {given : List Nat}
    {body : Run α} {cleanup : Run Unit} {after : α → Env → Prop}
    (inner : Triple before body after (Stops (fun _ => False) (Ledger (given + held))))
    (gives : Gives given cleanup) :
    Triple before (cleaning body cleanup) after (Stops excused (Ledger held)) := by
  apply Triple.catching inner
  intro reason
  have recover : Triple (Ledger (given + held)) (do cleanup; fail reason : Run α) after
      (Stops excused (Ledger held)) :=
    Triple.bind (gives held).rule fun _ => Triple.fail fun _ ledger => .inr ledger
  exact recover.weaken (fun _ stopped => stopped.resolve_left id) (fun _ _ holds => holds)
    fun _ _ stopped => stopped

end Operations

/-! ### Objects -/

/-- What is known of the object, and the references that are held meanwhile. -/
def Carries {τ : Type} (property : τ → Prop) (held : Multiset Nat) (focus : Focus τ) : Prop :=
  property focus.object ∧ Ledger held focus.env

/-- The references of the object are accounted for, next to all others. -/
def Accounted {τ : Type} (references : τ → List Nat) (others : Multiset Nat) (focus : Focus τ) :
    Prop :=
  Ledger (references focus.object + others) focus.env

section Objects

variable {τ α β : Type} {excused : Fault → Prop} {property : τ → Prop} {held : Multiset Nat}

theorem onEnv_carries {body : Run α} {after : α → Multiset Nat} {left : Multiset Nat}
    (spec : Triple (Ledger held) body (fun value => Ledger (after value))
      (Stops excused (Ledger left))) :
    Triple (Carries property held) (onEnv body) (fun value => Carries property (after value))
      (Stops excused (Carries property left)) := by
  refine Triple.of_outcomes ?_ ?_
  · intro focus value reached holds ran
    obtain ⟨ran, same⟩ := onEnv_ok.mp ran
    exact ⟨same ▸ holds.1, spec.ok holds.2 ran⟩
  · intro focus reason reached holds ran
    obtain ⟨ran, same⟩ := onEnv_error.mp ran
    exact (spec.error holds.2 ran).imp_right fun ledger => ⟨same ▸ holds.1, ledger⟩

theorem onEnv_stable {body : Run α} (inner : Stable excused (Ledger held) body) :
    Stable excused (Carries property held) (onEnv body) := onEnv_carries inner

theorem onEnv_moves {after : Multiset Nat} {body : Run Unit} (moves : Moves held after body)
    {failed : Fault → Focus τ → Prop} :
    Triple (Carries property held) (onEnv body) (fun _ => Carries property after) failed := by
  refine Triple.of_outcomes ?_ ?_
  · intro focus value reached holds ran
    obtain ⟨ran, same⟩ := onEnv_ok.mp ran
    exact ⟨same ▸ holds.1, moves.ok holds.2 ran⟩
  · intro focus reason reached holds ran
    exact (moves.error holds.2 (onEnv_error.mp ran).1).elim

theorem self_carries {next : τ → Over τ β} {after : β → Focus τ → Prop}
    {failed : Fault → Focus τ → Prop}
    (rest : ∀ object, property object →
      Triple (Carries (· = object) held) (next object) after failed) :
    Triple (Carries property held) (self >>= next) after failed := fun focus holds =>
  rest focus.object holds.1 focus ⟨rfl, holds.2⟩

theorem self_knowing {next : τ → Over τ β} {after : β → Focus τ → Prop}
    {failed : Fault → Focus τ → Prop}
    (rest : ∀ object, property object → Triple (Carries property held) (next object) after failed) :
    Triple (Carries property held) (self >>= next) after failed := fun focus holds =>
  rest focus.object holds.1 focus holds

theorem modifySelf_carries {change : τ → τ}
    (changes : ∀ object, property object → property (change object))
    {failed : Fault → Focus τ → Prop} :
    Triple (Carries property held) (modifySelf change) (fun _ => Carries property held) failed :=
  Triple.update fun focus holds => ⟨changes focus.object holds.1, holds.2⟩

theorem modifySelf_stable {change : τ → τ}
    (changes : ∀ object, property object → property (change object)) :
    Stable excused (Carries property held) (modifySelf change) :=
  .update fun focus holds => ⟨changes focus.object holds.1, holds.2⟩

end Objects

end MetalGraph
