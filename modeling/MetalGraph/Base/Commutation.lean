import Mathlib.Data.Set.Lattice
import Mathlib.Order.CompletePartialOrder
import MetalGraph.Base.Layout
import MetalGraph.Base.Precedence

set_option autoImplicit false

/- Actions on a store: what they touch, when two of them commute, and which orders of
a list of actions have the same effect. -/
namespace MetalGraph

/-- The cells an action reads and the cells it writes. -/
structure Footprint (Cell : Type) where
  reads : Set Cell
  writes : Set Cell

namespace Footprint

variable {Cell : Type}

def touches (footprint : Footprint Cell) : Set Cell := footprint.reads ∪ footprint.writes

def none : Footprint Cell := ⟨∅, ∅⟩

/-- Neither writes what the other touches. -/
def Apart (first second : Footprint Cell) : Prop :=
  Disjoint first.writes second.touches ∧ Disjoint second.writes first.touches

theorem Apart.symm {first second : Footprint Cell} (apart : first.Apart second) :
    second.Apart first := ⟨apart.2, apart.1⟩

end Footprint

section Confined

variable {Cell : Type} {Value : Cell → Type}

/-- The action changes only what its footprint writes, and what it leaves there depends
only on what the footprint touches. -/
structure Confined (action : (∀ cell, Value cell) → ∀ cell, Value cell)
    (footprint : Footprint Cell) : Prop where
  frame : ∀ store cell, cell ∉ footprint.writes → action store cell = store cell
  inputs : ∀ store other, (∀ cell ∈ footprint.touches, store cell = other cell) →
    ∀ cell ∈ footprint.writes, action store cell = action other cell

variable {action other : (∀ cell, Value cell) → ∀ cell, Value cell}
  {footprint footprint' : Footprint Cell}

theorem Confined.id : Confined (fun store : ∀ cell, Value cell => store) footprint where
  frame := fun _ _ _ => rfl
  inputs := fun _ _ agree cell written => agree cell (.inr written)

/-- Stores that agree outside some cells still do after an action that leaves those
cells alone. -/
theorem Confined.agree_off (confined : Confined action footprint) {hidden : Set Cell}
    (apart : Disjoint hidden footprint.touches) {store store' : ∀ cell, Value cell}
    (agree : ∀ cell ∉ hidden, store cell = store' cell) :
    ∀ cell ∉ hidden, action store cell = action store' cell := by
  intro cell visible
  by_cases written : cell ∈ footprint.writes
  · apply confined.inputs store store' ?_ cell written
    intro input touched
    exact agree input fun inside => apart.notMem_of_mem_left inside touched
  · rw [confined.frame store cell written, confined.frame store' cell written]
    exact agree cell visible

private theorem commute_at (first : Confined action footprint)
    (second : Confined other footprint') (apart : footprint.Apart footprint')
    (store : ∀ cell, Value cell) {cell : Cell} (written : cell ∈ footprint.writes) :
    action (other store) cell = other (action store) cell := by
  have unwritten : cell ∉ footprint'.writes := fun again =>
    apart.1.notMem_of_mem_left written (.inr again)
  rw [second.frame (action store) cell unwritten]
  apply first.inputs (other store) store ?_ cell written
  intro input touched
  exact second.frame store input fun again => apart.2.notMem_of_mem_left again touched

/-- Actions that are apart may be done in either order. -/
theorem Confined.commute (first : Confined action footprint)
    (second : Confined other footprint') (apart : footprint.Apart footprint')
    (store : ∀ cell, Value cell) : action (other store) = other (action store) := by
  funext cell
  by_cases written : cell ∈ footprint.writes
  · exact commute_at first second apart store written
  by_cases written' : cell ∈ footprint'.writes
  · exact (commute_at second first apart.symm store written').symm
  · rw [first.frame _ cell written, second.frame _ cell written', second.frame _ cell written',
      first.frame _ cell written]

end Confined

/-! ### Orders with the same effect -/

section Orders

variable {α σ : Type} {act : σ → α → σ} {precedes : α → α → Prop}

/-- Two orders of the same elements have the same effect when both keep to the
precedence and elements it leaves unordered commute. -/
theorem foldl_eq_of_ordered {first second : List α} (perm : first.Perm second)
    (sorted : first.Pairwise fun earlier later => ¬ precedes later earlier)
    (sorted' : second.Pairwise fun earlier later => ¬ precedes later earlier)
    (commutes : ∀ value ∈ first, ∀ other ∈ first, ¬ precedes value other →
      ¬ precedes other value → ∀ state, act (act state value) other = act (act state other) value)
    (state : σ) : first.foldl act state = second.foldl act state := by
  apply foldl_eq_of_inversions perm
  intro value other listed listed'
  apply commutes value (listed.subset (by simp)) other (listed.subset (by simp))
  · exact List.pairwise_pair.mp (sorted'.sublist listed')
  · exact List.pairwise_pair.mp (sorted.sublist listed)

/-- In an order that respects a relation, no element is preceded by a later one. -/
theorem Respects.pairwise [DecidableEq α] {order : List α} (distinct : order.Nodup)
    (respects : Respects order precedes) :
    order.Pairwise fun earlier later => ¬ Relation.TransGen precedes later earlier := by
  have below : ∀ first last, Relation.TransGen precedes first last → last ∈ order →
      order.idxOf first < order.idxOf last := by
    intro first last path
    induction path with
    | single edge => exact respects _ _ edge
    | tail path edge ih =>
        intro member
        have next := respects _ _ edge member
        have listed := List.idxOf_lt_length_iff.mp (next.trans (List.idxOf_lt_length_of_mem member))
        exact (ih listed).trans next
  rw [List.pairwise_iff_getElem]
  intro first second inside inside' earlier path
  have back := below _ _ path (List.getElem_mem inside)
  rw [distinct.idxOf_getElem, distinct.idxOf_getElem] at back
  omega

end Orders

end MetalGraph
