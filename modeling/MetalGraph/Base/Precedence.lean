import Mathlib.Data.List.Perm.Basic
import Mathlib.Data.List.Perm.Subperm
import Mathlib.Order.Preorder.Finite
import Mathlib.Logic.Relation
import Mathlib.Order.Lattice.Nat

set_option autoImplicit false

/- Finite precedence relations: when they have a cycle, and when a list lists them
in an order that respects them. -/
namespace MetalGraph

variable {α : Type}

def Acyclic (precedes : α → α → Prop) : Prop := ∀ node, ¬ Relation.TransGen precedes node node

/-- Every node is listed after the nodes that precede it. -/
def Respects [DecidableEq α] (order : List α) (precedes : α → α → Prop) : Prop :=
  ∀ before after, precedes before after → after ∈ order →
    order.idxOf before < order.idxOf after

theorem acyclic_of_rank {precedes : α → α → Prop} (rank : α → Nat)
    (increases : ∀ before after, precedes before after → rank before < rank after) :
    Acyclic precedes := by
  have transitive : ∀ first last, Relation.TransGen precedes first last →
      rank first < rank last := by
    intro first last path
    induction path with
    | single edge => exact increases _ _ edge
    | tail _ edge ih => exact ih.trans (increases _ _ edge)
  exact fun node cycle => (transitive node node cycle).false

/-- A finite set in which every node has a predecessor contains a cycle. -/
theorem not_acyclic_of_residual {precedes : α → α → Prop} {residual : Set α}
    (finite : residual.Finite) (inhabited : residual.Nonempty)
    (preceded : ∀ node ∈ residual, ∃ before ∈ residual, precedes before node) :
    ¬ Acyclic precedes := by
  intro acyclic
  let below : Preorder α :=
    { le := fun first last => first = last ∨ Relation.TransGen precedes first last
      le_refl := fun _ => .inl rfl
      le_trans := by
        rintro first middle last (rfl | path) (rfl | path')
        · exact .inl rfl
        · exact .inr path'
        · exact .inr path
        · exact .inr (path.trans path') }
  obtain ⟨least, minimal⟩ := finite.exists_minimal inhabited
  obtain ⟨before, member, edge⟩ := preceded least minimal.prop
  rcases minimal.le_of_le member (.inr (.single edge)) with same | path
  · exact acyclic least (.single (same ▸ edge))
  · exact acyclic least (path.tail edge)

/-! ### Longest paths -/

/-- A path of this length ends at the node. -/
inductive PathInto (precedes : α → α → Prop) : Nat → α → Prop
  | start (node : α) : PathInto precedes 0 node
  | step {length : Nat} {before node : α} (path : PathInto precedes length before)
      (edge : precedes before node) : PathInto precedes (length + 1) node

/-- The length of the longest path that ends at the node. -/
noncomputable def longestPath (precedes : α → α → Prop) (node : α) : Nat :=
  sSup {length | PathInto precedes length node}

/-- A node lies one step deeper than the deepest node before it. -/
structure IsDepth (precedes : α → α → Prop) (depth : α → Nat) : Prop where
  increases : ∀ before after, precedes before after → depth before < depth after
  attained : ∀ node, depth node = 0 ∨
    ∃ before, precedes before node ∧ depth node = depth before + 1

section Depth

variable {precedes : α → α → Prop} {rank : α → Nat}
  (increases : ∀ before after, precedes before after → rank before < rank after)

include increases

theorem PathInto.le_rank {length : Nat} {node : α} (path : PathInto precedes length node) :
    length ≤ rank node := by
  induction path with
  | start node => exact Nat.zero_le _
  | step _ edge ih =>
      have next := increases _ _ edge
      omega

theorem isGreatest_longestPath (node : α) :
    IsGreatest {length | PathInto precedes length node} (longestPath precedes node) := by
  have bounded : BddAbove {length | PathInto precedes length node} :=
    ⟨rank node, fun _ path => path.le_rank increases⟩
  exact ⟨Nat.sSup_mem ⟨0, .start node⟩ bounded, fun _ path => le_csSup bounded path⟩

theorem isDepth_longestPath : IsDepth precedes (longestPath precedes) where
  increases := fun before after edge =>
    (isGreatest_longestPath increases after).2
      (PathInto.step (isGreatest_longestPath increases before).1 edge)
  attained := by
    intro node
    have greatest := isGreatest_longestPath increases node
    generalize longestPath precedes node = depth at greatest
    rcases greatest.1 with _ | ⟨path, edge⟩
    · exact .inl rfl
    · rename_i length before
      refine .inr ⟨before, edge, congrArg (· + 1) (Nat.le_antisymm ?_ ?_)⟩
      · exact (isGreatest_longestPath increases before).2 path
      · exact Nat.le_of_succ_le_succ
          (greatest.2 (PathInto.step (isGreatest_longestPath increases before).1 edge))

end Depth

section Order

variable [DecidableEq α]

/-- A node may be listed next when all its predecessors are listed already. -/
theorem Respects.append {order : List α} {precedes : α → α → Prop} {node : α}
    (respects : Respects order precedes) (closed : ∀ before after, precedes before after →
      after ∈ order → before ∈ order)
    (fresh : node ∉ order) (ready : ∀ before, precedes before node → before ∈ order) :
    Respects (order ++ [node]) precedes := by
  intro before after edge member
  rcases List.mem_append.mp member with old | new
  · rw [List.idxOf_append_of_mem old, List.idxOf_append_of_mem (closed before after edge old)]
    exact respects before after edge old
  · cases List.mem_singleton.mp new
    have listed := ready before edge
    rw [List.idxOf_append_of_mem listed, List.idxOf_append_of_notMem fresh]
    have inside := List.idxOf_lt_length_iff.mpr listed
    omega

end Order

/-- A duplicate-free list of all the numbers below `count` is a permutation of them. -/
theorem perm_range_of_nodup {count : Nat} {nodes : List Nat} (distinct : nodes.Nodup)
    (bounded : ∀ node ∈ nodes, node < count) (full : nodes.length = count) :
    nodes.Perm (List.range count) := by
  have subperm : nodes.Subperm (List.range count) :=
    distinct.subperm fun node member => List.mem_range.mpr (bounded node member)
  exact subperm.perm_of_length_le (by simp [full])

theorem length_le_of_nodup {count : Nat} {nodes : List Nat} (distinct : nodes.Nodup)
    (bounded : ∀ node ∈ nodes, node < count) : nodes.length ≤ count := by
  have subperm : nodes.Subperm (List.range count) :=
    distinct.subperm fun node member => List.mem_range.mpr (bounded node member)
  simpa using subperm.length_le

end MetalGraph
