import MetalGraph.Proofs.GraphChanges

set_option autoImplicit false

/- A machine that grants every request, and the additions it accepts. -/
namespace MetalGraph

open Eff

/-- An allocator and a device that refuse nothing. -/
def Env.Granting (env : Env) : Prop := ∀ tick, env.oracle tick = true

/-- On a granting machine the computation returns a value with this property, and leaves
the machine granting. -/
def Yields {ε α : Type} (body : Eff Env ε α) (fact : α → Prop) : Prop :=
  Triple Env.Granting body (fun value env => fact value ∧ env.Granting) fun _ _ => False

def Whatever {α : Type} (_ : α) : Prop := True

section Yields

variable {ε α β γ : Type}

theorem Yields.pure {value : α} {fact : α → Prop} (known : fact value) :
    Yields (Pure.pure value : Eff Env ε α) fact := Triple.pure fun _ granting => ⟨known, granting⟩

theorem Yields.bind {first : Eff Env ε α} {next : α → Eff Env ε β} {fact : α → Prop}
    {fact' : β → Prop} (head : Yields first fact)
    (tail : ∀ value, fact value → Yields (next value) fact') : Yields (first >>= next) fact' :=
  Triple.bind head fun value state start => tail value start.1 state start.2

theorem attempt_yields : Yields (attempt : Eff Env ε Bool) (· = true) := by
  intro env granting
  simp only [attempt, granting env.clock, ↓reduceIte]
  exact ⟨trivial, granting⟩

theorem attemptOr_yields (reason : ε) : Yields (attemptOr reason) Whatever := by
  apply attempt_yields.bind
  rintro _ rfl env granting
  exact ⟨trivial, granting⟩

theorem attemptBoth_yields (reason : ε) : Yields (attemptBoth reason) Whatever := by
  apply attempt_yields.bind
  rintro _ rfl
  apply attempt_yields.bind
  rintro _ rfl env granting
  exact ⟨trivial, granting⟩

/-- Reference counts grant nothing and refuse nothing. -/
theorem retainObject_yields (address : Nat) : Yields (retainObject address) Whatever :=
  Triple.update fun _ granting => ⟨trivial, granting⟩

theorem Yields.whenever {condition : Prop} [Decidable condition] {body : Eff Env ε Unit}
    (inner : Yields body Whatever) : Yields (Eff.whenever condition body) Whatever :=
  Triple.whenever (fun _ => inner) fun _ _ granting => ⟨trivial, granting⟩

theorem Yields.forEach {body : γ → Eff Env ε Unit}
    (each : ∀ value, Yields (body value) Whatever) (values : List γ) :
    Yields (Eff.forEach body values) Whatever := by
  induction values with
  | nil => exact .pure trivial
  | cons value rest ih => exact (each value).bind fun _ _ => ih

theorem Yields.catching {δ : Type} {first : Eff Env ε α} {handler : ε → Eff Env δ α}
    {fact : α → Prop} (inner : Yields first fact) : Yields (Eff.catching first handler) fact := by
  intro env granting
  have ran := inner env granting
  unfold Eff.catching
  rcases outcome : first env with ⟨reason | value, reached⟩ <;> simp only [outcome] at ran ⊢
  exact ran

theorem copyBindings_yields (stage : MgErrorStage) (buffers : List MgBufferBinding) :
    Yields (copyBindings stage buffers) Whatever :=
  (Yields.whenever (attemptOr_yields _)).bind fun _ _ =>
    .forEach (fun _ => retainObject_yields _) _

theorem copyScalarsAndResources_yields (stage : MgErrorStage) (scalars : List MgScalarBinding)
    (resources : List MgDispatchResourceDesc) :
    Yields (copyScalarsAndResources stage scalars resources) Whatever :=
  (Yields.whenever (attemptOr_yields _)).bind fun _ _ =>
    (Yields.forEach (fun _ => attemptOr_yields _) _).bind fun _ _ =>
    .whenever (attemptOr_yields _)

end Yields

/-! ### Objects on a granting machine -/

def Ready {τ : Type} (property : τ → Prop) (focus : Focus τ) : Prop :=
  property focus.object ∧ focus.env.Granting

theorem ready_onEnv {τ α β : Type} {property : τ → Prop} {body : Run α} {next : α → Over τ β}
    {fact : α → Prop} {after : β → Focus τ → Prop} {failed : Fault → Focus τ → Prop}
    (inner : Yields body fact)
    (rest : ∀ value, fact value → Triple (Ready property) (next value) after failed) :
    Triple (Ready property) (onEnv body >>= next) after failed := by
  intro focus ready
  have ran := inner focus.env ready.2
  rw [bind_apply, onEnv_apply]
  rcases outcome : body focus.env with ⟨reason | value, reached⟩ <;> simp only [outcome] at ran ⊢
  exact rest value ran.1 _ ⟨ready.1, ran.2⟩

theorem ready_self {τ α : Type} {property : τ → Prop} {next : τ → Over τ α}
    {after : α → Focus τ → Prop} {failed : Fault → Focus τ → Prop}
    (rest : ∀ object, property object → Triple (Ready (· = object)) (next object) after failed) :
    Triple (Ready property) (self >>= next) after failed := fun focus ready =>
  rest focus.object ready.1 focus ⟨rfl, ready.2⟩

theorem ready_modifySelf {τ : Type} {property changed : τ → Prop} {change : τ → τ}
    {failed : Fault → Focus τ → Prop}
    (changes : ∀ object, property object → changed (change object)) :
    Triple (Ready property) (modifySelf change) (fun _ => Ready changed) failed :=
  fun _ ready => ⟨changes _ ready.1, ready.2⟩

/-- The graph with one node more. -/
structure NodeAdded (graph : MgGraph) (as : MgNodeAs) (after : MgGraph) : Prop where
  address : after.address = graph.address
  nodes : after.nodes = graph.nodes ++ [newNode graph as]
  edges : after.edges = graph.edges
  arena : after.arena = graph.arena

section Additions

variable {graph : MgGraph} {failed : Fault → Focus MgGraph → Prop}

theorem mgGraphReserveNodes_ready (required : Nat) :
    Triple (Ready (· = graph)) (mgGraphReserveNodes required)
      (fun _ => Ready (SameContents graph)) failed := by
  apply ready_self
  intro object same
  split
  · exact Triple.pure fun focus ready => ⟨by rw [ready.1, same]; exact .refl graph, ready.2⟩
  · apply ready_onEnv (attemptOr_yields _)
    intro _ _
    apply ready_modifySelf
    intro other equal
    rw [equal, same]
    exact ⟨rfl, rfl, rfl, rfl⟩

theorem mgGraphAllocNode_ready (room : (graph.nodes.length + 1) * sizeofMgNode ≤ 2 ^ 64) :
    Triple (Ready (· = graph)) mgGraphAllocNode (fun _ => Ready (SameContents graph)) failed := by
  apply ready_self
  intro object same
  subst same
  apply Triple.bind (mgGraphReserveNodes_ready _)
  intro _
  apply ready_onEnv (attemptOr_yields _)
  intro _ _ focus ready
  rw [require_of focus _ _ room]
  exact ready

theorem mgGraphCommitNode_ready (as : MgNodeAs) :
    Triple (Ready (SameContents graph)) (mgGraphCommitNode as)
      (fun _ => Ready (NodeAdded graph as)) failed := by
  apply ready_self
  intro object same
  have fresh : newNode object as = newNode graph as := by
    simp only [newNode, same.address, same.nodes]
  rintro ⟨_, env⟩ ⟨rfl, granting⟩
  refine ⟨⟨same.address, ?_, same.edges, same.arena⟩, granting⟩
  exact congrArg₂ (fun nodes node => nodes ++ [node]) same.nodes fresh

/-- The addition is accepted by every graph with room for a node. -/
def Accepted (body : Over MgGraph NodePtr) (as : MgNodeAs) : Prop :=
  ∀ graph : MgGraph, (graph.nodes.length + 1) * sizeofMgNode ≤ 2 ^ 64 →
    Triple (Ready (· = graph)) body (fun _ => Ready (NodeAdded graph as)) fun _ _ => False

theorem Accepted.added {body : Over MgGraph NodePtr} {as : MgNodeAs} (accepted : Accepted body as)
    {env : Env} (granting : env.Granting)
    (room : (graph.nodes.length + 1) * sizeofMgNode ≤ 2 ^ 64) :
    ∃ pointer focus, body ⟨graph, env⟩ = (.ok pointer, focus) ∧
      NodeAdded graph as focus.object := by
  have ran := accepted graph room ⟨graph, env⟩ ⟨rfl, granting⟩
  rcases outcome : body ⟨graph, env⟩ with ⟨reason | pointer, focus⟩ <;> simp only [outcome] at ran
  exact ⟨pointer, focus, rfl, ran.1⟩

theorem mgGraphAddDispatchNode_accepted {desc : MgDispatchDesc} {source : DispatchSource}
    {dispatch : MgDispatchNode} (pointers : dispatchPointers desc = .ok source)
    (contents : dispatchContents desc source = .ok dispatch) :
    Accepted (mgGraphAddDispatchNode (some desc)) (.dispatch dispatch) := by
  intro graph room
  refine Triple.orFail (fun given same => ?_) fun missing => nomatch missing
  cases same
  refine Triple.ofExcept (fun read same => ?_) fun _ refused => by simp [pointers] at refused
  cases pointers.symm.trans same
  apply Triple.bind (mgGraphAllocNode_ready room)
  intro _
  apply ready_onEnv (attemptBoth_yields _)
  intro _ _
  refine Triple.ofExcept (fun built same => ?_) fun _ refused => by simp [contents] at refused
  cases contents.symm.trans same
  apply ready_onEnv (copyBindings_yields _ _)
  intro _ _
  apply ready_onEnv (copyScalarsAndResources_yields _ _ _).catching
  intro _ _
  exact mgGraphCommitNode_ready _

theorem mgGraphAddCopyNode_accepted {desc : MgCopyDesc} {copy : MgCopyNode}
    (contents : copyContents mgRangeValid desc = some copy) :
    Accepted (mgGraphAddCopyNode (some desc)) (.copy copy) := by
  intro graph room
  refine Triple.orFail (fun given same => ?_) fun missing => nomatch missing
  cases same
  refine Triple.orFail (fun read same => ?_) fun missing => by simp [contents] at missing
  cases contents.symm.trans same
  apply Triple.bind (mgGraphAllocNode_ready room)
  intro _
  apply ready_onEnv (retainObject_yields _)
  intro _ _
  apply ready_onEnv (retainObject_yields _)
  intro _ _
  exact mgGraphCommitNode_ready _

theorem mgGraphAddFillNode_accepted {desc : MgFillDesc} {fill : MgFillNode}
    (contents : fillContents mgRangeValid desc = some fill) :
    Accepted (mgGraphAddFillNode (some desc)) (.fill fill) := by
  intro graph room
  refine Triple.orFail (fun given same => ?_) fun missing => nomatch missing
  cases same
  refine Triple.orFail (fun read same => ?_) fun missing => by simp [contents] at missing
  cases contents.symm.trans same
  apply Triple.bind (mgGraphAllocNode_ready room)
  intro _
  apply ready_onEnv (retainObject_yields _)
  intro _ _
  exact mgGraphCommitNode_ready _

theorem mgGraphAddEventNode_accepted (kind : MgEventNode → MgNodeAs) (event : MgEvent)
    (value : UInt64) :
    Accepted (mgGraphAddEventNode kind (some event) value) (kind ⟨event, value⟩) := by
  intro graph room
  refine Triple.orFail (fun given same => ?_) fun missing => nomatch missing
  cases same
  apply Triple.bind (mgGraphAllocNode_ready room)
  intro _
  apply ready_onEnv (retainObject_yields _)
  intro _ _
  exact mgGraphCommitNode_ready _

end Additions

end MetalGraph
