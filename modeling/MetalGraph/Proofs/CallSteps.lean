import MetalGraph.Model.System
import MetalGraph.Proofs.MachineRules

set_option autoImplicit false

/- What one call does to the tables, for every call and every answer. -/
namespace MetalGraph

open Eff

/-! ### Destruction does not fail -/

def Total (body : Run Unit) : Prop := ∀ env, ∃ reached, body env = (.ok (), reached)

theorem Total.update (change : Env → Env) : Total (update change) := fun env => ⟨change env, rfl⟩

theorem Total.pure : Total (pure ()) := fun env => ⟨env, rfl⟩

theorem Total.seq {first second : Run Unit} (head : Total first) (tail : Total second) :
    Total (do first; second) := by
  intro env
  obtain ⟨middle, ran⟩ := head env
  obtain ⟨reached, finished⟩ := tail middle
  exact ⟨reached, by rw [bind_of_ok env ran]; exact finished⟩

theorem Total.forEach {α : Type} {body : α → Run Unit} (each : ∀ value, Total (body value))
    (values : List α) : Total (Eff.forEach body values) := by
  induction values with
  | nil => exact Total.pure
  | cons value rest ih => exact Total.seq (each value) ih

theorem mgArenaRelease_total (arena : Option MgArena) : Total (mgArenaRelease arena) := by
  cases arena with
  | none => exact Total.pure
  | some arena => exact Total.update _

theorem bindingsClear_total (bindings : List MgBufferBinding) :
    Total (mgDispatchNodeClear bindings) := Total.forEach (fun _ => Total.update _) bindings

theorem tensorsClear_total (tensors : List MgMpsgraphTensor) :
    Total (mgMpsgraphTensorArrayClear tensors) := Total.forEach (fun _ => Total.update _) tensors

theorem mgNodeClear_total (as : MgNodeAs) : Total (mgNodeClear as) := by
  cases as with
  | dispatch node => exact bindingsClear_total _
  | copy node => exact Total.seq (Total.update _) (Total.update _)
  | fill node => exact Total.update _
  | eventWait node => exact Total.update _
  | eventSignal node => exact Total.update _
  | barrier => exact Total.pure
  | mpsgraph node => exact Total.seq (tensorsClear_total _) (tensorsClear_total _)
  | workspace node => exact Total.pure
  | workspaceFill node => exact Total.update _
  | unknown kind => exact Total.pure

theorem mgGraphDestroy_total (graph : MgGraph) : Total (mgGraphDestroy graph) :=
  Total.seq (Total.forEach (fun _ => mgNodeClear_total _) _) (mgArenaRelease_total _)

theorem mgExecNodeClear_total (node : MgExecNode) : Total (mgExecNodeClear node) := by
  cases node with
  | dispatch node => exact bindingsClear_total _
  | copy node => exact Total.seq (Total.update _) (Total.update _)
  | fill node => exact Total.update _
  | eventWait node => exact Total.update _
  | eventSignal node => exact Total.update _
  | mpsgraph node => exact Total.seq (tensorsClear_total _) (tensorsClear_total _)
  | barrier id => exact Total.pure
  | workspace node => exact Total.pure
  | workspaceFill node => exact Total.update _
  | unknown kind => exact Total.pure

theorem mgGraphExecDestroy_total (exec : MgGraphExec) : Total (mgGraphExecDestroy exec) :=
  Total.seq (Total.forEach mgExecNodeClear_total _) (mgArenaRelease_total _)

theorem mgLaunchDestroy_total (launch : MgLaunch) : Total (mgLaunchDestroy launch) :=
  Total.seq (Total.forEach (fun _ => Total.update _) _) (Total.forEach (fun _ => Total.update _) _)

/-! ### One call -/

/-- The handle is null, or names nothing. -/
def Misses {τ : Type} (table : Slots τ) (handle : Option Nat) : Prop :=
  ∀ address, handle = some address → table.get? address = none

theorem misses_null {τ : Type} (table : Slots τ) : Misses table none := by
  rintro address ⟨⟩

theorem misses_dead {τ : Type} {table : Slots τ} {address : Nat}
    (dead : table.get? address = none) : Misses table (some address) := by
  rintro _ ⟨⟩
  exact dead

/-- The call works on an object that is not there. -/
def Call.misses (world : World) : Call → Prop
  | .counted _ | .graphCreate => False
  | .graphDestroy graph | .graphEdit graph _ | .graphValidate graph
  | .graphInstantiate graph _ => Misses world.graphs graph
  | .execDestroy exec | .execPatch exec _ | .graphLaunch exec _ => Misses world.execs exec
  | .launchSynchronize launch | .launchDestroy launch => Misses world.launches launch

/-- Every way in which a call can change the world. -/
inductive CallStep (world : World) : Call → Except Fault Response → World → Prop
  | refused {call : Call} (reason : Fault) (missed : call.misses world) :
      CallStep world call (.error reason) world
  | nothing {call : Call} (missed : call.misses world) : CallStep world call (.ok .done) world
  | counted (call : ObjectCall) {result : Except Fault Response} {env : Env}
      (ran : call.run world.env = (result, env)) :
      CallStep world (.counted call) result { world with env := env }
  | graphCreate {graph : MgGraph} {env : Env}
      (ran : mgGraphCreate world.graphs.size world.env = (.ok graph, env)) :
      CallStep world .graphCreate (.ok (.graph world.graphs.size))
        { world with env := env, graphs := world.graphs.push graph }
  | graphNotCreated {reason : Fault} {env : Env}
      (ran : mgGraphCreate world.graphs.size world.env = (.error reason, env)) :
      CallStep world .graphCreate (.error reason) { world with env := env }
  | graphDestroy {address : GraphPtr} {graph : MgGraph} {env : Env}
      (live : world.graphs.get? address = some graph)
      (ran : mgGraphDestroy graph world.env = (.ok (), env)) :
      CallStep world (.graphDestroy (some address)) (.ok .done)
        { world with env := env, graphs := world.graphs.free address }
  | graphEdit {address : GraphPtr} {graph : MgGraph} {edit : GraphEdit}
      {result : Except Fault Response} {focus : Focus MgGraph}
      (live : world.graphs.get? address = some graph)
      (ran : edit.run ⟨graph, world.env⟩ = (result, focus)) :
      CallStep world (.graphEdit (some address) edit) result
        { world with env := focus.env, graphs := world.graphs.put address focus.object }
  | graphValidate {address : GraphPtr} {graph : MgGraph} {result : Except Fault Unit} {env : Env}
      (live : world.graphs.get? address = some graph)
      (ran : mgGraphValidate graph world.env = (result, env)) :
      CallStep world (.graphValidate (some address)) (result.map fun _ => .done)
        { world with env := env }
  | graphInstantiate {address : GraphPtr} {graph : MgGraph} {device : Option MgDevice}
      {exec : MgGraphExec} {env : Env} (live : world.graphs.get? address = some graph)
      (ran : mgGraphInstantiate graph device world.env = (.ok exec, env)) :
      CallStep world (.graphInstantiate (some address) device) (.ok (.exec world.execs.size))
        { world with env := env, execs := world.execs.push exec }
  | graphNotInstantiated {address : GraphPtr} {graph : MgGraph} {device : Option MgDevice}
      {reason : Fault} {env : Env} (live : world.graphs.get? address = some graph)
      (ran : mgGraphInstantiate graph device world.env = (.error reason, env)) :
      CallStep world (.graphInstantiate (some address) device) (.error reason)
        { world with env := env }
  | execDestroy {address : ExecPtr} {exec : MgGraphExec} {env : Env}
      (live : world.execs.get? address = some exec)
      (ran : mgGraphExecDestroy exec world.env = (.ok (), env)) :
      CallStep world (.execDestroy (some address)) (.ok .done)
        { world with env := env, execs := world.execs.free address }
  | execPatch {address : ExecPtr} {exec : MgGraphExec} {patch : ExecPatch}
      {result : Except Fault Unit} {focus : Focus MgGraphExec}
      (live : world.execs.get? address = some exec)
      (ran : patch.run ⟨exec, world.env⟩ = (result, focus)) :
      CallStep world (.execPatch (some address) patch) (result.map fun _ => .done)
        { world with env := focus.env, execs := world.execs.put address focus.object }
  | graphLaunch {address : ExecPtr} {exec : MgGraphExec} {stream : Option MgStream}
      {launch : MgLaunch} {focus : Focus MgGraphExec}
      (live : world.execs.get? address = some exec)
      (ran : mgGraphLaunch address stream ⟨exec, world.env⟩ = (.ok launch, focus)) :
      CallStep world (.graphLaunch (some address) stream) (.ok (.launch world.launches.size))
        { world with
          env := focus.env
          execs := world.execs.put address focus.object
          launches := world.launches.push launch }
  | graphNotLaunched {address : ExecPtr} {exec : MgGraphExec} {stream : Option MgStream}
      {reason : Fault} {focus : Focus MgGraphExec}
      (live : world.execs.get? address = some exec)
      (ran : mgGraphLaunch address stream ⟨exec, world.env⟩ = (.error reason, focus)) :
      CallStep world (.graphLaunch (some address) stream) (.error reason)
        { world with env := focus.env, execs := world.execs.put address focus.object }
  | launchSynchronize {address : LaunchPtr} {launch : MgLaunch} {result : Except Fault Unit}
      {focus : Focus LaunchOf} (live : world.launches.get? address = some launch)
      (ran : mgLaunchSynchronize ⟨⟨launch, world.execOf launch⟩, world.env⟩ = (result, focus)) :
      CallStep world (.launchSynchronize (some address)) (result.map fun _ => .done)
        (World.putLaunch { world with env := focus.env } address focus.object)
  | launchDestroy {address : LaunchPtr} {launch : MgLaunch} {env : Env}
      (live : world.launches.get? address = some launch)
      (ran : mgLaunchDestroy launch world.env = (.ok (), env)) :
      CallStep world (.launchDestroy (some address)) (.ok .done)
        { world with env := env, launches := world.launches.free address }

section Lookup

variable {τ : Type} {table : World → Slots τ} {world : World} {address : Nat}

theorem lookup_dead (missing : Fault) (dead : (table world).get? address = none) :
    lookup table (some address) missing world = (.error .undefined, world) := by
  simp only [lookup, bind_apply, orFail_some, read_apply, dead, orFail_none]

theorem lookup_live {object : τ} (missing : Fault)
    (live : (table world).get? address = some object) :
    lookup table (some address) missing world = (.ok (address, object), world) := by
  simp only [lookup, bind_apply, orFail_some, read_apply, live, pure_apply]

end Lookup

theorem onMachine_apply {α : Type} (body : Run α) (world : World) :
    onMachine body world = ((body world.env).1, { world with env := (body world.env).2 }) := rfl

section Destroying

variable {τ : Type} {table : World → Slots τ} {remove : Nat → World → World}
  {destroy : τ → Run Unit} {world : World} {address : Nat}

theorem destroying_dead (dead : (table world).get? address = none) :
    destroying table remove destroy (some address) world = (.error .undefined, world) :=
  bind_of_error world (lookup_dead .undefined dead) _

theorem destroying_live {object : τ} {env : Env} (live : (table world).get? address = some object)
    (ran : destroy object world.env = (.ok (), env)) :
    destroying table remove destroy (some address) world =
      (.ok .done, remove address { world with env := env }) := by
  apply (bind_of_ok world (lookup_live .undefined live) _).trans
  simp only [bind_apply, onMachine_apply, ran, update_apply, pure_apply]

end Destroying

theorem onGraph_apply {α : Type} {world : World} {address : GraphPtr} {graph : MgGraph}
    (missing : Fault) (live : world.graphs.get? address = some graph) (body : Over MgGraph α) :
    onGraph (some address) missing body world =
      ((body ⟨graph, world.env⟩).1, { world with
        env := (body ⟨graph, world.env⟩).2.env
        graphs := world.graphs.put address (body ⟨graph, world.env⟩).2.object }) :=
  bind_of_ok world (lookup_live missing live) _

theorem onExec_apply {α : Type} {world : World} {address : ExecPtr} {exec : MgGraphExec}
    (missing : Fault) (live : world.execs.get? address = some exec)
    (body : ExecPtr → Over MgGraphExec α) :
    onExec (some address) missing body world =
      ((body address ⟨exec, world.env⟩).1, { world with
        env := (body address ⟨exec, world.env⟩).2.env
        execs := world.execs.put address (body address ⟨exec, world.env⟩).2.object }) :=
  bind_of_ok world (lookup_live missing live) _

theorem onGraph_dead {α : Type} {world : World} {address : GraphPtr} (missing : Fault)
    (dead : world.graphs.get? address = none) (body : Over MgGraph α) :
    onGraph (some address) missing body world = (.error .undefined, world) :=
  bind_of_error world (lookup_dead missing dead) _

theorem onExec_dead {α : Type} {world : World} {address : ExecPtr} (missing : Fault)
    (dead : world.execs.get? address = none) (body : ExecPtr → Over MgGraphExec α) :
    onExec (some address) missing body world = (.error .undefined, world) :=
  bind_of_error world (lookup_dead missing dead) _

section Eval

variable (world : World)

theorem graphDestroy_step (graph : Option GraphPtr) :
    CallStep world (.graphDestroy graph) ((Call.graphDestroy graph).eval world).1
      ((Call.graphDestroy graph).eval world).2 := by
  cases graph with
  | none => exact .nothing (misses_null _)
  | some address =>
      rcases live : world.graphs.get? address with _ | graph
      · simp only [Call.eval, destroying_dead live]
        exact .refused _ (misses_dead live)
      · obtain ⟨env, ran⟩ := mgGraphDestroy_total graph world.env
        simp only [Call.eval, destroying_live live ran]
        exact .graphDestroy live ran

theorem execDestroy_step (exec : Option ExecPtr) :
    CallStep world (.execDestroy exec) ((Call.execDestroy exec).eval world).1
      ((Call.execDestroy exec).eval world).2 := by
  cases exec with
  | none => exact .nothing (misses_null _)
  | some address =>
      rcases live : world.execs.get? address with _ | exec
      · simp only [Call.eval, destroying_dead live]
        exact .refused _ (misses_dead live)
      · obtain ⟨env, ran⟩ := mgGraphExecDestroy_total exec world.env
        simp only [Call.eval, destroying_live live ran]
        exact .execDestroy live ran

theorem launchDestroy_step (launch : Option LaunchPtr) :
    CallStep world (.launchDestroy launch) ((Call.launchDestroy launch).eval world).1
      ((Call.launchDestroy launch).eval world).2 := by
  cases launch with
  | none => exact .nothing (misses_null _)
  | some address =>
      rcases live : world.launches.get? address with _ | launch
      · simp only [Call.eval, destroying_dead live]
        exact .refused _ (misses_dead live)
      · obtain ⟨env, ran⟩ := mgLaunchDestroy_total launch world.env
        simp only [Call.eval, destroying_live live ran]
        exact .launchDestroy live ran

theorem graphEdit_step (graph : Option GraphPtr) (edit : GraphEdit) :
    CallStep world (.graphEdit graph edit) ((Call.graphEdit graph edit).eval world).1
      ((Call.graphEdit graph edit).eval world).2 := by
  cases graph with
  | none => exact .refused _ (misses_null _)
  | some address =>
      rcases live : world.graphs.get? address with _ | graph
      · simp only [Call.eval, onGraph_dead _ live]
        exact .refused _ (misses_dead live)
      · simp only [Call.eval, onGraph_apply _ live]
        exact .graphEdit live rfl

theorem graphValidate_step (graph : Option GraphPtr) :
    CallStep world (.graphValidate graph) ((Call.graphValidate graph).eval world).1
      ((Call.graphValidate graph).eval world).2 := by
  cases graph with
  | none => exact .refused _ (misses_null _)
  | some address =>
      rcases live : world.graphs.get? address with _ | graph
      · simp only [Call.eval, bind_of_error _ (lookup_dead _ live)]
        exact .refused _ (misses_dead live)
      · simp only [Call.eval, bind_of_ok _ (lookup_live _ live), bind_apply, onMachine_apply]
        rcases ran : mgGraphValidate graph world.env with ⟨reason | ⟨⟩, env⟩
        · exact .graphValidate live ran
        · exact .graphValidate live ran

theorem graphInstantiate_step (graph : Option GraphPtr) (device : Option MgDevice) :
    CallStep world (.graphInstantiate graph device)
      ((Call.graphInstantiate graph device).eval world).1
      ((Call.graphInstantiate graph device).eval world).2 := by
  cases graph with
  | none => exact .refused _ (misses_null _)
  | some address =>
      rcases live : world.graphs.get? address with _ | graph
      · simp only [Call.eval, instantiateGraph, bind_of_error _ (lookup_dead _ live)]
        exact .refused _ (misses_dead live)
      · simp only [Call.eval, instantiateGraph, bind_of_ok _ (lookup_live _ live), bind_apply,
          onMachine_apply]
        rcases ran : mgGraphInstantiate graph device world.env with ⟨reason | exec, env⟩
        · exact .graphNotInstantiated live ran
        · exact .graphInstantiate live ran

theorem execPatch_step (exec : Option ExecPtr) (patch : ExecPatch) :
    CallStep world (.execPatch exec patch) ((Call.execPatch exec patch).eval world).1
      ((Call.execPatch exec patch).eval world).2 := by
  cases exec with
  | none => exact .refused _ (misses_null _)
  | some address =>
      rcases live : world.execs.get? address with _ | exec
      · simp only [Call.eval, bind_apply, onExec_dead _ live]
        exact .refused _ (misses_dead live)
      · simp only [Call.eval, bind_apply, onExec_apply _ live]
        rcases ran : patch.run ⟨exec, world.env⟩ with ⟨reason | ⟨⟩, focus⟩
        · exact .execPatch live ran
        · exact .execPatch live ran

theorem graphLaunch_step (exec : Option ExecPtr) (stream : Option MgStream) :
    CallStep world (.graphLaunch exec stream) ((Call.graphLaunch exec stream).eval world).1
      ((Call.graphLaunch exec stream).eval world).2 := by
  cases exec with
  | none => exact .refused _ (misses_null _)
  | some address =>
      rcases live : world.execs.get? address with _ | exec
      · simp only [Call.eval, launchGraph, bind_apply, onExec_dead _ live]
        exact .refused _ (misses_dead live)
      · simp only [Call.eval, launchGraph, bind_apply, onExec_apply _ live]
        rcases ran : mgGraphLaunch address stream ⟨exec, world.env⟩ with ⟨reason | launch, focus⟩
        · exact .graphNotLaunched live ran
        · exact .graphLaunch live ran

theorem launchSynchronize_step (launch : Option LaunchPtr) :
    CallStep world (.launchSynchronize launch) ((Call.launchSynchronize launch).eval world).1
      ((Call.launchSynchronize launch).eval world).2 := by
  cases launch with
  | none => exact .refused _ (misses_null _)
  | some address =>
      rcases live : world.launches.get? address with _ | launch
      · simp only [Call.eval, synchronizeLaunch, bind_of_error _ (lookup_dead _ live)]
        exact .refused _ (misses_dead live)
      · simp only [Call.eval, synchronizeLaunch, bind_of_ok _ (lookup_live _ live), bind_apply,
          zoom]
        rcases ran : mgLaunchSynchronize ⟨⟨launch, world.execOf launch⟩, world.env⟩
          with ⟨reason | ⟨⟩, focus⟩
        · exact .launchSynchronize live ran
        · exact .launchSynchronize live ran

theorem graphCreate_step :
    CallStep world .graphCreate (Call.graphCreate.eval world).1
      (Call.graphCreate.eval world).2 := by
  simp only [Call.eval, createGraph, bind_apply, read_apply, onMachine_apply]
  rcases ran : mgGraphCreate world.graphs.size world.env with ⟨reason | graph, env⟩
  · exact .graphNotCreated ran
  · exact .graphCreate ran

/-- The call lands in one of the listed cases. -/
theorem Call.eval_step (call : Call) :
    CallStep world call (call.eval world).1 (call.eval world).2 := by
  cases call with
  | counted call => exact .counted call rfl
  | graphCreate => exact graphCreate_step world
  | graphDestroy graph => exact graphDestroy_step world graph
  | graphEdit graph edit => exact graphEdit_step world graph edit
  | graphValidate graph => exact graphValidate_step world graph
  | graphInstantiate graph device => exact graphInstantiate_step world graph device
  | execDestroy exec => exact execDestroy_step world exec
  | execPatch exec patch => exact execPatch_step world exec patch
  | graphLaunch exec stream => exact graphLaunch_step world exec stream
  | launchSynchronize launch => exact launchSynchronize_step world launch
  | launchDestroy launch => exact launchDestroy_step world launch

end Eval

/-! ### Where a graph comes from -/

section Origin

variable {world world' : World} {address : GraphPtr}

theorem mgGraphCreate_ok {address : GraphPtr} {graph : MgGraph} {env reached : Env}
    (success : mgGraphCreate address env = (.ok graph, reached)) :
    graph = ⟨address, [], 0, [], 0, none⟩ := by
  simp only [mgGraphCreate, bind_ok, pure_ok] at success
  obtain ⟨_, _, _, rfl, _⟩ := success
  rfl

/-- Where the graph at an address comes from. -/
inductive GraphOrigin (world : World) (call : Call) (result : Except Fault Response)
    (address : GraphPtr) (after : MgGraph) : Prop
  | kept (live : world.graphs.get? address = some after)
      (other : ∀ edit, call ≠ .graphEdit (some address) edit)
  | made (fresh : address = world.graphs.size) (created : call = .graphCreate)
      (empty : after = ⟨address, [], 0, [], 0, none⟩)
  | edited {before : MgGraph} {edit : GraphEdit} {focus : Focus MgGraph}
      (named : call = .graphEdit (some address) edit)
      (live : world.graphs.get? address = some before)
      (ran : edit.run ⟨before, world.env⟩ = (result, focus)) (same : after = focus.object)

theorem Call.misses_edit {edit : GraphEdit} {graph : MgGraph}
    (missed : (Call.graphEdit (some address) edit).misses world)
    (live : world.graphs.get? address = some graph) : False := by
  rw [missed address rfl] at live
  cases live

theorem CallStep.graphOrigin {call : Call} {result : Except Fault Response}
    (step : CallStep world call result world') {after : MgGraph}
    (live : world'.graphs.get? address = some after) :
    GraphOrigin world call result address after := by
  cases step with
  | refused reason missed | nothing missed =>
      refine .kept live fun edit named => ?_
      subst named
      exact Call.misses_edit missed live
  | graphCreate ran =>
      rw [Slots.get?_push] at live
      split at live
      · rename_i fresh
        cases live
        exact .made fresh rfl (by rw [mgGraphCreate_ok ran, fresh])
      · exact .kept live (by simp)
  | graphDestroy present ran =>
      rw [Slots.get?_free] at live
      split at live
      · cases live
      · exact .kept live (by simp)
  | graphEdit present ran =>
      rw [Slots.get?_put present] at live
      split at live
      · rename_i here
        cases live
        subst here
        exact .edited rfl present ran rfl
      · rename_i elsewhere
        refine .kept live fun edit named => elsewhere ?_
        cases named
        rfl
  | counted | graphNotCreated | graphValidate | graphInstantiate | graphNotInstantiated
  | execDestroy | execPatch | graphLaunch | graphNotLaunched | launchSynchronize
  | launchDestroy => exact .kept live (by simp)

end Origin

end MetalGraph
