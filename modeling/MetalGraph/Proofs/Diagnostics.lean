import MetalGraph.Proofs.DirectLaunch
import MetalGraph.Proofs.PatchFrame
import MetalGraph.Proofs.Instantiation

set_option autoImplicit false

/- What the diagnostics of a plan say about its launches, over a whole history of patches,
launches and synchronizations. -/
namespace MetalGraph

open Eff

/-! ### The plan as it is built -/

theorem mgIcbDispatchEligible_ne_disabled (dispatch : MgExecDispatch) :
    mgIcbDispatchEligible dispatch ≠ .disabled := by
  unfold mgIcbDispatchEligible
  split
  · simp
  · split <;> simp

/-- What is known of an indirect plan for some nodes before anything is launched. -/
structure Planned (nodes : List MgExecNode) (icb : MgIcbPlan) : Prop where
  groups : nodes ≠ [] → icb.groupsPlanned = 1
  ineligible : nodes ≠ [] → icb.backendImpl = none →
    icb.lastFallbackReason ≠ .none ∧ icb.lastFallbackReason ≠ .disabled
  idle : nodes = [] → icb.groupsPlanned = 0 ∧ icb.groupsUsed = 0 ∧ icb.groupsFallback = 0 ∧
    icb.lastFallbackReason = .none ∧ icb.backendImpl = none

theorem planned_fallBack {nodes : List MgExecNode} {plan : MgIcbPlan} {reason : MgIcbFallbackReason}
    (some : nodes ≠ []) (ineligible : reason ≠ .none) (enabled : reason ≠ .disabled) :
    Planned nodes (plan.fallBack reason) where
  groups _ := rfl
  ineligible _ _ := ⟨ineligible, enabled⟩
  idle none := absurd none some

theorem mgIcbPlanBuild_planned {nodes : List MgExecNode} {icb : MgIcbPlan} {env reached : Env}
    (success : mgIcbPlanBuild nodes env = (.ok icb, reached)) : Planned nodes icb := by
  simp only [mgIcbPlanBuild, bind_ok] at success
  obtain ⟨available, _, _, built⟩ := success
  split at built
  · obtain ⟨rfl, _⟩ := pure_ok.mp built
    exact ⟨fun some => absurd rfl some, fun some => absurd rfl some,
      fun _ => ⟨rfl, rfl, rfl, rfl, rfl⟩⟩
  · split at built
    · obtain ⟨rfl, _⟩ := pure_ok.mp built
      exact planned_fallBack (by simp) (by simp) (by simp)
    · split at built
      · rename_i dispatch
        split at built
        · rename_i ineligible
          obtain ⟨rfl, _⟩ := pure_ok.mp built
          exact planned_fallBack (by simp) ineligible (mgIcbDispatchEligible_ne_disabled _)
        · simp only [recordIcbPlan, bind_ok] at built
          obtain ⟨granted, _, _, recorded⟩ := built
          split at recorded
          · obtain ⟨rfl, _⟩ := pure_ok.mp recorded
            exact ⟨fun _ => rfl, by simp, by simp⟩
          · obtain ⟨rfl, _⟩ := pure_ok.mp recorded
            exact planned_fallBack (by simp) (by simp) (by simp)
      · obtain ⟨rfl, _⟩ := pure_ok.mp built
        exact planned_fallBack (by simp) (by simp) (by simp)
  · rename_i many _
    obtain ⟨rfl, _⟩ := pure_ok.mp built
    exact planned_fallBack many (by simp) (by simp)

theorem mgGraphInstantiate_planned {graph : MgGraph} {device : Option MgDevice}
    {env reached : Env} {exec : MgGraphExec}
    (success : mgGraphInstantiate graph device env = (.ok exec, reached)) :
    Planned exec.nodes exec.icb := by
  obtain ⟨_, _, _, _, _, built⟩ := mgGraphInstantiate_run success
  exact mgIcbPlanBuild_planned built

/-! ### One launch -/

/-- The indirect plan after a launch that succeeds. -/
def MgIcbPlan.launched (icb : MgIcbPlan) : MgIcbPlan :=
  match usableIcb icb with
  | some _ => icb.beginLaunch.recordUse
  | none => icb.beginLaunch

theorem mgGraphLaunch_plan {address : ExecPtr} {stream : Option MgStream} {exec : MgGraphExec}
    {env : Env} {launch : MgLaunch} {reached : Focus MgGraphExec}
    (success : mgGraphLaunch address stream ⟨exec, env⟩ = (.ok launch, reached)) :
    reached.object =
      { exec with icb := exec.icb.launched, inFlightCount := exec.inFlightCount + 1 } := by
  unfold MgIcbPlan.launched
  cases mgGraphLaunch_run success with
  | direct _ _ usable => rw [usable]
  | indirect _ _ usable => rw [usable]

/-- Some command that was submitted executes an indirect command buffer. -/
def ExecutesIcb (events : List MetalEvent) : Prop :=
  ∃ icb count, .executeCommands icb count ∈ committedCommands events

theorem nodeCommands_direct (workspace : Option MetalBuffer) (node : MgExecNode)
    (icb : IndirectCommandBuffer) (count : Nat) :
    .executeCommands icb count ∉ nodeCommands workspace node := by
  cases node with
  | workspaceFill fill => cases workspace <;> simp [nodeCommands, workspaceFillCommands]
  | dispatch | copy | fill | eventWait | eventSignal | mpsgraph =>
      simp [nodeCommands, dispatchCommand, copyCommand, fillCommand, mpsgraphCommand]
  | barrier | workspace | unknown => simp [nodeCommands]

theorem Submitted.executesIcb {exec : MgGraphExec} {impls : List Nat} {events : List MetalEvent}
    (submitted : Submitted exec impls events) :
    ExecutesIcb events ↔ (usableIcb exec.icb).isSome = true := by
  unfold ExecutesIcb
  rw [submitted.commands, launchCommands]
  cases usableIcb exec.icb with
  | some icb => simp
  | none => simp [nodeCommands_direct]

section Launched

variable {icb : MgIcbPlan}

theorem launched_idle (idle : icb.groupsPlanned = 0) (unrecorded : icb.backendImpl = none) :
    icb.launched = icb := by
  have direct : usableIcb icb = none := by simp [usableIcb, unrecorded]
  simp [MgIcbPlan.launched, direct, MgIcbPlan.beginLaunch, idle]

theorem launched_disabled (planned : icb.groupsPlanned = 1) (disabled : icbEnabled icb = false) :
    icb.launched =
      { icb with groupsUsed := 0, groupsFallback := 1, lastFallbackReason := .disabled } := by
  have direct : usableIcb icb = none := by simp [usableIcb, disabled]
  simp [MgIcbPlan.launched, direct, MgIcbPlan.beginLaunch, planned, disabled]

theorem launched_executed {recorded : IndirectCommandBuffer} (planned : icb.groupsPlanned = 1)
    (enabled : icbEnabled icb = true) (present : icb.backendImpl = some recorded) :
    icb.launched =
      { icb with groupsUsed := 1, groupsFallback := 0, lastFallbackReason := .none } := by
  have indirect : usableIcb icb = some recorded := by simp [usableIcb, enabled, present]
  simp [MgIcbPlan.launched, indirect, MgIcbPlan.beginLaunch, MgIcbPlan.recordUse, planned, enabled,
    present]

theorem launched_fellBack (planned : icb.groupsPlanned = 1) (enabled : icbEnabled icb = true)
    (unrecorded : icb.backendImpl = none) (reason : icb.lastFallbackReason ≠ .none) :
    icb.launched = { icb with groupsUsed := 0, groupsFallback := 1 } := by
  have direct : usableIcb icb = none := by simp [usableIcb, unrecorded]
  simp [MgIcbPlan.launched, direct, MgIcbPlan.beginLaunch, planned, enabled, unrecorded, reason]

end Launched

/-! ### Histories -/

/-- The plans that patches and successful launches and synchronizations make of a plan, with
the flag of each launch. -/
inductive Session (first : MgGraphExec) : List Bool → MgGraphExec → Prop
  | start : Session first [] first
  | patched {flags : List Bool} {exec : MgGraphExec} {env : Env} {patch : ExecPatch}
      {result : Except Fault Unit} {reached : Focus MgGraphExec}
      (earlier : Session first flags exec)
      (ran : patch.run ⟨exec, env⟩ = (result, reached)) : Session first flags reached.object
  | launched {flags : List Bool} {exec : MgGraphExec} {env : Env} {address : ExecPtr}
      {stream : Option MgStream} {launch : MgLaunch} {reached : Focus MgGraphExec}
      (earlier : Session first flags exec)
      (ran : mgGraphLaunch address stream ⟨exec, env⟩ = (.ok launch, reached)) :
      Session first (flags ++ [icbEnabled exec.icb]) reached.object
  | synchronized {flags : List Bool} {exec after : MgGraphExec} {env : Env} {launch : MgLaunch}
      {reached : Focus LaunchOf} (earlier : Session first flags exec)
      (ran : mgLaunchSynchronize ⟨⟨launch, some exec⟩, env⟩ = (.ok (), reached))
      (alive : reached.object.exec = some after) : Session first flags after

/-- What a history leaves in a plan. -/
structure Continues (first : MgGraphExec) (flags : List Bool) (exec : MgGraphExec) : Prop where
  nodes : exec.nodes = [] ↔ first.nodes = []
  planned : exec.icb.groupsPlanned = first.icb.groupsPlanned
  recorded : exec.icb.backendImpl = first.icb.backendImpl
  idle : first.nodes = [] → exec.icb.groupsUsed = 0 ∧ exec.icb.groupsFallback = 0 ∧
    exec.icb.lastFallbackReason = .none
  reason : first.nodes ≠ [] → first.icb.backendImpl = none →
    exec.icb.lastFallbackReason =
      if false ∈ flags then .disabled else first.icb.lastFallbackReason

theorem Continues.start {first : MgGraphExec} (built : Planned first.nodes first.icb) :
    Continues first [] first where
  nodes := .rfl
  planned := rfl
  recorded := rfl
  idle none := ⟨(built.idle none).2.1, (built.idle none).2.2.1, (built.idle none).2.2.2.1⟩
  reason _ _ := rfl

/-- A step that writes at most the flags of the indirect plan keeps the history. -/
theorem Continues.kept {first exec after : MgGraphExec} {flags : List Bool}
    (continues : Continues first flags exec) (nodes : after.nodes.length = exec.nodes.length)
    (icb : { after.icb with enabledFlags := exec.icb.enabledFlags } = exec.icb) :
    Continues first flags after := by
  have empty : after.nodes = [] ↔ exec.nodes = [] := by
    rw [← List.length_eq_zero_iff, nodes, List.length_eq_zero_iff]
  have planned : after.icb.groupsPlanned = exec.icb.groupsPlanned := congrArg (·.groupsPlanned) icb
  have recorded : after.icb.backendImpl = exec.icb.backendImpl := congrArg (·.backendImpl) icb
  have used : after.icb.groupsUsed = exec.icb.groupsUsed := congrArg (·.groupsUsed) icb
  have fallback : after.icb.groupsFallback = exec.icb.groupsFallback :=
    congrArg (·.groupsFallback) icb
  have reason : after.icb.lastFallbackReason = exec.icb.lastFallbackReason :=
    congrArg (·.lastFallbackReason) icb
  refine ⟨empty.trans continues.nodes, planned.trans continues.planned,
    recorded.trans continues.recorded, ?_, ?_⟩
  · rw [used, fallback, reason]
    exact continues.idle
  · rw [reason]
    exact continues.reason

theorem Continues.reason_ne_none {first exec : MgGraphExec} {flags : List Bool}
    (built : Planned first.nodes first.icb) (continues : Continues first flags exec)
    (some : first.nodes ≠ []) (unrecorded : first.icb.backendImpl = none) :
    exec.icb.lastFallbackReason ≠ .none := by
  rw [continues.reason some unrecorded]
  split
  · simp
  · exact (built.ineligible some unrecorded).1

theorem Continues.launched {first exec : MgGraphExec} {flags : List Bool}
    (built : Planned first.nodes first.icb) (continues : Continues first flags exec)
    (count : UInt32) :
    Continues first (flags ++ [icbEnabled exec.icb])
      { exec with icb := exec.icb.launched, inFlightCount := count } := by
  by_cases none : first.nodes = []
  · have idle := built.idle none
    rw [launched_idle (continues.planned.trans idle.1) (continues.recorded.trans idle.2.2.2.2)]
    exact ⟨continues.nodes, continues.planned, continues.recorded, continues.idle,
      fun some => absurd none some⟩
  · have planned := continues.planned.trans (built.groups none)
    rcases enabled : icbEnabled exec.icb with _ | _
    · rw [launched_disabled planned enabled]
      refine ⟨continues.nodes, continues.planned, continues.recorded,
        fun some => absurd some none, ?_⟩
      simp
    · rcases recorded : exec.icb.backendImpl with _ | icb
      · have unrecorded := continues.recorded.symm.trans recorded
        rw [launched_fellBack planned enabled recorded
          (continues.reason_ne_none built none unrecorded)]
        refine ⟨continues.nodes, continues.planned, continues.recorded,
          fun some => absurd some none, ?_⟩
        simpa using continues.reason
      · rw [launched_executed planned enabled recorded]
        refine ⟨continues.nodes, continues.planned, continues.recorded,
          fun some => absurd some none, ?_⟩
        intro _ unrecorded
        rw [← continues.recorded, recorded] at unrecorded
        cases unrecorded

theorem finishLaunch_icb (exec : MgGraphExec) : exec.finishLaunch.icb = exec.icb := by
  unfold MgGraphExec.finishLaunch
  split <;> rfl

theorem Session.continues {first exec : MgGraphExec} {flags : List Bool}
    (built : Planned first.nodes first.icb) (session : Session first flags exec) :
    Continues first flags exec := by
  induction session with
  | start => exact .start built
  | @patched _ _ _ _ _ _ _ ran continues =>
      rcases ExecPatch.run_cases ran with ⟨_, step⟩ | unchanged
      · exact continues.kept step.frozen.nodes.length_eq.symm step.frozen.icb
      · rwa [unchanged]
  | launched _ ran continues =>
      rw [mgGraphLaunch_plan ran]
      exact continues.launched built _
  | @synchronized _ exec after env launch reached _ ran alive continues =>
      have step := mgLaunchSynchronize_step ⟨launch, some exec⟩ env
      rw [ran] at step
      rcases step.exec with same | same
      · cases same.symm.trans alive
        exact continues
      · cases same.symm.trans alive
        exact continues.kept (congrArg List.length (finishLaunch_sameWork exec).nodes)
          (finishLaunch_icb exec ▸ rfl)

/-! ### The diagnostics of a launch -/

/-- What the diagnostics of a launch of a plan should say. -/
structure Describes (first exec : MgGraphExec) (events : List MetalEvent)
    (shown : MgGraphExecDiagnostics) : Prop where
  groups : shown.icbGroupsUsed.toNat + shown.icbGroupsFallback.toNat =
    shown.icbGroupsPlanned.toNat
  used : shown.icbGroupsUsed ≠ 0 ↔ ExecutesIcb events
  executed : ExecutesIcb events → shown.icbLastFallbackReason = .none
  disabled : exec.nodes ≠ [] → icbEnabled exec.icb = false →
    shown.icbLastFallbackReason = .disabled
  fellBack : icbEnabled exec.icb = true → ¬ ExecutesIcb events →
    shown.icbLastFallbackReason = first.icb.lastFallbackReason

def MgIcbPlan.diagnostics (icb : MgIcbPlan) : MgGraphExecDiagnostics :=
  ⟨sizeofMgGraphExecDiagnostics, icb.available, icbEnabled icb, icb.groupsPlanned, icb.groupsUsed,
    icb.groupsFallback, icb.lastFallbackReason⟩

theorem mgGraphExecGetDiagnostics_ok {exec : MgGraphExec} {size : UInt64}
    {shown : MgGraphExecDiagnostics} (asked : mgGraphExecGetDiagnostics exec size = .ok shown) :
    shown = exec.icb.diagnostics := by
  unfold mgGraphExecGetDiagnostics at asked
  split at asked
  · cases asked
  · exact (Except.ok.inj asked).symm

section Cases

variable {first exec : MgGraphExec} {flags : List Bool} {events : List MetalEvent}

theorem describes_idle (built : Planned first.nodes first.icb)
    (continues : Continues first flags exec)
    (executes : ExecutesIcb events ↔ (usableIcb exec.icb).isSome = true) (none : exec.nodes = []) :
    Describes first exec events exec.icb.launched.diagnostics := by
  obtain ⟨unplanned, _, _, reason, nothing⟩ := built.idle (continues.nodes.mp none)
  obtain ⟨used, fallback, kept⟩ := continues.idle (continues.nodes.mp none)
  have planned := continues.planned.trans unplanned
  have unrecorded := continues.recorded.trans nothing
  have stays : ¬ ExecutesIcb events := by simp [executes, usableIcb, unrecorded]
  rw [launched_idle planned unrecorded]
  constructor
  · simp [MgIcbPlan.diagnostics, used, fallback, planned]
  · simp [MgIcbPlan.diagnostics, used, stays]
  · exact fun executed => absurd executed stays
  · exact fun some => absurd none some
  · exact fun _ _ => kept.trans reason.symm

theorem describes_disabled (executes : ExecutesIcb events ↔ (usableIcb exec.icb).isSome = true)
    (planned : exec.icb.groupsPlanned = 1) (disabled : icbEnabled exec.icb = false) :
    Describes first exec events exec.icb.launched.diagnostics := by
  have stays : ¬ ExecutesIcb events := by simp [executes, usableIcb, disabled]
  rw [launched_disabled planned disabled]
  constructor
  · simp [MgIcbPlan.diagnostics, planned]
  · simp [MgIcbPlan.diagnostics, stays]
  · exact fun executed => absurd executed stays
  · exact fun _ _ => rfl
  · intro enabled
    simp [disabled] at enabled

theorem describes_executed {icb : IndirectCommandBuffer}
    (executes : ExecutesIcb events ↔ (usableIcb exec.icb).isSome = true)
    (planned : exec.icb.groupsPlanned = 1) (enabled : icbEnabled exec.icb = true)
    (recorded : exec.icb.backendImpl = some icb) :
    Describes first exec events exec.icb.launched.diagnostics := by
  have executed : ExecutesIcb events := by simp [executes, usableIcb, enabled, recorded]
  rw [launched_executed planned enabled recorded]
  constructor
  · simp [MgIcbPlan.diagnostics, planned]
  · simp [MgIcbPlan.diagnostics, executed]
  · exact fun _ => rfl
  · intro _ disabled
    simp [enabled] at disabled
  · exact fun _ stays => absurd executed stays

/-- Falling back with the flag on, a plan shows the reason it was built with until the first
launch that has the flag off. -/
theorem fellBack_describes_iff (built : Planned first.nodes first.icb)
    (continues : Continues first flags exec)
    (executes : ExecutesIcb events ↔ (usableIcb exec.icb).isSome = true) (some : exec.nodes ≠ [])
    (enabled : icbEnabled exec.icb = true) (recorded : exec.icb.backendImpl = none) :
    Describes first exec events exec.icb.launched.diagnostics ↔ false ∉ flags := by
  have filled : first.nodes ≠ [] := fun empty => some (continues.nodes.mpr empty)
  have planned := continues.planned.trans (built.groups filled)
  have unrecorded := continues.recorded.symm.trans recorded
  have reason := continues.reason filled unrecorded
  have stays : ¬ ExecutesIcb events := by simp [executes, usableIcb, recorded]
  rw [launched_fellBack planned enabled recorded (continues.reason_ne_none built filled unrecorded)]
  constructor
  · intro describes lost
    have same := describes.fellBack enabled stays
    simp only [MgIcbPlan.diagnostics, reason, lost, ↓reduceIte] at same
    exact (built.ineligible filled unrecorded).2 same.symm
  · intro held
    simp only [held, ↓reduceIte] at reason
    constructor
    · simp [MgIcbPlan.diagnostics, planned]
    · simp [MgIcbPlan.diagnostics, stays]
    · exact fun executed => absurd executed stays
    · intro _ disabled
      simp [enabled] at disabled
    · exact fun _ _ => reason

end Cases

/-- The diagnostics describe a launch unless it has nodes and falls back with the flag on after
an earlier launch had the flag off. -/
theorem diagnostics_describe_iff {graph : MgGraph} {device : Option MgDevice}
    {made created : Env} {first : MgGraphExec}
    (instantiated : mgGraphInstantiate graph device made = (.ok first, created))
    {flags : List Bool} {exec : MgGraphExec} (session : Session first flags exec)
    {address : ExecPtr} {stream : Option MgStream} {env : Env} {launch : MgLaunch}
    {reached : Focus MgGraphExec}
    (ran : mgGraphLaunch address stream ⟨exec, env⟩ = (.ok launch, reached)) {size : UInt64}
    {shown : MgGraphExecDiagnostics}
    (asked : mgGraphExecGetDiagnostics reached.object size = .ok shown) :
    Describes first exec (reached.env.trace.drop env.trace.length) shown ↔
      exec.nodes = [] ∨ icbEnabled exec.icb = false ∨ exec.icb.backendImpl.isSome = true ∨
        false ∉ flags := by
  have built := mgGraphInstantiate_planned instantiated
  have continues := session.continues built
  obtain ⟨events, logged, submitted⟩ := mgGraphLaunch_submits ran
  have executes := submitted.executesIcb
  have reported := mgGraphExecGetDiagnostics_ok asked
  rw [mgGraphLaunch_plan ran] at reported
  rw [reported, logged, List.drop_left]
  by_cases none : exec.nodes = []
  · exact iff_of_true (describes_idle built continues executes none) (.inl none)
  · have filled : first.nodes ≠ [] := fun empty => none (continues.nodes.mpr empty)
    have planned := continues.planned.trans (built.groups filled)
    rcases enabled : icbEnabled exec.icb with _ | _
    · exact iff_of_true (describes_disabled executes planned enabled) (.inr (.inl rfl))
    · rcases recorded : exec.icb.backendImpl with _ | icb
      · have fellBack := fellBack_describes_iff built continues executes none enabled recorded
        simpa [none] using fellBack
      · exact iff_of_true (describes_executed executes planned enabled recorded)
          (.inr (.inr (.inl rfl)))

/-! A plan that falls back is launched with the flag off, and then with the flag on. -/

def mixedTensor : MgMpsgraphTensor := ⟨sharedBuffer, 0, 16, .float32, .contiguous, [4]⟩

def mixedGraph : MgGraph where
  address := 0
  nodes :=
    [⟨0, 1, 0, 0, .fill ⟨sharedBuffer, 0, 16, 1⟩⟩,
      ⟨0, 2, 1, 0, .mpsgraph ⟨"package", [mixedTensor], [mixedTensor]⟩⟩,
      ⟨0, 3, 2, 0, .fill ⟨sharedBuffer, 0, 16, 2⟩⟩]
  nodeCapacity := 4
  edges := []
  edgeCapacity := 0
  arena := none

def mixedEnv : Env := (grantAll.run mixedCalls).world.env

def onSeven (focus : Focus MgGraphExec) : Except Fault MgLaunch × Focus MgGraphExec :=
  mgGraphLaunch 0 (some ⟨some 7⟩) focus

def mixedLaunch : MgLaunch :=
  ⟨[0, 1, 2], 4, some 0, false, 4, List.replicate 4 sharedBuffer, 0, [], none⟩

/-- The plan with the flag off, before anything is launched. -/
def mixedOff : Focus MgGraphExec :=
  (mgGraphExecSetOptimizationFlags 0 ⟨mixedExec, mixedEnv⟩).2

/-- That plan once it is launched and synchronized. -/
def mixedIdle : Focus LaunchOf :=
  (mgLaunchSynchronize ⟨⟨mixedLaunch, some (onSeven mixedOff).2.object⟩,
    (onSeven mixedOff).2.env⟩).2

def disabledExec : MgGraphExec :=
  { mixedExec with icb :=
      { mixedExec.icb with enabledFlags := 0, lastFallbackReason := .disabled } }

/-- That plan with the flag on again. -/
def mixedOn : Focus MgGraphExec :=
  (mgGraphExecSetOptimizationFlags mgOptimizationIcb ⟨disabledExec, mixedIdle.env⟩).2

private theorem eq_pair_of_fst {α β : Type} {pair : α × β} {value : α} (same : pair.1 = value) :
    pair = (value, pair.2) := by
  rw [← same]

theorem mixedGraph_instantiated :
    mgGraphInstantiate mixedGraph (some ⟨some 7⟩) mixedEnv =
      (.ok mixedExec, (mgGraphInstantiate mixedGraph (some ⟨some 7⟩) mixedEnv).2) :=
  eq_pair_of_fst (by decide +kernel)

theorem mixedOff_set :
    mgGraphExecSetOptimizationFlags 0 ⟨mixedExec, mixedEnv⟩ = (.ok (), mixedOff) :=
  eq_pair_of_fst (by decide +kernel)

theorem mixedOff_launched : onSeven mixedOff = (.ok mixedLaunch, (onSeven mixedOff).2) :=
  eq_pair_of_fst (by decide +kernel)

/-- The launch with the flag off shows that it is off. -/
theorem diagnostics_describe_mixed : Describes mixedExec mixedOff.object
    ((onSeven mixedOff).2.env.trace.drop mixedOff.env.trace.length)
    ⟨32, true, false, 1, 0, 1, .disabled⟩ := by
  have ran : ExecPatch.run (.optimizationFlags 0) ⟨mixedExec, mixedEnv⟩ = (.ok (), mixedOff) :=
    mixedOff_set
  have shown : mgGraphExecGetDiagnostics (onSeven mixedOff).2.object 32 =
      .ok ⟨32, true, false, 1, 0, 1, .disabled⟩ := by
    decide +kernel
  have disabled : icbEnabled mixedOff.object.icb = false := by decide +kernel
  exact (diagnostics_describe_iff mixedGraph_instantiated (Session.start.patched ran)
    mixedOff_launched shown).mpr (.inr (.inl disabled))

/-- After a launch with the flag off, a launch with the flag on still shows that reason, and
not why the plan falls back. -/
theorem launch_forgets_reason :
    (grantAll.run mixedCalls).world.graphs.get? 0 = some mixedGraph ∧
    (mgGraphInstantiate mixedGraph (some ⟨some 7⟩) mixedEnv).1 = .ok mixedExec ∧
    (mgGraphExecSetOptimizationFlags 0 ⟨mixedExec, mixedEnv⟩).1 = .ok () ∧
    (onSeven mixedOff).1 = .ok mixedLaunch ∧
    (mgLaunchSynchronize ⟨⟨mixedLaunch, some (onSeven mixedOff).2.object⟩,
      (onSeven mixedOff).2.env⟩).1 = .ok () ∧
    mixedIdle.object.exec = some disabledExec ∧
    (mgGraphExecSetOptimizationFlags mgOptimizationIcb ⟨disabledExec, mixedIdle.env⟩).1 = .ok () ∧
    (onSeven mixedOn).1.toOption.isSome = true ∧
    mgGraphExecGetDiagnostics (onSeven mixedOn).2.object 32 =
      .ok ⟨32, true, true, 1, 0, 1, .disabled⟩ ∧
    ¬ Describes mixedExec mixedOn.object
      ((onSeven mixedOn).2.env.trace.drop mixedOn.env.trace.length)
      ⟨32, true, true, 1, 0, 1, .disabled⟩ := by
  refine ⟨?_, ?_, ?_, ?_, ?_, ?_, ?_, ?_, ?_, fun describes => ?_⟩
  rotate_right
  · have stays : ¬ ExecutesIcb _ := fun executed => describes.used.mpr executed rfl
    have enabled : icbEnabled mixedOn.object.icb = true := by decide +kernel
    have kept := describes.fellBack enabled stays
    cases kept
  all_goals decide +kernel

end MetalGraph
