import MetalGraph.Proofs.LaunchEvents

set_option autoImplicit false

/- The counter of a plan against the history of its launches. -/
namespace MetalGraph

open Eff

/-! ### Launches in a history -/

/-- The plan and the handle of a launch that this call returned. -/
def Entry.opens (entry : Entry) : Option (ExecPtr × LaunchPtr) :=
  match entry.call, entry.result with
  | .graphLaunch (some exec) _, .ok (.launch launch) => some (exec, launch)
  | _, _ => none

/-- Answers of a synchronization that has waited for the launch. -/
def Completed {α : Type} (result : Except Fault α) : Prop :=
  statusOf result = some .ok ∨ statusOf result = some .backendError

instance {α : Type} (result : Except Fault α) : Decidable (Completed result) :=
  inferInstanceAs (Decidable (_ ∨ _))

/-- The launch that this call has waited for. -/
def Entry.completes (entry : Entry) : Option LaunchPtr :=
  match entry.call with
  | .launchSynchronize launch => if Completed entry.result then launch else none
  | _ => none

/-- One more entry of the history: launches open, and some close. -/
def openStep (closes : Entry → Option LaunchPtr) (pairs : List (ExecPtr × LaunchPtr))
    (entry : Entry) : List (ExecPtr × LaunchPtr) :=
  (pairs ++ entry.opens.toList).filter fun pair => closes entry ≠ some pair.2

/-- The returned launches that no entry of the history has closed. -/
def openLaunches (closes : Entry → Option LaunchPtr) (log : List Entry) :
    List (ExecPtr × LaunchPtr) :=
  log.foldl (openStep closes) []

/-- The returned launches that have not been waited for. -/
def outstanding (log : List Entry) : List (ExecPtr × LaunchPtr) :=
  openLaunches Entry.completes log

def inFlight (log : List Entry) (exec : ExecPtr) : Nat :=
  (outstanding log).countP fun pair => pair.1 == exec

theorem outstanding_append_singleton (log : List Entry) (entry : Entry) :
    outstanding (log ++ [entry]) = openStep Entry.completes (outstanding log) entry := by
  simp only [outstanding, openLaunches, List.foldl_append, List.foldl_cons, List.foldl_nil]

section Step

variable {pairs : List (ExecPtr × LaunchPtr)} {entry : Entry}

theorem openStep_of_other (opens : entry.opens = none) (completes : entry.completes = none) :
    openStep Entry.completes pairs entry = pairs := by
  simp [openStep, opens, completes]

theorem openStep_of_opens {pair : ExecPtr × LaunchPtr} (opens : entry.opens = some pair)
    (completes : entry.completes = none) :
    openStep Entry.completes pairs entry = pairs ++ [pair] := by
  simp [openStep, opens, completes]

theorem openStep_of_completes {launch : LaunchPtr} (opens : entry.opens = none)
    (completes : entry.completes = some launch) :
    openStep Entry.completes pairs entry = pairs.filter fun pair => pair.2 ≠ launch := by
  simp [openStep, opens, completes, eq_comm]

end Step

/-! ### One synchronization -/

/-- What a synchronization of a live launch does to the tables. -/
inductive SyncOutcome (world : World) (address : LaunchPtr) (launch : MgLaunch)
    (pointer : ExecPtr) (result : Except Fault Unit) (after : World) : Prop
  | unfinished (stopped : ¬ Completed result)
      (why : launch.impls = [] ∨ launch.completed = false ∧ world.execs.get? pointer = none)
      (execs : ∀ exec, after.execs.get? exec = world.execs.get? exec)
      (launches : ∀ other, after.launches.get? other = world.launches.get? other)
  | again (done : Completed result) (completed : launch.completed = true)
      (waited : after.env = world.env.waited launch.impls)
      (execs : ∀ exec, after.execs.get? exec = world.execs.get? exec)
      (launches : ∀ other, after.launches.get? other = world.launches.get? other)
  | first {before : MgGraphExec} (filled : launch.impls ≠ [])
      (answer : result = if launch.impls.any world.env.commandBufferFails then
          .error (mgSetError .backendError .complete mgNodeIdInvalid "Metal command buffer failed")
        else .ok ())
      (pending : launch.completed = false)
      (waited : after.env = world.env.waited launch.impls)
      (alive : world.execs.get? pointer = some before)
      (execs : ∀ exec, after.execs.get? exec =
        if exec = pointer then some before.finishLaunch else world.execs.get? exec)
      (launches : ∀ other, after.launches.get? other =
        if other = address then some { launch with completed := true }
        else world.launches.get? other)

theorem completed_answer (failed : Bool) : Completed (if failed then
    .error (mgSetError .backendError .complete mgNodeIdInvalid "Metal command buffer failed")
    else .ok () : Except Fault Unit) := by
  cases failed
  · exact .inl rfl
  · exact .inr rfl

@[simp] theorem completed_map {α β : Type} (change : α → β) (result : Except Fault α) :
    Completed (result.map change) ↔ Completed result := by
  rcases result with (_ | _) | _ <;> rfl

@[simp] theorem putLaunch_execs_size (world : World) (address : LaunchPtr) (object : LaunchOf) :
    (world.putLaunch address object).execs.size = world.execs.size := by
  unfold World.putLaunch
  split <;> simp

@[simp] theorem putLaunch_launches_size (world : World) (address : LaunchPtr)
    (object : LaunchOf) : (world.putLaunch address object).launches.size = world.launches.size :=
  Slots.size_put _ _ _

/-- Writing back what was read changes no entry. -/
theorem get?_put_same {τ : Type} {table : Slots τ} {index : Nat} {value : τ}
    (present : table.get? index = some value) (other : Nat) :
    (table.put index value).get? other = table.get? other := by
  rw [Slots.get?_put present]
  split
  · rename_i here
    rw [here, present]
  · rfl

section Outcome

variable {world : World} {address : LaunchPtr} {launch : MgLaunch} {pointer : ExecPtr}

theorem execOf_named (named : launch.exec = some pointer) :
    world.execOf launch = world.execs.get? pointer := by
  simp only [World.execOf, named, Option.bind_some]

/-- A synchronization that leaves its object alone leaves the tables alone. -/
theorem putLaunch_same (env : Env) (live : world.launches.get? address = some launch)
    (named : launch.exec = some pointer) :
    (∀ exec, (World.putLaunch { world with env := env } address
        ⟨launch, world.execOf launch⟩).execs.get? exec = world.execs.get? exec) ∧
      ∀ other, (World.putLaunch { world with env := env } address
        ⟨launch, world.execOf launch⟩).launches.get? other = world.launches.get? other := by
  refine ⟨fun exec => ?_, get?_put_same live⟩
  rw [execOf_named named]
  rcases present : world.execs.get? pointer with _ | before <;>
    simp only [World.putLaunch, named]
  exact get?_put_same present exec

theorem mgLaunchSynchronize_outcome {result : Except Fault Unit} {focus : Focus LaunchOf}
    (live : world.launches.get? address = some launch) (named : launch.exec = some pointer)
    (ran : mgLaunchSynchronize ⟨⟨launch, world.execOf launch⟩, world.env⟩ = (result, focus)) :
    SyncOutcome world address launch pointer result
      (World.putLaunch { world with env := focus.env } address focus.object) := by
  have step := mgLaunchSynchronize_step ⟨launch, world.execOf launch⟩ world.env
  rw [ran] at step
  cases step with
  | idle nothing =>
      obtain ⟨execs, launches⟩ := putLaunch_same world.env live named
      exact .unfinished (by decide) (.inl nothing) execs launches
  | orphaned filled pending _ freed =>
      obtain ⟨execs, launches⟩ := putLaunch_same (world.env.waited launch.impls) live named
      exact .unfinished (by decide) (.inr ⟨pending, (execOf_named named).symm.trans freed⟩)
        execs launches
  | again filled done =>
      obtain ⟨execs, launches⟩ := putLaunch_same (world.env.waited launch.impls) live named
      exact .again (completed_answer _) done rfl execs launches
  | first filled pending alive =>
      have alive := alive (by simp [named])
      rw [execOf_named named] at alive
      obtain ⟨before, present⟩ := Option.isSome_iff_exists.mp alive
      change world.execs.get? pointer = some before at present
      refine .first filled rfl pending rfl present (fun exec => ?_) fun other => ?_
      · simp only [World.putLaunch, named, Option.isSome_some, ↓reduceIte, execOf_named named]
        rw [present]
        exact Slots.get?_put present _ exec
      · exact Slots.get?_put live _ other

end Outcome

/-! ### The accounts of a run -/

/-- The launches that a history leaves outstanding are the live ones nobody has waited
for, and some that were destroyed. -/
structure Accounts (pairs : List (ExecPtr × LaunchPtr)) (world : World) : Prop where
  distinct : (pairs.map Prod.snd).Nodup
  known : ∀ pair ∈ pairs, pair.1 < world.execs.size ∧ pair.2 < world.launches.size
  owned : ∀ address launch, world.launches.get? address = some launch →
    ∃ exec, launch.exec = some exec ∧ exec < world.execs.size ∧
      (launch.completed = false → (exec, address) ∈ pairs)
  pending : ∀ address launch, world.launches.get? address = some launch →
    ∀ exec, (exec, address) ∈ pairs → launch.completed = false ∧ launch.exec = some exec

theorem accounts_start (world : World) (nothing : world.launches = .empty) : Accounts [] world where
  distinct := .nil
  known := by simp
  owned := by simp [nothing]
  pending := by simp

section Accounts

variable {pairs : List (ExecPtr × LaunchPtr)} {world world' : World}

/-- Calls on other objects may destroy plans and launches, and make plans. -/
theorem Accounts.mono (accounts : Accounts pairs world)
    (execs : world.execs.size ≤ world'.execs.size)
    (launches : world.launches.size ≤ world'.launches.size)
    (kept : ∀ address launch, world'.launches.get? address = some launch →
      world.launches.get? address = some launch) : Accounts pairs world' where
  distinct := accounts.distinct
  known := fun pair member =>
    ⟨(accounts.known pair member).1.trans_le execs,
      (accounts.known pair member).2.trans_le launches⟩
  owned := by
    intro address launch live
    obtain ⟨exec, named, below, listed⟩ := accounts.owned address launch (kept _ _ live)
    exact ⟨exec, named, below.trans_le execs, listed⟩
  pending := fun address launch live => accounts.pending address launch (kept _ _ live)

theorem Accounts.opened (accounts : Accounts pairs world) {exec : ExecPtr} {launch : MgLaunch}
    {env : Env} {execs : Slots MgGraphExec} (below : exec < world.execs.size)
    (size : execs.size = world.execs.size) (named : launch.exec = some exec)
    (fresh : launch.completed = false) :
    Accounts (pairs ++ [(exec, world.launches.size)])
      { world with env := env, execs := execs, launches := world.launches.push launch } where
  distinct := by
    rw [List.map_append, List.nodup_append]
    refine ⟨accounts.distinct, by simp, ?_⟩
    rintro handle old _ new rfl
    obtain ⟨pair, member, rfl⟩ := List.mem_map.mp old
    have same : pair.2 = world.launches.size := by simpa using new
    exact absurd (accounts.known pair member).2 (same ▸ lt_irrefl _)
  known := by
    intro pair member
    rcases List.mem_append.mp member with old | new
    · obtain ⟨inside, inside'⟩ := accounts.known pair old
      exact ⟨by simpa [size] using inside, by simpa using Nat.lt_succ_of_lt inside'⟩
    · cases List.mem_singleton.mp new
      exact ⟨by simpa [size] using below, by simp⟩
  owned := by
    intro address stored live
    rw [Slots.get?_push] at live
    split at live
    · rename_i here
      cases live
      exact ⟨exec, named, by simpa [size] using below, fun _ => by simp [here]⟩
    · obtain ⟨owner, same, inside, listed⟩ := accounts.owned address stored live
      exact ⟨owner, same, by simpa [size] using inside,
        fun idle => List.mem_append_left _ (listed idle)⟩
  pending := by
    intro address stored live owner member
    rw [Slots.get?_push] at live
    split at live
    · rename_i here
      cases live
      rcases List.mem_append.mp member with old | new
      · exact absurd (accounts.known _ old).2 (here ▸ lt_irrefl _)
      · cases List.mem_singleton.mp new
        exact ⟨fresh, named⟩
    · rename_i other
      rcases List.mem_append.mp member with old | new
      · exact accounts.pending address stored live owner old
      · cases List.mem_singleton.mp new
        exact absurd rfl other

theorem Accounts.closed (accounts : Accounts pairs world) {address : LaunchPtr} {launch : MgLaunch}
    (live : world.launches.get? address = some launch)
    (execs : world.execs.size ≤ world'.execs.size)
    (size : world.launches.size ≤ world'.launches.size)
    (launches : ∀ other, world'.launches.get? other =
      if other = address then some { launch with completed := true }
      else world.launches.get? other) :
    Accounts (pairs.filter fun pair => pair.2 ≠ address) world' where
  distinct := accounts.distinct.sublist (List.filter_sublist.map Prod.snd)
  known := by
    intro pair member
    obtain ⟨inside, inside'⟩ := accounts.known pair (List.mem_filter.mp member).1
    exact ⟨inside.trans_le execs, inside'.trans_le size⟩
  owned := by
    intro other stored live'
    rw [launches] at live'
    split at live'
    · cases live'
      obtain ⟨exec, named, below, _⟩ := accounts.owned address launch live
      exact ⟨exec, named, below.trans_le execs, fun open_ => by cases open_⟩
    · rename_i different
      obtain ⟨exec, named, below, listed⟩ := accounts.owned other stored live'
      exact ⟨exec, named, below.trans_le execs, fun pending =>
        List.mem_filter.mpr ⟨listed pending, by simpa using different⟩⟩
  pending := by
    intro other stored live' exec member
    obtain ⟨old, different⟩ := List.mem_filter.mp member
    rw [launches, if_neg (by simpa using different)] at live'
    exact accounts.pending other stored live' exec old

end Accounts

/-- Nothing is left to close of a launch that has been waited for. -/
theorem Accounts.filter_completed {pairs : List (ExecPtr × LaunchPtr)} {world : World}
    (accounts : Accounts pairs world) {address : LaunchPtr} {launch : MgLaunch}
    (live : world.launches.get? address = some launch) (completed : launch.completed = true) :
    pairs.filter (fun pair => pair.2 ≠ address) = pairs := by
  refine List.filter_eq_self.mpr fun pair member => decide_eq_true ?_
  rintro rfl
  rw [(accounts.pending pair.2 launch live pair.1 member).1] at completed
  cases completed

/-! ### One call -/

theorem completes_of_finished {address : LaunchPtr} {result : Except Fault Unit}
    (done : Completed result) (events : List MetalEvent) :
    Entry.completes ⟨.launchSynchronize (some address), result.map fun _ => .done, events⟩ =
      some address := by
  simp [Entry.completes, done]

theorem completes_of_unfinished {address : LaunchPtr} {result : Except Fault Unit}
    (stopped : ¬ Completed result) (events : List MetalEvent) :
    Entry.completes ⟨.launchSynchronize (some address), result.map fun _ => .done, events⟩ =
      none := by
  simp [Entry.completes, stopped]

theorem handleAlive_misses {τ : Type} {table : Slots τ} {handle : Option Nat}
    (alive : handleAlive table handle = true) (missed : Misses table handle) : handle = none := by
  cases handle with
  | none => rfl
  | some address => simp [handleAlive, missed address rfl] at alive

section Call

variable {system : System} {pairs : List (ExecPtr × LaunchPtr)} {entry : Entry} {world' : World}

/-- A permitted call without an object opens and closes nothing. -/
theorem openStep_of_missed (permitted : system.permits entry.call = true)
    (missed : entry.call.misses system.world)
    (answer : entry.result = .ok .done ∨ ∃ reason, entry.result = .error reason) :
    openStep Entry.completes pairs entry = pairs := by
  obtain ⟨call, result, events⟩ := entry
  refine openStep_of_other ?_ ?_
  · rcases answer with rfl | ⟨reason, rfl⟩ <;> unfold Entry.opens <;> dsimp only <;> split <;>
      simp_all
  · cases call with
    | launchSynchronize launch =>
        cases handleAlive_misses permitted missed
        simp [Entry.completes]
    | _ => rfl

theorem Accounts.step (reachable : Reachable system) (accounts : Accounts pairs system.world)
    (permitted : system.permits entry.call = true)
    (step : CallStep system.world entry.call entry.result world') :
    Accounts (openStep Entry.completes pairs entry) world' := by
  obtain ⟨call, result, events⟩ := entry
  dsimp only at permitted step
  cases step with
  | refused reason missed =>
      rw [openStep_of_missed permitted missed (.inr ⟨reason, rfl⟩)]
      exact accounts
  | nothing missed =>
      rw [openStep_of_missed permitted missed (.inl rfl)]
      exact accounts
  | counted | graphCreate | graphNotCreated | graphDestroy | graphEdit | graphValidate
  | graphInstantiate | graphNotInstantiated | execDestroy | execPatch =>
      rw [openStep_of_other rfl rfl]
      exact accounts.mono (by simp) le_rfl fun _ _ live => live
  | graphNotLaunched =>
      rw [openStep_of_other rfl rfl]
      exact accounts.mono (by simp) le_rfl fun _ _ live => live
  | launchDestroy live ran =>
      rw [openStep_of_other rfl rfl]
      refine accounts.mono le_rfl (by simp) fun address launch live => ?_
      rw [Slots.get?_free] at live
      split at live
      · cases live
      · exact live
  | graphLaunch live ran =>
      rw [openStep_of_opens rfl rfl]
      exact accounts.opened (Slots.lt_size_of_get? live) (by simp) (mgGraphLaunch_ok ran).2.2
        (mgGraphLaunch_pending (reachable.execWf live) (reachable.supports _ _ live) ran)
  | @launchSynchronize address launch result focus live ran =>
      obtain ⟨pointer, named, _⟩ := accounts.owned address launch live
      cases mgLaunchSynchronize_outcome live named ran with
      | unfinished stopped _ execs launches =>
          rw [openStep_of_other rfl (completes_of_unfinished stopped events)]
          exact accounts.mono (by simp) (by simp) fun _ _ live => (launches _).symm.trans live
      | again done completed _ execs launches =>
          rw [openStep_of_completes rfl (completes_of_finished done events),
            accounts.filter_completed live completed]
          exact accounts.mono (by simp) (by simp) fun _ _ live => (launches _).symm.trans live
      | first filled answer pending waited alive execs launches =>
          rw [openStep_of_completes rfl
            (completes_of_finished (answer ▸ completed_answer _) events)]
          exact accounts.closed live (by simp) (by simp) launches

/-- The counter of a plan against the open launches. -/
def Counts (pairs : List (ExecPtr × LaunchPtr)) (world : World) (address : ExecPtr) : Prop :=
  ∀ exec, world.execs.get? address = some exec →
    exec.inFlightCount.toNat = pairs.countP fun pair => pair.1 == address

theorem Counts.of_same {address : ExecPtr} {world : World} (counts : Counts pairs world address)
    (same : ∀ exec, world'.execs.get? address = some exec →
      ∃ before, world.execs.get? address = some before ∧
        exec.inFlightCount = before.inFlightCount) : Counts pairs world' address := by
  intro exec live
  obtain ⟨before, present, equal⟩ := same exec live
  rw [equal]
  exact counts before present

theorem Launches.counted {exec object : MgGraphExec} {more : UInt32}
    (launches : Launches exec more object) :
    object.inFlightCount = exec.inFlightCount + more := by
  obtain ⟨icb, _, rfl⟩ := launches
  rfl

theorem PatchStep.counted {exec : MgGraphExec} {env : Env} {patch : ExecPatch}
    {reached : Focus MgGraphExec} (step : PatchStep exec env patch reached) :
    reached.object.inFlightCount = exec.inFlightCount := by
  cases step <;> rfl

theorem finishLaunch_counted {exec : MgGraphExec} (running : exec.inFlightCount ≠ 0) :
    exec.finishLaunch.inFlightCount.toNat + 1 = exec.inFlightCount.toNat := by
  have positive : 0 < exec.inFlightCount.toNat :=
    Nat.pos_of_ne_zero fun zero => running (UInt32.toNat_inj.mp zero)
  have more : exec.inFlightCount > 0 := UInt32.lt_iff_toNat_lt.mpr positive
  simp only [MgGraphExec.finishLaunch, more, ↓reduceIte]
  have one : (1 : UInt32).toNat = 1 := rfl
  rw [UInt32.toNat_sub_of_le _ _ (UInt32.le_iff_toNat_le.mpr (by omega))]
  omega

/-- Replacing one plan, and perhaps the pairs, in agreement. -/
theorem Counts.replaced {address pointer : ExecPtr} {world : World} {after : MgGraphExec}
    {pairs' : List (ExecPtr × LaunchPtr)} (counts : Counts pairs world address)
    (execs : ∀ exec, world'.execs.get? exec =
      if exec = pointer then some after else world.execs.get? exec)
    (here : pointer = address →
      after.inFlightCount.toNat = pairs'.countP fun pair => pair.1 == address)
    (elsewhere : pointer ≠ address → (pairs'.countP fun pair => pair.1 == address) =
      pairs.countP fun pair => pair.1 == address) : Counts pairs' world' address := by
  intro exec live
  rw [execs] at live
  split at live
  · rename_i same
    cases live
    exact here same.symm
  · rename_i other
    rw [elsewhere (Ne.symm other)]
    exact counts exec live

/-- A plan made by a call has no launches. -/
theorem Counts.made {address : ExecPtr} {world : World} {made : MgGraphExec}
    (accounts : Accounts pairs world) (counts : Counts pairs world address)
    (execs : world'.execs = world.execs.push made) (idle : made.inFlightCount = 0) :
    Counts pairs world' address := by
  refine counts.replaced (fun exec => by rw [execs]; exact Slots.get?_push _ _ _)
    (fun fresh => ?_) fun _ => rfl
  rw [idle, eq_comm, UInt32.toNat_zero, List.countP_eq_zero]
  intro pair member same
  have inside := (accounts.known pair member).1
  rw [beq_iff_eq.mp same, ← fresh] at inside
  exact lt_irrefl _ inside

theorem Counts.launched {address pointer : ExecPtr} {handle : LaunchPtr} {world : World}
    {before after : MgGraphExec} (counts : Counts pairs world address)
    (present : world.execs.get? pointer = some before)
    (execs : world'.execs = world.execs.put pointer after)
    (more : after.inFlightCount = before.inFlightCount + 1)
    (few : (pairs ++ [(pointer, handle)]).countP (fun pair => pair.1 == address) < 2 ^ 32) :
    Counts (pairs ++ [(pointer, handle)]) world' address := by
  simp only [List.countP_append, List.countP_singleton] at few
  refine counts.replaced (fun exec => by rw [execs]; exact Slots.get?_put present _ _)
    (fun here => ?_) fun other => ?_
  · subst here
    have count := counts _ present
    have one : (1 : UInt32).toNat = 1 := rfl
    simp only [BEq.rfl, ↓reduceIte] at few
    simp only [List.countP_append, List.countP_singleton, BEq.rfl, ↓reduceIte]
    rw [more, UInt32.toNat_add, count, one, Nat.mod_eq_of_lt few]
  · simp [other]

/-- The first wait for a launch takes its pair and one of the counter. -/
theorem Counts.finished {address pointer : ExecPtr} {handle : LaunchPtr} {world : World}
    {before : MgGraphExec} (accounts : Accounts pairs world) (counts : Counts pairs world address)
    (listed : (pointer, handle) ∈ pairs) (alive : world.execs.get? pointer = some before)
    (execs : ∀ exec, world'.execs.get? exec =
      if exec = pointer then some before.finishLaunch else world.execs.get? exec) :
    Counts (pairs.filter fun pair => pair.2 ≠ handle) world' address := by
  have dropped := countP_drop_key accounts.distinct listed fun pair => pair.1 == address
  refine counts.replaced execs (fun here => ?_) fun other => ?_
  · subst here
    have count := counts before alive
    simp only [BEq.rfl, ↓reduceIte] at dropped
    have running : before.inFlightCount ≠ 0 := by
      intro zero
      rw [zero, UInt32.toNat_zero] at count
      omega
    have less := finishLaunch_counted running
    omega
  · rw [if_neg (by simpa using other), Nat.add_zero] at dropped
    exact dropped

theorem Counts.step {address : ExecPtr} (reachable : Reachable system)
    (accounts : Accounts pairs system.world) (counts : Counts pairs system.world address)
    (permitted : system.permits entry.call = true)
    (step : CallStep system.world entry.call entry.result world')
    (few : (openStep Entry.completes pairs entry).countP (fun pair => pair.1 == address) <
      2 ^ 32) : Counts (openStep Entry.completes pairs entry) world' address := by
  obtain ⟨call, result, events⟩ := entry
  dsimp only at permitted step
  cases step with
  | refused reason missed =>
      rw [openStep_of_missed permitted missed (.inr ⟨reason, rfl⟩)]
      exact counts
  | nothing missed =>
      rw [openStep_of_missed permitted missed (.inl rfl)]
      exact counts
  | counted | graphCreate | graphNotCreated | graphDestroy | graphEdit | graphValidate
  | graphNotInstantiated | launchDestroy =>
      rw [openStep_of_other rfl rfl]
      exact counts
  | graphInstantiate present ran =>
      obtain ⟨order, made⟩ := mgGraphInstantiate_ok (reachable.graphsWf _ _ present) ran
      rw [openStep_of_other rfl rfl]
      exact counts.made accounts rfl made.idle
  | execDestroy present ran =>
      rw [openStep_of_other rfl rfl]
      apply counts.of_same
      intro exec live
      rw [Slots.get?_free] at live
      split at live
      · cases live
      · exact ⟨exec, live, rfl⟩
  | execPatch present ran =>
      rw [openStep_of_other rfl rfl]
      refine counts.replaced (Slots.get?_put present _) (fun here => ?_) fun _ => rfl
      rcases ExecPatch.run_cases ran with ⟨_, stepped⟩ | unchanged
      · rw [stepped.counted]
        exact counts _ (here ▸ present)
      · rw [unchanged]
        exact counts _ (here ▸ present)
  | graphNotLaunched present ran =>
      rw [openStep_of_other rfl rfl]
      refine counts.replaced (Slots.get?_put present _) (fun here => ?_) fun _ => rfl
      have launches := mgGraphLaunch_launches.error (Launches.refl _) ran
      rw [Launches.counted launches, UInt32.add_zero]
      exact counts _ (here ▸ present)
  | graphLaunch present ran =>
      rw [openStep_of_opens rfl rfl] at few ⊢
      have launches := mgGraphLaunch_launches.ok (Launches.refl _) ran
      exact counts.launched present rfl (Launches.counted launches) few
  | @launchSynchronize handle launch result focus live ran =>
      obtain ⟨pointer, named, _, listed⟩ := accounts.owned handle launch live
      cases mgLaunchSynchronize_outcome live named ran with
      | unfinished stopped _ execs launches =>
          rw [openStep_of_other rfl (completes_of_unfinished stopped events)]
          exact counts.of_same fun exec live => ⟨exec, (execs _).symm.trans live, rfl⟩
      | again done completed _ execs launches =>
          rw [openStep_of_completes rfl (completes_of_finished done events),
            accounts.filter_completed live completed]
          exact counts.of_same fun exec live => ⟨exec, (execs _).symm.trans live, rfl⟩
      | @first before filled answer pending waited alive execs launches =>
          rw [openStep_of_completes rfl
            (completes_of_finished (answer ▸ completed_answer _) events)]
          exact counts.finished accounts (listed pending) alive execs

end Call

/-! ### Runs -/

/-- A call and its entry in the history. -/
theorem System.step_recorded (system : System) (call : Call) :
    CallStep system.world (system.record call).call (system.record call).result
      (system.step call).world := call.eval_step system.world

theorem System.step_log (system : System) (call : Call) :
    (system.step call).log = system.log ++ [system.record call] := rfl

theorem Reachable.accounts {system : System} (reachable : Reachable system) :
    Accounts (outstanding system.log) system.world := by
  induction reachable with
  | start => exact accounts_start _ rfl
  | @step system call earlier permitted accounts =>
      rw [System.step_log, outstanding_append_singleton]
      exact accounts.step earlier permitted (system.step_recorded call)

/-- At no time were there as many open launches of the plan as a counter can count. -/
def FewLaunches (log : List Entry) (exec : ExecPtr) : Prop :=
  ∀ earlier, earlier <+: log → inFlight earlier exec < 2 ^ 32

theorem Reachable.counts {system : System} {address : ExecPtr} (reachable : Reachable system)
    (few : FewLaunches system.log address) :
    Counts (outstanding system.log) system.world address := by
  induction reachable with
  | start =>
      intro exec live
      simp [System.initial, World.initial] at live
  | @step system call earlier permitted counts =>
      have bound := few _ List.prefix_rfl
      rw [System.step_log, inFlight, outstanding_append_singleton] at bound
      rw [System.step_log, outstanding_append_singleton]
      refine (counts fun log before => few log ?_).step earlier earlier.accounts permitted
        (system.step_recorded call) bound
      exact before.trans (List.prefix_append _ _)

/-- The counter of a plan is the number of its launches that nobody has waited for, and
patches are refused while there are any. -/
theorem in_flight_count_eq {system : System} {address : ExecPtr} {exec : MgGraphExec}
    (reachable : Reachable system) (few : FewLaunches system.log address)
    (live : system.world.execs.get? address = some exec) :
    exec.inFlightCount.toNat = inFlight system.log address ∧
      ((∃ reached, mgPatchReady ⟨exec, system.world.env⟩ = (.ok (), reached)) ↔
        inFlight system.log address = 0) := by
  have count := reachable.counts few exec live
  refine ⟨count, ?_⟩
  rw [inFlight, ← count]
  constructor
  · rintro ⟨reached, ready⟩
    have idle : exec.inFlightCount = 0 := (mgPatchReady_ok.mp ready).1
    rw [idle, UInt32.toNat_zero]
  · intro zero
    exact ⟨_, mgPatchReady_ok.mpr ⟨UInt32.toNat_inj.mp zero, rfl⟩⟩

theorem openStep_length_le (closes : Entry → Option LaunchPtr)
    (pairs : List (ExecPtr × LaunchPtr)) (entry : Entry) :
    (openStep closes pairs entry).length ≤ pairs.length + 1 := by
  apply (List.length_filter_le _ _).trans
  rw [List.length_append]
  cases entry.opens <;> simp

theorem inFlight_le_length (log : List Entry) (exec : ExecPtr) :
    inFlight log exec ≤ log.length := by
  apply List.countP_le_length.trans
  induction log using List.reverseRecOn with
  | nil => exact le_rfl
  | append_singleton log entry ih =>
      rw [outstanding_append_singleton, List.length_append, List.length_singleton]
      exact (openStep_length_le _ _ _).trans (Nat.add_le_add_right ih 1)

theorem fewLaunches_of_short {log : List Entry} (short : log.length < 2 ^ 32) (exec : ExecPtr) :
    FewLaunches log exec := fun earlier before =>
  (inFlight_le_length earlier exec).trans_lt (before.length_le.trans_lt short)

/-! A launch that is destroyed before anything has waited for it. -/

def launchedCalls : List Call := mixedCalls ++ [launchMixed]

theorem launched_reachable : Reachable (grantAll.run launchedCalls) :=
  (Reachable.start _ _ _).run (by decide +kernel)

theorem launched_live : (grantAll.run launchedCalls).world.execs.get? 0 =
    some { mixedExec with inFlightCount := 1 } := by decide +kernel

theorem in_flight_count_of_launched :
    (1 : UInt32).toNat = inFlight (grantAll.run launchedCalls).log 0 :=
  (in_flight_count_eq launched_reachable (fewLaunches_of_short (by decide +kernel) 0)
    launched_live).1

/-- The launch that this call has waited for or destroyed. -/
def Entry.settles (entry : Entry) : Option LaunchPtr :=
  match entry.call with
  | .launchDestroy launch => if statusOf entry.result = some .ok then launch else none
  | _ => entry.completes

def destroyedCalls : List Call := launchedCalls ++ [.launchDestroy (some 0)]

theorem destroyed_reachable : Reachable (grantAll.run destroyedCalls) :=
  (Reachable.start _ _ _).run (by decide +kernel)

theorem destroyed_live : (grantAll.run destroyedCalls).world.execs.get? 0 =
    some { mixedExec with inFlightCount := 1 } := by decide +kernel

/-- Destroying a launch does not take it out of the counter. -/
theorem destroyed_launch_counts :
    ¬ ∀ system address exec, Reachable system → system.world.execs.get? address = some exec →
      exec.inFlightCount.toNat =
        (openLaunches Entry.settles system.log).countP fun pair => pair.1 == address := by
  intro counts
  have counted := counts _ 0 _ destroyed_reachable destroyed_live
  revert counted
  decide +kernel

end MetalGraph
