import MetalGraph.Model.Queues
import MetalGraph.Proofs.Meaning

set_option autoImplicit false

/- One queue of the device at its own pace: whatever it has run so far, the rest leads to
the same memory, and waiting for the last command buffer leaves nothing to run. -/
namespace MetalGraph

/-- The device has nothing to run, and no command buffer is being filled. -/
def Gpu.Idle (gpu : Gpu) : Prop := gpu.pending = [] ∧ gpu.encoding = []

/-- The command buffers that are pending, in the order of their commits. -/
def Gpu.waiting (gpu : Gpu) : List Nat := gpu.pending.map Submission.commandBuffer

/-- All that is pending is on one queue, none of it fails, and running it leads to `target`. -/
structure Draining (programs : Programs) (fails : Nat → Bool) (queue next : Nat)
    (target : Memory) (gpu : Gpu) : Prop where
  encoded : gpu.encoding = []
  queued : ∀ submission ∈ gpu.pending, submission.queue = some queue
  sound : ∀ submission ∈ gpu.pending, fails submission.commandBuffer = false
  below : ∀ submission ∈ gpu.pending, submission.commandBuffer < next
  distinct : gpu.waiting.Nodup
  reaches : programs.run (gpu.pending.flatMap Submission.commands) gpu.memory = target

section Draining

variable {programs : Programs} {fails : Nat → Bool} {queue next : Nat} {target : Memory}
  {gpu : Gpu}

theorem Gpu.Idle.draining (idle : gpu.Idle) :
    Draining programs fails queue next gpu.memory gpu := by
  obtain ⟨pending, encoding⟩ := idle
  refine ⟨encoding, ?_, ?_, ?_, ?_, ?_⟩ <;> simp [pending, Gpu.waiting, Programs.run]

/-- What is left to run once some submissions are done. -/
theorem Draining.left (draining : Draining programs fails queue next target gpu)
    {done left : List Submission} (split : gpu.pending = done ++ left) :
    Draining programs fails queue next target { gpu with
      pending := left
      memory := programs.run (done.flatMap Submission.commands) gpu.memory } where
  encoded := draining.encoded
  queued := fun submission member => draining.queued submission (by simp [split, member])
  sound := fun submission member => draining.sound submission (by simp [split, member])
  below := fun submission member => draining.below submission (by simp [split, member])
  distinct := by
    have distinct := draining.distinct
    rw [Gpu.waiting, split, List.map_append] at distinct
    exact (List.nodup_append.mp distinct).2.1
  reaches := by
    have reaches := draining.reaches
    rw [split, List.flatMap_append, Programs.run_append] at reaches
    exact reaches

/-- A step of a queue that has nothing pending. -/
theorem runNext_away {pending : List Submission} {on : Option Nat}
    (away : ∀ submission ∈ pending, submission.queue ≠ on) (memory : Memory) :
    runNext programs on pending memory = (pending, memory) := by
  induction pending with
  | nil => rfl
  | cons first rest ih =>
      rw [runNext, if_neg (away first (by simp)),
        ih fun submission member => away submission (by simp [member])]

/-- The first command of the first submission has been run. -/
theorem Draining.advanced (draining : Draining programs fails queue next target gpu)
    {first : Submission} {rest : List Submission} (pending : gpu.pending = first :: rest)
    {command : Command} {later : List Command} (listed : first.commands = command :: later) :
    Draining programs fails queue next target { gpu with
      pending := { first with commands := later } :: rest
      memory := programs.command command gpu.memory } := by
  have kept {property : Option Nat → Nat → Prop}
      (all : ∀ submission ∈ gpu.pending, property submission.queue submission.commandBuffer) :
      ∀ submission ∈ { first with commands := later } :: rest,
        property submission.queue submission.commandBuffer := by
    rw [pending] at all
    intro submission member
    rcases List.mem_cons.mp member with rfl | other
    · exact all first (by simp)
    · exact all submission (by simp [other])
  have distinct := draining.distinct
  have reaches := draining.reaches
  rw [Gpu.waiting, pending] at distinct
  rw [pending] at reaches
  exact
    { encoded := draining.encoded
      queued := @kept (fun on _ => on = some queue) draining.queued
      sound := @kept (fun _ number => fails number = false) draining.sound
      below := @kept (fun _ number => number < next) draining.below
      distinct := distinct
      reaches := by simpa [listed, Programs.run] using reaches }

/-- A step of the device, on whatever queue. -/
theorem Draining.progress (draining : Draining programs fails queue next target gpu)
    (on : Option Nat) :
    Draining programs fails queue next target (gpu.progress programs on) ∧
      (gpu.progress programs on).waiting <:+ gpu.waiting := by
  by_cases here : on = some queue
  · subst here
    unfold Gpu.progress Gpu.waiting
    rcases pending : gpu.pending with _ | ⟨first, rest⟩
    · have same : { gpu with pending := [], memory := gpu.memory } = gpu := by rw [← pending]
      simpa only [runNext, same, pending, List.suffix_refl, and_true] using draining
    · have queued : first.queue = some queue := draining.queued first (by simp [pending])
      rcases listed : first.commands with _ | ⟨command, later⟩
      · have left := draining.left (show gpu.pending = [first] ++ rest from pending)
        refine ⟨by simpa [runNext, queued, listed, Programs.run] using left, ?_⟩
        simp [runNext, queued, listed]
      · simp only [runNext, queued, listed, ↓reduceIte]
        exact ⟨queued ▸ draining.advanced pending listed, List.suffix_refl _⟩
  · have away : ∀ submission ∈ gpu.pending, submission.queue ≠ on := by
      intro submission member same
      exact here (same.symm.trans (draining.queued submission member))
    have unchanged : gpu.progress programs on = gpu := by
      unfold Gpu.progress
      rw [runNext_away away]
    rw [unchanged]
    exact ⟨draining, List.suffix_refl _⟩

/-- Completing a queue up to a command buffer runs what comes before it, and it. -/
theorem runThrough_split {before after : List Submission} {last : Submission} (memory : Memory)
    (queued : ∀ submission ∈ before ++ [last], submission.queue = some queue)
    (sound : ∀ submission ∈ before ++ [last], fails submission.commandBuffer = false)
    (earlier : ∀ submission ∈ before, submission.commandBuffer ≠ last.commandBuffer) :
    runThrough programs fails (some queue) last.commandBuffer (before ++ last :: after) memory =
      (after, programs.run ((before ++ [last]).flatMap Submission.commands) memory) := by
  induction before generalizing memory with
  | nil =>
      simp [runThrough, queued last (by simp), Submission.complete, sound last (by simp)]
  | cons first rest ih =>
      have rest' {property : Submission → Prop}
          (all : ∀ submission ∈ (first :: rest) ++ [last], property submission) :
          ∀ submission ∈ rest ++ [last], property submission :=
        fun submission member => all submission (List.mem_cons_of_mem first member)
      rw [List.cons_append, runThrough, if_pos (queued first (by simp)),
        if_neg (earlier first (by simp)), ih _ (rest' queued) (rest' sound)
          fun submission member => earlier submission (List.mem_cons_of_mem first member)]
      simp [Submission.complete, sound first (by simp), Programs.run_append]

/-- What a wait leaves of a queue: what comes after the command buffer, if it is pending. -/
theorem Draining.finish (draining : Draining programs fails queue next target gpu)
    (commandBuffer : Nat) :
    Draining programs fails queue next target (gpu.finish programs fails commandBuffer) ∧
      (gpu.finish programs fails commandBuffer).waiting <:+ gpu.waiting ∧
      commandBuffer ∉ (gpu.finish programs fails commandBuffer).waiting := by
  rcases found : gpu.pending.find? (fun submission => submission.commandBuffer == commandBuffer)
    with _ | last
  · have unchanged : gpu.finish programs fails commandBuffer = gpu := by rw [Gpu.finish, found]
    rw [unchanged]
    refine ⟨draining, List.suffix_refl _, ?_⟩
    intro listed
    obtain ⟨submission, member, same⟩ := List.mem_map.mp listed
    simpa [same] using List.find?_eq_none.mp found submission member
  · obtain ⟨here, before, after, split, earlier⟩ := List.find?_eq_some_iff_append.mp found
    have same : last.commandBuffer = commandBuffer := by simpa using here
    subst same
    have split' : gpu.pending = (before ++ [last]) ++ after := by simp [split]
    have inside : ∀ submission ∈ before ++ [last], submission ∈ gpu.pending := by
      intro submission member
      rw [split']
      exact List.mem_append_left after member
    have done := @runThrough_split programs fails queue before after last gpu.memory
      (fun submission member => draining.queued submission (inside submission member))
      (fun submission member => draining.sound submission (inside submission member))
      fun submission member => by simpa using earlier submission member
    have finished : gpu.finish programs fails last.commandBuffer = { gpu with
        pending := after
        memory := programs.run ((before ++ [last]).flatMap Submission.commands) gpu.memory } := by
      rw [Gpu.finish, found]
      simp only [draining.queued last (inside last (by simp)), split, done]
    have distinct := draining.distinct
    rw [Gpu.waiting, split', List.map_append] at distinct
    rw [finished]
    refine ⟨draining.left split', ?_, ?_⟩
    · rw [Gpu.waiting, Gpu.waiting, split', List.map_append]
      exact List.suffix_append _ _
    · intro listed
      have done : last.commandBuffer ∈ (before ++ [last]).map Submission.commandBuffer :=
        List.mem_map_of_mem (by simp)
      exact (List.nodup_append.mp distinct).2.2 _ done _ listed rfl

/-- What is waiting last is the same as before, if anything is. -/
theorem getLast_of_suffix {α : Type} {later earlier : List α} (suffix : later <:+ earlier)
    {last : α} (final : last ∈ later.getLast?) : last ∈ earlier.getLast? := by
  obtain ⟨done, rfl⟩ := suffix
  rw [List.getLast?_append, Option.mem_def.mp final]
  rfl

/-! ### What a launch makes Metal do -/

/-- Command buffers from some number on, each numbered after the one before. -/
def Numbered (least next : Nat) (segments : List Segment) : Prop :=
  (segments.map Segment.commandBuffer).Pairwise (· < ·) ∧
    ∀ segment ∈ segments, least ≤ segment.commandBuffer ∧ segment.commandBuffer < next

theorem observe_encodes (commandBuffer : Nat) (commands : List Command) (on : Option Nat)
    (gpu : Gpu) :
    (commands.map (.encode commandBuffer)).foldl (Gpu.observe programs fails on) gpu =
      { gpu with encoding := gpu.encoding ++ commands.map (Prod.mk commandBuffer) } := by
  induction commands generalizing gpu with
  | nil => simp
  | cons command rest ih =>
      rw [List.map_cons, List.foldl_cons, ih]
      simp [Gpu.observe]

/-- A segment of a launch adds its commands to what the queue is to run. -/
theorem Draining.segment (draining : Draining programs fails queue next target gpu)
    (segment : Segment) (fresh : next ≤ segment.commandBuffer)
    (sound : fails segment.commandBuffer = false) :
    Draining programs fails queue (segment.commandBuffer + 1)
      (programs.run segment.commands target)
      (segment.events.foldl (Gpu.observe programs fails (some queue)) gpu) ∧
      ∀ last ∈ (segment.events.foldl
          (Gpu.observe programs fails (some queue)) gpu).waiting.getLast?,
        last = segment.commandBuffer := by
  have encoded := draining.encoded
  have committed : Draining programs fails queue (segment.commandBuffer + 1)
      (programs.run segment.commands target) { gpu with
        pending := gpu.pending ++ [⟨some queue, segment.commandBuffer, segment.commands⟩] } := by
    have both {property : Submission → Prop}
        (old : ∀ submission ∈ gpu.pending, property submission)
        (new : property ⟨some queue, segment.commandBuffer, segment.commands⟩) :
        ∀ submission ∈ gpu.pending ++ [⟨some queue, segment.commandBuffer, segment.commands⟩],
          property submission := by
      intro submission member
      rcases List.mem_append.mp member with early | last
      · exact old submission early
      · rwa [List.mem_singleton.mp last]
    have older : ∀ submission ∈ gpu.pending,
        submission.commandBuffer < segment.commandBuffer + 1 := fun submission member =>
      Nat.lt_succ_of_lt ((draining.below submission member).trans_le fresh)
    refine ⟨encoded, both draining.queued rfl, both draining.sound sound,
      both older (Nat.lt_succ_self _), ?_, ?_⟩
    · rw [Gpu.waiting, List.map_append, List.nodup_append]
      refine ⟨draining.distinct, List.nodup_singleton _, ?_⟩
      intro earlier early later last
      obtain ⟨submission, member, rfl⟩ := List.mem_map.mp early
      have below := draining.below submission member
      have same : later = segment.commandBuffer := by simpa using last
      omega
    · rw [List.flatMap_append, Programs.run_append, draining.reaches]
      simp
  have filtered : ∀ commands : List Command,
      ((commands.map (Prod.mk segment.commandBuffer)).filter
        fun entry => entry.1 != segment.commandBuffer) = [] ∧
      ((commands.map (Prod.mk segment.commandBuffer)).filter
        fun entry => entry.1 == segment.commandBuffer).map Prod.snd = commands := by
    intro commands
    induction commands with
    | nil => exact ⟨rfl, rfl⟩
    | cons command rest ih => simp_all
  have done : Gpu.commit (some queue) segment.commandBuffer
      ((segment.commands.map (.encode segment.commandBuffer)).foldl
        (Gpu.observe programs fails (some queue)) gpu) = { gpu with
          pending := gpu.pending ++ [⟨some queue, segment.commandBuffer, segment.commands⟩] } := by
    rw [observe_encodes]
    simp [Gpu.commit, encoded, filtered]
  have latest : ∀ last ∈ (Gpu.waiting { gpu with
      pending := gpu.pending ++ [⟨some queue, segment.commandBuffer, segment.commands⟩] }).getLast?,
      last = segment.commandBuffer := by
    simp [Gpu.waiting]
  rw [Segment.events, List.foldl_append, List.foldl_cons, Gpu.observe, done]
  split
  · obtain ⟨finished, suffix, _⟩ := committed.finish segment.commandBuffer
    exact ⟨finished, fun last final => latest last (getLast_of_suffix suffix final)⟩
  · exact ⟨committed, latest⟩

theorem Draining.below_mono (draining : Draining programs fails queue next target gpu)
    {later : Nat} (above : next ≤ later) : Draining programs fails queue later target gpu :=
  { draining with
    below := fun submission member => (draining.below submission member).trans_le above }

/-- A launch adds its commands, in the order of its segments. -/
theorem Draining.segments (draining : Draining programs fails queue next target gpu)
    {segments : List Segment} {later : Nat} (above : next ≤ later)
    (numbered : Numbered next later segments)
    (sound : ∀ segment ∈ segments, fails segment.commandBuffer = false) :
    Draining programs fails queue later
      (programs.run (segments.flatMap Segment.commands) target)
      ((segments.flatMap Segment.events).foldl (Gpu.observe programs fails (some queue)) gpu) ∧
      (segments ≠ [] → ∀ last ∈ ((segments.flatMap Segment.events).foldl
        (Gpu.observe programs fails (some queue)) gpu).waiting.getLast?,
        last ∈ segments.map Segment.commandBuffer) := by
  induction segments generalizing next target gpu with
  | nil => exact ⟨draining.below_mono above, fun none => absurd rfl none⟩
  | cons segment rest ih =>
      obtain ⟨increasing, bounds⟩ := numbered
      obtain ⟨first, increasing'⟩ := List.pairwise_cons.mp increasing
      obtain ⟨fresh, inside⟩ := bounds segment (by simp)
      obtain ⟨added, latest⟩ := draining.segment segment fresh (sound segment (by simp))
      have inside' : ∀ other ∈ rest,
          segment.commandBuffer + 1 ≤ other.commandBuffer ∧ other.commandBuffer < later := by
        intro other member
        exact ⟨first other.commandBuffer (List.mem_map_of_mem member),
          (bounds other (by simp [member])).2⟩
      obtain ⟨reached, latest'⟩ := ih added inside ⟨increasing', inside'⟩
        fun other member => sound other (by simp [member])
      rw [List.flatMap_cons, List.flatMap_cons, List.foldl_append, Programs.run_append]
      refine ⟨reached, ?_⟩
      intro _ last final
      rw [List.map_cons]
      by_cases none : rest = []
      · subst none
        exact List.mem_cons.mpr (.inl (latest last final))
      · exact List.mem_cons_of_mem _ (latest' none last final)

/-! ### Waiting -/

/-- Waiting for command buffers leaves what comes after them. -/
theorem Draining.waited (draining : Draining programs fails queue next target gpu)
    (impls : List Nat) (failed : Nat → Bool) {after : Gpu}
    (observed : (impls.map fun commandBuffer => MetalEvent.wait commandBuffer
      (failed commandBuffer)).foldl (Gpu.observe programs fails none) gpu = after) :
    Draining programs fails queue next target after ∧ after.waiting <:+ gpu.waiting ∧
      ∀ commandBuffer ∈ impls, commandBuffer ∉ after.waiting := by
  induction impls generalizing gpu with
  | nil =>
      subst observed
      exact ⟨draining, List.suffix_refl _, nofun⟩
  | cons commandBuffer rest ih =>
      obtain ⟨finished, suffix, gone⟩ := draining.finish commandBuffer
      obtain ⟨reached, suffix', gone'⟩ := ih finished observed
      refine ⟨reached, suffix'.trans suffix, ?_⟩
      intro other listed
      rcases List.mem_cons.mp listed with rfl | later
      · exact fun still => gone (suffix'.subset still)
      · exact gone' other later

/-- Nothing is left where the last command buffer pending has been waited for. -/
theorem idle_of_waited {before after impls : List Nat} (suffix : after <:+ before)
    (last : ∀ commandBuffer ∈ before.getLast?, commandBuffer ∈ impls)
    (gone : ∀ commandBuffer ∈ impls, commandBuffer ∉ after) : after = [] := by
  rcases final : after.getLast? with _ | commandBuffer
  · exact List.getLast?_eq_none_iff.mp final
  · have inside := List.mem_of_getLast? final
    exact absurd inside (gone commandBuffer (last commandBuffer (getLast_of_suffix suffix final)))

end Draining

end MetalGraph
