import MetalGraph.Model.Launch

set_option autoImplicit false

/- What a launch is meant to do: cut the commands of the nodes into command buffers,
flushing the current one before an MPSGraph node, which gets one of its own. -/
namespace MetalGraph

/-! ### Reading a log -/

/-- The command buffers committed in a log, in order. -/
def committed (events : List MetalEvent) : List Nat :=
  events.filterMap fun event =>
    match event with
    | .commit commandBuffer => some commandBuffer
    | _ => none

/-- The commands encoded into a command buffer, in order. -/
def encodedInto (commandBuffer : Nat) (events : List MetalEvent) : List Command :=
  events.filterMap fun event =>
    match event with
    | .encode target command => if target = commandBuffer then some command else none
    | _ => none

/-- Everything the committed command buffers hold, in the order of the commits. -/
def committedCommands (events : List MetalEvent) : List Command :=
  (committed events).flatMap fun commandBuffer => encodedInto commandBuffer events

/-- No command is encoded into a command buffer that has been committed. -/
def Sealed (events : List MetalEvent) : Prop :=
  events.Pairwise fun earlier later =>
    ∀ commandBuffer command, earlier = .commit commandBuffer →
      later ≠ .encode commandBuffer command

def Command.isMpsgraph : Command → Bool
  | .mpsgraph _ _ _ => true
  | _ => false

/-- Before an MPSGraph command, other work is committed and then waited for. -/
def Ordered (events : List MetalEvent) : Prop :=
  ∀ before commandBuffer command after,
    events = before ++ .encode commandBuffer command :: after → command.isMpsgraph = true →
    encodedInto commandBuffer events = [command] ∧
    ∀ other work, .encode other work ∈ before → work.isMpsgraph = false →
      [.commit other, .wait other false].Sublist before

section Append

variable (first second : List MetalEvent)

@[simp] theorem committed_append :
    committed (first ++ second) = committed first ++ committed second :=
  List.filterMap_append

@[simp] theorem encodedInto_append (commandBuffer : Nat) :
    encodedInto commandBuffer (first ++ second) =
      encodedInto commandBuffer first ++ encodedInto commandBuffer second :=
  List.filterMap_append

theorem committed_encodes (commandBuffer : Nat) (commands : List Command) :
    committed (commands.map (.encode commandBuffer)) = [] := by
  simp [committed, List.filterMap_map]

theorem encodedInto_encodes (commandBuffer : Nat) (commands : List Command) :
    encodedInto commandBuffer (commands.map (.encode commandBuffer)) = commands := by
  simp [encodedInto, List.filterMap_map]

theorem encodedInto_encodes_ne {commandBuffer other : Nat} (distinct : other ≠ commandBuffer)
    (commands : List Command) :
    encodedInto commandBuffer (commands.map (.encode other)) = [] := by
  simp [encodedInto, List.filterMap_map, distinct]

end Append

/-! ### Segments -/

/-- A command buffer that has been filled and committed, and possibly waited for. -/
structure Segment where
  commandBuffer : Nat
  commands : List Command
  flushed : Bool
deriving DecidableEq

def Segment.events (segment : Segment) : List MetalEvent :=
  segment.commands.map (.encode segment.commandBuffer) ++
    .commit segment.commandBuffer ::
      if segment.flushed then [.wait segment.commandBuffer false] else []

/-- Work that is waited for, or one MPSGraph command. -/
inductive Segment.Proper (segment : Segment) : Prop
  | work (flushed : segment.flushed = true) (filled : segment.commands ≠ [])
      (raw : ∀ command ∈ segment.commands, command.isMpsgraph = false)
  | mpsgraph (command : Command) (alone : segment.commands = [command])
      (isMpsgraph : command.isMpsgraph = true)

theorem Segment.Proper.filled {segment : Segment} (proper : segment.Proper) :
    segment.commands ≠ [] := by
  cases proper with
  | work _ filled _ => exact filled
  | mpsgraph command alone _ => simp [alone]

/-- The last command buffer of a launch, which nothing waits for. -/
def Segment.Last (segment : Segment) : Prop :=
  segment.flushed = false ∧ ∀ command ∈ segment.commands, command.isMpsgraph = false

section Segment

variable (segment : Segment)

theorem Segment.committed_events : committed segment.events = [segment.commandBuffer] := by
  unfold Segment.events
  rw [committed_append, committed_encodes]
  cases segment.flushed <;> rfl

theorem Segment.encodedInto_events :
    encodedInto segment.commandBuffer segment.events = segment.commands := by
  unfold Segment.events
  rw [encodedInto_append, encodedInto_encodes]
  cases segment.flushed <;> simp [encodedInto]

theorem Segment.encodedInto_events_ne {commandBuffer : Nat}
    (distinct : segment.commandBuffer ≠ commandBuffer) :
    encodedInto commandBuffer segment.events = [] := by
  unfold Segment.events
  rw [encodedInto_append, encodedInto_encodes_ne distinct]
  cases segment.flushed <;> rfl

theorem Segment.mem_events_encode {commandBuffer : Nat} {command : Command} :
    .encode commandBuffer command ∈ segment.events ↔
      commandBuffer = segment.commandBuffer ∧ command ∈ segment.commands := by
  unfold Segment.events
  cases segment.flushed <;> simp [and_comm, eq_comm]

theorem Segment.mem_events_commit {commandBuffer : Nat} :
    .commit commandBuffer ∈ segment.events ↔ commandBuffer = segment.commandBuffer := by
  unfold Segment.events
  cases segment.flushed <;> simp

theorem Segment.sealed : Sealed segment.events := by
  unfold Sealed Segment.events
  refine List.pairwise_append.mpr ⟨?_, ?_, ?_⟩
  · exact List.pairwise_map.mpr (List.pairwise_of_forall fun _ _ => by simp)
  · cases segment.flushed <;> simp
  · intro earlier member
    obtain ⟨command, _, rfl⟩ := List.mem_map.mp member
    simp

end Segment

/-- The log of some segments with increasing command buffers. -/
structure Segments (segments : List Segment) (events : List MetalEvent) : Prop where
  events_eq : events = segments.flatMap Segment.events
  increasing : (segments.map Segment.commandBuffer).Pairwise (· < ·)

namespace Segments

variable {segments : List Segment} {events : List MetalEvent}

theorem committed_eq (cut : Segments segments events) :
    committed events = segments.map Segment.commandBuffer := by
  rw [cut.events_eq]
  clear cut
  induction segments with
  | nil => rfl
  | cons segment rest ih =>
      rw [List.flatMap_cons, committed_append, segment.committed_events, ih]
      rfl

theorem encodedInto_absent {segments : List Segment} {commandBuffer : Nat}
    (absent : ∀ segment ∈ segments, segment.commandBuffer ≠ commandBuffer) :
    encodedInto commandBuffer (segments.flatMap Segment.events) = [] := by
  induction segments with
  | nil => rfl
  | cons segment rest ih =>
      rw [List.flatMap_cons, encodedInto_append,
        segment.encodedInto_events_ne (absent segment (by simp)),
        ih fun other member => absent other (.tail _ member)]
      rfl

/-- A segment's command buffer holds its commands and no others. -/
theorem encodedInto_eq (cut : Segments segments events) {segment : Segment}
    (member : segment ∈ segments) :
    encodedInto segment.commandBuffer events = segment.commands := by
  obtain ⟨rfl, increasing⟩ := cut
  induction segments with
  | nil => cases member
  | cons head rest ih =>
      rw [List.map_cons, List.pairwise_cons] at increasing
      obtain ⟨above, tail⟩ := increasing
      have later : ∀ other ∈ rest, head.commandBuffer < other.commandBuffer := fun other inside =>
        above other.commandBuffer (List.mem_map_of_mem inside)
      rw [List.flatMap_cons, encodedInto_append]
      rcases List.mem_cons.mp member with rfl | inside
      · rw [segment.encodedInto_events,
          encodedInto_absent fun other inside => (later other inside).ne', List.append_nil]
      · rw [head.encodedInto_events_ne (later segment inside).ne, List.nil_append, ih inside tail]

theorem committedCommands_eq (cut : Segments segments events) :
    committedCommands events = segments.flatMap Segment.commands := by
  unfold committedCommands
  rw [cut.committed_eq, List.flatMap_map]
  exact List.flatMap_congr fun segment member => cut.encodedInto_eq member

theorem committed_nodup (cut : Segments segments events) : (committed events).Nodup := by
  rw [cut.committed_eq]
  exact cut.increasing.imp fun below => below.ne

theorem sealed (cut : Segments segments events) : Sealed events := by
  unfold Sealed
  rw [cut.events_eq, List.pairwise_flatMap]
  refine ⟨fun segment _ => segment.sealed, (List.pairwise_map.mp cut.increasing).imp ?_⟩
  rintro first second below earlier member later member' commandBuffer command rfl rfl
  have left := first.mem_events_commit.mp member
  have right := (second.mem_events_encode.mp member').1
  omega

theorem mem_committed (cut : Segments segments events) {commandBuffer : Nat} {command : Command}
    (encoded : .encode commandBuffer command ∈ events) : commandBuffer ∈ committed events := by
  rw [cut.events_eq, List.mem_flatMap] at encoded
  obtain ⟨segment, member, inside⟩ := encoded
  rw [cut.committed_eq, (segment.mem_events_encode.mp inside).1]
  exact List.mem_map_of_mem member

end Segments

theorem Segment.no_mpsgraph_of_raw {segment : Segment} {commandBuffer : Nat} {command : Command}
    (raw : ∀ command ∈ segment.commands, command.isMpsgraph = false)
    (encoded : .encode commandBuffer command ∈ segment.events) : command.isMpsgraph = false :=
  raw command (segment.mem_events_encode.mp encoded).2

theorem Segment.commit_wait_sublist {segment : Segment} (flushed : segment.flushed = true) :
    [.commit segment.commandBuffer, .wait segment.commandBuffer false].Sublist
      segment.events := by
  unfold Segment.events
  simp [flushed]

/-- Inside its own segment nothing precedes an MPSGraph command. -/
theorem Segment.Proper.starts {segment : Segment} (proper : segment.Proper)
    {before after : List MetalEvent} {commandBuffer : Nat} {command : Command}
    (split : segment.events = before ++ .encode commandBuffer command :: after)
    (isMpsgraph : command.isMpsgraph = true) : before = [] := by
  cases proper with
  | work _ _ raw =>
      have fixed := Segment.no_mpsgraph_of_raw raw
        (split ▸ by simp : .encode commandBuffer command ∈ segment.events)
      rw [isMpsgraph] at fixed
      cases fixed
  | mpsgraph only alone _ =>
      cases before with
      | nil => rfl
      | cons first rest =>
          simp only [Segment.events, alone, List.map_cons, List.map_nil, List.cons_append,
            List.nil_append, List.cons.injEq] at split
          have member : .encode commandBuffer command ∈ MetalEvent.commit segment.commandBuffer ::
              if segment.flushed then [.wait segment.commandBuffer false] else [] := by
            rw [split.2]
            simp
          cases flag : segment.flushed <;> simp [flag] at member

/-- A marked entry of a concatenation lies in the first part or in the second. -/
theorem append_eq_append_cons {α : Type} {first second before after : List α} {value : α}
    (split : first ++ second = before ++ value :: after) :
    (∃ middle, before = first ++ middle ∧ second = middle ++ value :: after) ∨
      ∃ middle, first = before ++ value :: middle := by
  rcases List.append_eq_append_iff.mp split with ⟨middle, whole, rest⟩ | ⟨middle, whole, rest⟩
  · exact .inl ⟨middle, whole, rest⟩
  · cases middle with
    | nil => exact .inl ⟨[], by simpa using whole.symm, by simpa using rest.symm⟩
    | cons head middle =>
        obtain ⟨rfl, _⟩ := List.cons.inj rest
        exact .inr ⟨middle, whole⟩

private theorem waited_before {segments : List Segment} {tail before after : List MetalEvent}
    {commandBuffer : Nat} {command : Command} (proper : ∀ segment ∈ segments, segment.Proper)
    (last : ∀ target command, .encode target command ∈ tail → command.isMpsgraph = false)
    (split : segments.flatMap Segment.events ++ tail =
      before ++ .encode commandBuffer command :: after)
    (isMpsgraph : command.isMpsgraph = true) {other : Nat} {work : Command}
    (earlier : .encode other work ∈ before) (raw : work.isMpsgraph = false) :
    [.commit other, .wait other false].Sublist before := by
  induction segments generalizing before with
  | nil =>
      have fixed := last commandBuffer command (by
        rw [List.flatMap_nil, List.nil_append] at split
        rw [split]
        simp)
      rw [isMpsgraph] at fixed
      cases fixed
  | cons segment rest ih =>
      have here := proper segment (by simp)
      rw [List.flatMap_cons, List.append_assoc] at split
      rcases append_eq_append_cons split with ⟨middle, rfl, later⟩ | ⟨middle, whole⟩
      · rcases List.mem_append.mp earlier with inside | inside
        · cases here with
          | work flushed _ _ =>
              rw [(segment.mem_events_encode.mp inside).1]
              exact (Segment.commit_wait_sublist flushed).trans (List.sublist_append_left _ _)
          | mpsgraph only alone single =>
              have same := (segment.mem_events_encode.mp inside).2
              rw [alone, List.mem_singleton] at same
              rw [same, single] at raw
              cases raw
        · exact (ih (fun segment member => proper segment (.tail _ member)) later inside).trans
            (List.sublist_append_right _ _)
      · rw [here.starts whole isMpsgraph] at earlier
        cases earlier

/-- The shape of a finished launch: proper segments, then at most one more. -/
structure Finished (segments : List Segment) (last : Option Segment)
    (events : List MetalEvent) : Prop where
  cut : Segments (segments ++ last.toList) events
  proper : ∀ segment ∈ segments, segment.Proper
  open_end : ∀ segment ∈ last, segment.Last

theorem Finished.ordered {segments : List Segment} {last : Option Segment}
    {events : List MetalEvent} (finished : Finished segments last events) : Ordered events := by
  intro before commandBuffer command after split isMpsgraph
  have whole := finished.cut.events_eq
  rw [List.flatMap_append] at whole
  have tail : ∀ target command, .encode target command ∈ last.toList.flatMap Segment.events →
      command.isMpsgraph = false := by
    intro target command encoded
    obtain ⟨segment, member, inside⟩ := List.mem_flatMap.mp encoded
    exact Segment.no_mpsgraph_of_raw
      (finished.open_end segment (by simpa using member)).2 inside
  refine ⟨?_, fun other work earlier raw => waited_before finished.proper tail
    (whole.symm.trans split) isMpsgraph earlier raw⟩
  have encoded : .encode commandBuffer command ∈ events := by
    rw [split]
    simp
  rw [finished.cut.events_eq, List.mem_flatMap] at encoded
  obtain ⟨segment, member, inside⟩ := encoded
  obtain ⟨rfl, listed⟩ := segment.mem_events_encode.mp inside
  rw [finished.cut.encodedInto_eq member]
  rcases List.mem_append.mp member with old | new
  · cases finished.proper segment old with
    | work _ _ raw => exact absurd (raw command listed) (by simp [isMpsgraph])
    | mpsgraph only alone _ =>
        rw [alone, List.mem_singleton] at listed
        rw [alone, listed]
  · have raw := (finished.open_end segment (by simpa using new)).2 command listed
    rw [isMpsgraph] at raw
    cases raw

/-! ### The abstract recorder -/

/-- The commands a node stands for. -/
def nodeCommands (workspace : Option MetalBuffer) (node : MgExecNode) : List Command :=
  match node with
  | .dispatch dispatch => [dispatchCommand dispatch]
  | .copy copy => [copyCommand copy.toMgCopyNode]
  | .fill fill => [fillCommand fill.toMgFillNode]
  | .eventWait event => [.waitForEvent event.event.impl event.value]
  | .eventSignal event => [.signalEvent event.event.impl event.value]
  | .mpsgraph mpsgraph => [mpsgraphCommand mpsgraph]
  | .workspaceFill fill => workspaceFillCommands workspace fill
  | .barrier _ | .workspace _ | .unknown _ => []

/-- The part of an encoder, and of the machine, that decides the segmentation. -/
structure Recording where
  trace : List MetalEvent
  next : Nat
  commandBuffer : Nat
  impls : List Nat
  hasWork : Bool
deriving DecidableEq

namespace Recording

def encode (recording : Recording) (commands : List Command) : Recording :=
  { recording with trace := recording.trace ++ commands.map (.encode recording.commandBuffer) }

def commit (recording : Recording) : Recording :=
  { recording with
    trace := recording.trace ++ [.commit recording.commandBuffer]
    impls := recording.impls ++ [recording.commandBuffer] }

def waited (recording : Recording) : Recording :=
  { recording with trace := recording.trace ++ [.wait recording.commandBuffer false] }

def fresh (recording : Recording) : Recording :=
  { recording with
    next := recording.next + 1, commandBuffer := recording.next, hasWork := false }

def marked (recording : Recording) : Recording := { recording with hasWork := true }

def flush (recording : Recording) : Recording :=
  if recording.hasWork then recording.commit.waited.fresh else recording

/-- Records one node. -/
def node (workspace : Option MetalBuffer) (recording : Recording) (next : MgExecNode) :
    Recording :=
  match next with
  | .mpsgraph mpsgraph => (recording.flush.encode [mpsgraphCommand mpsgraph]).commit.fresh
  | .barrier _ | .workspace _ | .unknown _ => recording
  | other => (recording.encode (nodeCommands workspace other)).marked

def nodes (workspace : Option MetalBuffer) (recording : Recording) (all : List MgExecNode) :
    Recording :=
  all.foldl (Recording.node workspace) recording

def finish (recording : Recording) : Recording :=
  if recording.hasWork then recording.commit else recording

end Recording

/-! ### Its segments -/

/-- A recording in progress: closed segments and the commands of the open one. -/
structure Recorded (start : List MetalEvent) (segments : List Segment) (current : List Command)
    (recording : Recording) : Prop where
  trace : recording.trace =
    start ++ segments.flatMap Segment.events ++ current.map (.encode recording.commandBuffer)
  impls : recording.impls = segments.map Segment.commandBuffer
  increasing : (segments.map Segment.commandBuffer ++ [recording.commandBuffer]).Pairwise (· < ·)
  next : recording.commandBuffer < recording.next
  proper : ∀ segment ∈ segments, segment.Proper
  raw : ∀ command ∈ current, command.isMpsgraph = false
  hasWork : recording.hasWork = true ↔ current ≠ []

namespace Recorded

variable {start : List MetalEvent} {segments : List Segment} {current : List Command}
  {recording : Recording}

theorem encode (recorded : Recorded start segments current recording) {commands : List Command}
    (filled : commands ≠ []) (raw : ∀ command ∈ commands, command.isMpsgraph = false) :
    Recorded start segments (current ++ commands) (recording.encode commands).marked where
  trace := by
    simp only [Recording.marked, Recording.encode, recorded.trace, List.map_append,
      List.append_assoc]
  impls := recorded.impls
  increasing := recorded.increasing
  next := recorded.next
  proper := recorded.proper
  raw := fun command member =>
    (List.mem_append.mp member).elim (recorded.raw command) (raw command)
  hasWork := by simp [Recording.marked, filled]

/-- Closing the open segment starts an empty one. -/
theorem close (recorded : Recorded start segments current recording) {segment : Segment}
    {closed : Recording} (proper : segment.Proper)
    (same : segment.commandBuffer = recording.commandBuffer)
    (trace : closed.trace = start ++ segments.flatMap Segment.events ++ segment.events)
    (impls : closed.impls = recording.impls ++ [recording.commandBuffer])
    (commandBuffer : closed.commandBuffer = recording.next)
    (next : closed.next = recording.next + 1) (hasWork : closed.hasWork = false) :
    Recorded start (segments ++ [segment]) [] closed where
  trace := by
    rw [trace, List.flatMap_append, List.map_nil, List.append_nil, List.append_assoc]
    simp
  impls := by rw [impls, recorded.impls, List.map_append, List.map_singleton, same]
  increasing := by
    rw [List.map_append, List.map_singleton, same, commandBuffer]
    refine List.pairwise_append.mpr ⟨recorded.increasing, List.pairwise_singleton _ _, ?_⟩
    intro earlier member later last
    cases List.mem_singleton.mp last
    rcases List.mem_append.mp member with old | new
    · exact ((List.pairwise_append.mp recorded.increasing).2.2 earlier old _ (by simp)).trans
        recorded.next
    · cases List.mem_singleton.mp new
      exact recorded.next
  next := by omega
  proper := by
    intro other member
    rcases List.mem_append.mp member with old | new
    · exact recorded.proper other old
    · cases List.mem_singleton.mp new
      exact proper
  raw := by simp
  hasWork := by simp [hasWork]

theorem flush (recorded : Recorded start segments current recording) :
    ∃ segments', Recorded start segments' [] recording.flush ∧
      segments'.flatMap Segment.commands = segments.flatMap Segment.commands ++ current := by
  unfold Recording.flush
  split
  · rename_i busy
    refine ⟨segments ++ [⟨recording.commandBuffer, current, true⟩], ?_, ?_⟩
    · refine recorded.close (.work rfl (recorded.hasWork.mp busy) recorded.raw) rfl ?_ rfl rfl rfl
        rfl
      simp [Recording.commit, Recording.waited, Recording.fresh, recorded.trace, Segment.events]
    · simp
  · rename_i idle
    have empty : current = [] := by
      by_contra filled
      exact idle (recorded.hasWork.mpr filled)
    subst empty
    exact ⟨segments, recorded, by simp⟩

theorem mpsgraph (recorded : Recorded start segments [] recording) {command : Command}
    (isMpsgraph : command.isMpsgraph = true) :
    Recorded start (segments ++ [⟨recording.commandBuffer, [command], false⟩]) []
      (recording.encode [command]).commit.fresh := by
  refine recorded.close (.mpsgraph command rfl isMpsgraph) rfl ?_ rfl rfl rfl rfl
  simp [Recording.commit, Recording.encode, Recording.fresh, recorded.trace, Segment.events]

theorem workspaceFill_raw (workspace : Option MetalBuffer) (fill : MgExecWorkspaceFill) :
    ∀ command ∈ workspaceFillCommands workspace fill, command.isMpsgraph = false := by
  simp [workspaceFillCommands, Command.isMpsgraph]

theorem node (recorded : Recorded start segments current recording)
    (workspace : Option MetalBuffer) (node : MgExecNode) :
    ∃ segments' current', Recorded start segments' current' (recording.node workspace node) ∧
      segments'.flatMap Segment.commands ++ current' =
        segments.flatMap Segment.commands ++ current ++ nodeCommands workspace node := by
  have work : ∀ commands : List Command, commands ≠ [] →
      (∀ command ∈ commands, command.isMpsgraph = false) →
      ∃ segments' current',
        Recorded start segments' current' (recording.encode commands).marked ∧
        segments'.flatMap Segment.commands ++ current' =
          segments.flatMap Segment.commands ++ current ++ commands :=
    fun commands filled raw => ⟨segments, current ++ commands, recorded.encode filled raw, by simp⟩
  cases node with
  | mpsgraph mpsgraph =>
      obtain ⟨segments', flushed, same⟩ := recorded.flush
      refine ⟨_, [], flushed.mpsgraph rfl, ?_⟩
      simp [same, nodeCommands]
  | barrier id => exact ⟨segments, current, recorded, by simp [nodeCommands]⟩
  | workspace node => exact ⟨segments, current, recorded, by simp [nodeCommands]⟩
  | unknown kind => exact ⟨segments, current, recorded, by simp [nodeCommands]⟩
  | workspaceFill fill =>
      exact work _ (by simp [nodeCommands, workspaceFillCommands])
        (workspaceFill_raw workspace fill)
  | dispatch | copy | fill | eventWait | eventSignal =>
      exact work [_] (by simp) (by simp [dispatchCommand, copyCommand, fillCommand,
        Command.isMpsgraph])

theorem nodes (recorded : Recorded start segments current recording)
    (workspace : Option MetalBuffer) (all : List MgExecNode) :
    ∃ segments' current', Recorded start segments' current' (recording.nodes workspace all) ∧
      segments'.flatMap Segment.commands ++ current' =
        segments.flatMap Segment.commands ++ current ++ all.flatMap (nodeCommands workspace) := by
  induction all generalizing segments current recording with
  | nil => exact ⟨segments, current, recorded, by simp⟩
  | cons head rest ih =>
      obtain ⟨segments', current', stepped, same⟩ := recorded.node workspace head
      obtain ⟨segments'', current'', done, same'⟩ := ih stepped
      exact ⟨segments'', current'', done, by rw [same', same, List.flatMap_cons]; simp⟩

/-- Finishing commits the open segment, if it holds anything. -/
theorem finish (recorded : Recorded start segments current recording) :
    ∃ last events, recording.finish.trace = start ++ events ∧ Finished segments last events ∧
      recording.finish.impls = committed events ∧
      committedCommands events = segments.flatMap Segment.commands ++ current ∧
      ∀ segment ∈ segments ++ last.toList, segment.commands ≠ [] := by
  have filled := fun segment member => (recorded.proper segment member).filled
  unfold Recording.finish
  split
  · rename_i busy
    let last : Segment := ⟨recording.commandBuffer, current, false⟩
    have cut : Segments (segments ++ [last]) ((segments ++ [last]).flatMap Segment.events) :=
      ⟨rfl, by simpa [last] using recorded.increasing⟩
    refine ⟨some last, _, ?_, ⟨cut, recorded.proper, ?_⟩, ?_, ?_, ?_⟩
    · simp [Recording.commit, recorded.trace, Segment.events, last]
    · simpa [last, Segment.Last] using recorded.raw
    · rw [cut.committed_eq]
      simp [Recording.commit, recorded.impls, last]
    · rw [cut.committedCommands_eq]
      simp [last]
    · intro segment member
      rcases List.mem_append.mp member with old | new
      · exact filled segment old
      · cases List.mem_singleton.mp new
        exact recorded.hasWork.mp busy
  · rename_i idle
    have empty : current = [] := by
      by_contra nonempty
      exact idle (recorded.hasWork.mpr nonempty)
    subst empty
    have cut : Segments (segments ++ []) (segments.flatMap Segment.events) :=
      ⟨by simp, by simpa using (List.pairwise_append.mp recorded.increasing).1⟩
    refine ⟨none, _, ?_, ⟨cut, recorded.proper, by simp⟩, ?_, ?_, by simpa using filled⟩
    · simp [recorded.trace]
    · rw [cut.committed_eq]
      simpa using recorded.impls
    · rw [cut.committedCommands_eq]
      simp

end Recorded

/-- An empty recording. -/
theorem recorded_start (start : List MetalEvent) {next commandBuffer : Nat}
    (below : commandBuffer < next) :
    Recorded start [] [] ⟨start, next, commandBuffer, [], false⟩ where
  trace := by simp
  impls := rfl
  increasing := List.pairwise_singleton _ _
  next := below
  proper := by simp
  raw := by simp
  hasWork := by simp

/-- One command buffer that is committed and not waited for. -/
theorem finished_single (commandBuffer : Nat) {commands : List Command}
    (raw : ∀ command ∈ commands, command.isMpsgraph = false) :
    Finished [] (some ⟨commandBuffer, commands, false⟩)
      (commands.map (.encode commandBuffer) ++ [.commit commandBuffer]) where
  cut := ⟨by simp [Segment.events], by simp⟩
  proper := by simp
  open_end := by simpa [Segment.Last] using raw

end MetalGraph
