import MetalGraph.Model.Memory

set_option autoImplicit false

/- What the device does with committed work: each queue runs its command buffers in order,
at a pace of its own. -/
namespace MetalGraph

/-- A command buffer that has been committed, with the commands still to be run. -/
structure Submission where
  queue : Option Nat
  commandBuffer : Nat
  commands : List Command

/-- `encoding` holds the commands of command buffers that are not committed yet. -/
structure Gpu where
  memory : Memory
  encoding : List (Nat × Command)
  pending : List Submission

def Gpu.idle (memory : Memory) : Gpu := ⟨memory, [], []⟩

section Queues

variable (programs : Programs) (fails : Nat → Bool)

/-- Runs the next command of the first command buffer of a queue. -/
def runNext (queue : Option Nat) : List Submission → Memory → List Submission × Memory
  | [], memory => ([], memory)
  | first :: rest, memory =>
    if first.queue = queue then
      match first.commands with
      | [] => (rest, memory)
      | command :: commands =>
        ({ first with commands := commands } :: rest, programs.command command memory)
    else
      let (left, reached) := runNext queue rest memory
      (first :: left, reached)

/-- What a command buffer that is waited for has done: all of its commands, unless it fails
after the ones it has run. -/
def Submission.complete (submission : Submission) (memory : Memory) : Memory :=
  if fails submission.commandBuffer then memory else programs.run submission.commands memory

/-- Completes a queue up to a command buffer. -/
def runThrough (queue : Option Nat) (commandBuffer : Nat) :
    List Submission → Memory → List Submission × Memory
  | [], memory => ([], memory)
  | first :: rest, memory =>
    if first.queue = queue then
      if first.commandBuffer = commandBuffer then (rest, first.complete programs fails memory)
      else runThrough queue commandBuffer rest (first.complete programs fails memory)
    else
      let (left, reached) := runThrough queue commandBuffer rest memory
      (first :: left, reached)

def Gpu.progress (queue : Option Nat) (gpu : Gpu) : Gpu :=
  let (left, reached) := runNext programs queue gpu.pending gpu.memory
  { gpu with pending := left, memory := reached }

/-- A wait for a command buffer that is not pending any more ends at once. -/
def Gpu.finish (commandBuffer : Nat) (gpu : Gpu) : Gpu :=
  match gpu.pending.find? fun submission => submission.commandBuffer == commandBuffer with
  | none => gpu
  | some last =>
    let (left, reached) :=
      runThrough programs fails last.queue commandBuffer gpu.pending gpu.memory
    { gpu with pending := left, memory := reached }

def Gpu.commit (queue : Option Nat) (commandBuffer : Nat) (gpu : Gpu) : Gpu :=
  { gpu with
    encoding := gpu.encoding.filter fun entry => entry.1 != commandBuffer
    pending := gpu.pending ++ [⟨queue, commandBuffer,
      (gpu.encoding.filter fun entry => entry.1 == commandBuffer).map Prod.snd⟩] }

/-- What a call on a queue has made Metal do. -/
def Gpu.observe (queue : Option Nat) (gpu : Gpu) : MetalEvent → Gpu
  | .encode commandBuffer command =>
    { gpu with encoding := gpu.encoding ++ [(commandBuffer, command)] }
  | .commit commandBuffer => gpu.commit queue commandBuffer
  | .wait commandBuffer _ => gpu.finish programs fails commandBuffer
  | .refused => gpu

end Queues

end MetalGraph
