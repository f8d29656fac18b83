import SnippetKernel.Kernel.Capture
import SnippetKernel.Kernel.Describe
import SnippetKernel.Program.Interpret
import SnippetKernel.Value.Release

/-! The engine: bindings that stay from one piece of code to the next, and the four things that can be
done with them. -/
namespace SnippetKernel

structure Engine where
  names : Namespace Value
  heap : Heap
  streams : Streams
  limits : Limits
  clock : Clock

/-- What the engine cannot know by itself. -/
structure Vitals where
  uptimeMillis : Nat
  memory : Option UInt64

namespace Engine

def start (limits : Limits) (clock : Clock) : Engine := ⟨.empty, .empty, .start, limits, clock⟩

/-- The machine that code runs on. -/
def machine (e : Engine) : Machine := Machine.start e.names e.heap e.clock

/-- What is answered for code that has run, and what stays of it. -/
def settle (e : Engine) (ran : Ran) : ExecuteResult × Engine :=
  let (capture, streams) := e.streams.capture
  let (captured, _) := (streams.writeAll ran.machine.writes).take
  let error := ran.fault?.map (·.render)
  (⟨error.isNone, captured.stdout, captured.stderr, error⟩,
    { e with
      names := ran.machine.names, heap := ran.machine.heap, clock := ran.machine.clock
      streams := capture.close })

/-- Runs code on the bindings. What it bound before an exception stays bound. -/
def execute (e : Engine) (code : String) : ExecuteResult × Engine :=
  e.settle (e.machine.interpret e.limits code)

/-- The visible bindings whose names contain the pattern. -/
def inspect (e : Engine) (pattern : String) : InspectResult :=
  let found := e.names.visible.filter fun (name, _) => Describe.isMatch name pattern
  let shown := found.map fun (name, v) => Describe.variable_ e.heap name v
  ⟨true, UInt64.ofNat shown.length, shown⟩

/-- Drops the heap if nothing is bound: then nothing refers to it. -/
def sweep (e : Engine) : Engine :=
  match e.names.entries with
  | [] => { e with heap := .empty }
  | _ => e

/-- Removes all bindings, and empties what they could reach. -/
def reset (e : Engine) : ResetResult × Engine :=
  let cells := e.heap.release (e.names.entries.map (·.2))
  (⟨true, "Kernel reset: all variables cleared"⟩,
    { e with names := .empty, heap := { e.heap with toCells := cells } }.sweep)

def status (e : Engine) (vitals : Vitals) : StatusResult :=
  let tenths := Double.ofUInt64 (UInt64.ofNat ((vitals.uptimeMillis + 50) / 100))
  { success := true
    uptimeSeconds := tenths.div (Double.ofUInt64 10)
    uptimeHuman := Describe.uptime (vitals.uptimeMillis / 1000)
    variableCount := UInt64.ofNat e.names.visible.length
    memoryUsageBytes := vitals.memory
    memoryUsage := Describe.memory vitals.memory }

end Engine

end SnippetKernel
