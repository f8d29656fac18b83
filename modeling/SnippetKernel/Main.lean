import SnippetKernel.CommandLine.Run
import SnippetKernel.Simulation.World

/-! The command line. The terminal and the files are those of the machine; the kernels that a command starts
run inside the program, and end with it. -/
namespace SnippetKernel

open Simulation (World)

/-- Where programs and data are. -/
def findSurroundings : IO Surroundings := do
  let home := (← IO.getEnv "HOME").getD "/tmp"
  return {
    programs := (← IO.appDir).toString
    data := (← IO.getEnv "XDG_DATA_HOME").getD (Path.join home ".local/share") }

/-- The bindings of the variables that settings depend on. -/
def findVariables : IO (List (String × String)) := do
  let mut bound := []
  for name in ["HEARTH_HOST", "HEARTH_PORT", "HEARTH_KERNEL_BIN", "HEARTH_STATE_DIR"] do
    if let some value ← IO.getEnv name then bound := (name, value) :: bound
  return bound

/-- How long the program has run. -/
def measureVitals (since : Nat) : IO Vitals := do return ⟨(← IO.monoMsNow) - since, none⟩

def readAll : IO ByteArray := do
  let input ← IO.getStdin
  let mut bytes := ByteArray.empty
  repeat
    let more ← input.read 4096
    if more.isEmpty then break
    bytes := bytes ++ more
  return bytes

/-- Answers from the terminal and the files, and otherwise from the world. -/
def answerHere (since : Nat) (world : IO.Ref World) : (q : Ask) → IO q.Answer
  | .write text => do
    let output ← IO.getStdout
    output.putStr text
    output.flush
  | .readInput => readAll
  | .readFile path => do
    try return .ok (← IO.FS.readBinFile path)
    catch _ => return .error .notFound
  | .pause d => do
    IO.sleep (UInt32.ofNat (d.nanos / 1000000))
    world.modify World.pass
  | .clock => return ⟨← IO.monoNanosNow⟩
  | q => do
    let vitals ← measureVitals since
    world.modifyGet fun w => (World.answer vitals q).run w

/-- A line of the terminal. -/
def readTyped : IO Session.Typed := do
  let line ← (← IO.getStdin).getLine
  if line.isEmpty then return .ended
  return (Session.typed line.toUTF8).headD .ended

/-- A session with the one at the terminal. -/
def converse (answer : (q : Ask) → IO q.Answer) (s : Supervisor) (deadline : Duration) : IO UInt32 := do
  match ← (Session.enter s deadline).run answer with
  | none => return Session.succeeded
  | some caller =>
    let mut block := Session.Block.empty
    repeat
      (Session.showPrompt block).run answer
      match ← (Session.step caller block (← readTyped)).run answer with
      | .ok next => block := next
      | .error code => return code
    return Session.succeeded

end SnippetKernel

open SnippetKernel in
/-- Runs a command line. -/
def main (arguments : List String) : IO UInt32 := do
  let bound ← findVariables
  match CommandLine.prepare (← findSurroundings) (fun name => bound.lookup name) arguments with
  | .error (code, text) =>
    if code = Session.succeeded then IO.println text else IO.eprintln text
    return code
  | .ok (settings, action) =>
    let world ← IO.mkRef { programs := [(settings.kernelProgram, .serves)] }
    let answer := answerHere (← IO.monoMsNow) world
    match action with
    | .session deadline => converse answer (.ofSettings settings) deadline
    | action => (CommandLine.run settings [] action).run answer
