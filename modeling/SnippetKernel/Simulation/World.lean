import SnippetKernel.CommandLine.Arguments
import SnippetKernel.Host.Ask
import SnippetKernel.Kernel.Service

/-! A simulated world: files, processes of a few kinds, and endpoints. On it the dialogues of callers can be
held, and what they lead to can be computed. -/
namespace SnippetKernel.Simulation

/-- How a scripted server treats a connection. -/
inductive Reply where
  /-- Sends these pieces, and then closes or does not. -/
  | sends (pieces : List ByteArray) (closes : Bool)
  /-- Closes before it has read the request. -/
  | resets

inductive Behaviour where
  /-- Ends at once. -/
  | exits (code : Nat)
  /-- Never listens. -/
  | idles
  /-- Never listens, and does not end when asked to. -/
  | ignores
  /-- A kernel. -/
  | serves
  /-- Gives these replies, one for each request, and does not listen beyond the last. -/
  | answers (replies : List Reply)
  /-- Accepts one connection; then it ends with a code, or just stops listening. -/
  | fades (code : Option Nat)

inductive Phase where
  | starting
  | running
  /-- It has been told to end. -/
  | ending (s : ExitStatus)
  | ended (s : ExitStatus)
  deriving DecidableEq

structure Job where
  pid : Pid
  behaviour : Behaviour
  endpoint : Endpoint
  listens : Bool
  phase : Phase
  engine : Engine

namespace Job

def isAlive (p : Job) : Bool :=
  match p.phase with
  | .ended _ => false
  | .starting | .running | .ending _ => true

def isListening (p : Job) (e : Endpoint) : Bool := p.isAlive && p.listens && p.endpoint = e

def finish (p : Job) (s : ExitStatus) : Job := { p with phase := .ended s, listens := false }

/-- What a process that is starting or ending comes to. The endpoint may be `taken`. -/
def settle (p : Job) (taken : Bool) : Job :=
  match p.phase, p.behaviour with
  | .ending s, _ => p.finish s
  | .starting, .exits code => p.finish (.exited code)
  | .starting, .idles | .starting, .ignores => { p with phase := .running }
  | .starting, .serves | .starting, .answers _ | .starting, .fades _ =>
    if taken then p.finish (.exited 1) else { p with phase := .running, listens := true }
  | _, _ => p

/-- What a connection does to a process that accepts it. -/
def accept (p : Job) : Job :=
  match p.behaviour with
  | .fades none => { p with listens := false }
  | .fades (some code) => p.finish (.exited code)
  | _ => p

/-- It takes a moment to end. -/
def signalled (p : Job) (s : Signal) : Job :=
  match s, p.behaviour with
  | .terminate, .ignores => p
  | .terminate, .serves => { p with phase := .ending (.exited 0), listens := false }
  | s, _ => { p with phase := .ending (.signalled s), listens := false }

end Job

/-- The tool that lists the processes which listen on a port. -/
inductive PortTool where
  | lists
  | prints (listing : ByteArray)
  /-- Is missing, or fails. -/
  | fails

structure World where
  programs : List (String × Behaviour) := []
  processes : List Job := []
  files : List (String × ByteArray) := [("/dev/null", .empty)]
  directories : List String := ["/"]
  /-- In these directories nothing can be made. -/
  sealed : List (String × OsError) := []
  tool : PortTool := .lists
  ownPid : Pid := 1000
  nextPid : Pid := 1001
  /-- The child that the supervisor holds. -/
  held : Option Pid := none
  isStarting : Bool := false
  /-- The time at which kernels start. -/
  clock : Clock := ⟨.ofInt64 1750000000, .ofInt64 0⟩
  /-- How long it has been paused. -/
  paused : Duration := ⟨0⟩
  input : ByteArray := .empty
  output : String := ""
  /-- What scripted servers have received; nothing for a connection that they closed before. -/
  requests : List (Option Request) := []

/-! ### Connections -/

structure Link where
  fault : Option LinkFault
  feed : Wire.Feed
  resets : Bool

namespace Link

def refused : Link := ⟨some .refused, .ofPieces [] true, false⟩

def sending (pieces : List ByteArray) (closes : Bool) : Link := ⟨none, .ofPieces pieces closes, false⟩

def resetting : Link := ⟨none, .ofPieces [] true, true⟩

/-- Answers come at once; only where nothing comes, time passes. -/
def answer : (q : LinkAsk) → StateM Link q.Answer
  | .connect => do
    match (← get).fault with
    | some fault => return .error fault
    | none => return .ok ⟨0⟩
  | .send _ => return .ok ⟨0⟩
  | .receive within => do
    let link ← get
    if link.resets then return (.broken .reset, ⟨0⟩)
    match link.feed.read? with
    | some (bytes, feed) =>
      set { link with feed }
      return (.bytes bytes, ⟨0⟩)
    | none => return if link.feed.closes then (.closed, ⟨0⟩) else (.nothing, within)

end Link

namespace World

/-! ### Processes -/

def process? (w : World) (pid : Pid) : Option Job := w.processes.find? (·.pid = pid)

def listener? (w : World) (e : Endpoint) : Option Job := w.processes.find? (·.isListening e)

/-- Puts a process in the place of the one that has its number. -/
def update (w : World) (p : Job) : World :=
  { w with processes := w.processes.map fun q => if q.pid = p.pid then p else q }

def add (w : World) (behaviour : Behaviour) (endpoint : Endpoint) : Pid × World :=
  let process : Job :=
    { pid := w.nextPid, behaviour, endpoint, listens := false, phase := .starting
      engine := .start .default w.clock }
  (w.nextPid, { w with processes := w.processes ++ [process], nextPid := w.nextPid + 1 })

/-- Lets processes that are starting or ending come to what they come to. -/
def pass (w : World) : World :=
  w.processes.foldl
    (fun w p => w.update (p.settle ((w.listener? p.endpoint).any (·.pid ≠ p.pid)))) w

def poll (w : World) (pid : Pid) : Poll :=
  match w.process? pid with
  | none => .unknown
  | some p =>
    match p.phase with
    | .ended s => .ended s
    | .starting | .running | .ending _ => .running

def isAlive (w : World) (pid : Pid) : Bool := (w.process? pid).any (·.isAlive)

def signal (w : World) (pid : Pid) (s : Signal) : Except OsError Unit × World :=
  match w.process? pid with
  | none => (.error .noProcess, w)
  | some p => if p.isAlive then (.ok (), w.update (p.signalled s)) else (.error .noProcess, w)

def spawn (w : World) (c : Command) : Except OsError Pid × World :=
  match w.programs.lookup c.program with
  | none =>
    let there := c.program ∈ w.directories ∨ (w.files.lookup c.program).isSome
    (.error (if there then .accessDenied else .notFound), w)
  | some behaviour =>
    match CommandLine.kernelEndpoint (fun name => c.environment.lookup name) c.arguments with
    | .ok endpoint =>
      let (pid, w) := w.add behaviour endpoint
      (.ok pid, w)
    | .error _ =>
      let (pid, w) := w.add (.exits 2) ⟨.loopback, 0⟩
      (.ok pid, w)

/-- What the tool prints for a port. -/
def owners (w : World) (port : UInt16) : Option ByteArray :=
  match w.tool with
  | .fails => none
  | .prints listing => some listing
  | .lists =>
    let listening := w.processes.filter fun p => p.isListening p.endpoint && p.endpoint.port = port
    some (String.join (listening.map fun p => toString p.pid.toNat ++ "\n")).toUTF8

/-- Looks after the child that is held. -/
def checkHeld (w : World) : Held × World :=
  match w.held with
  | none => (.nothing, w)
  | some pid =>
    match w.poll pid with
    | .running => (.running pid, w)
    | .ended s => (.ended pid s, { w with held := none })
    | .unknown => (.unknown pid, w)

/-! ### Files -/

/-- Something that is said to lie in a file. -/
def isBelowFile (w : World) (path : String) : Bool :=
  w.files.any fun (file, _) => Path.isWithin path file && !Path.isWithin file path

def makeDirectory (w : World) (path : String) : Except OsError Unit × World :=
  if w.isBelowFile path then (.error .notDirectory, w)
  else
    match w.sealed.find? fun (directory, _) => Path.isWithin path directory with
    | some (_, e) => (.error e, w)
    | none => (.ok (), { w with directories := path :: w.directories })

def openLog (w : World) (path : String) : Except OsError Unit × World :=
  if w.isBelowFile path then (.error .notDirectory, w)
  else if path ∈ w.directories then (.error .isDirectory, w)
  else if (w.files.lookup path).isSome then (.ok (), w)
  else (.ok (), { w with files := (path, .empty) :: w.files })

def readFile (w : World) (path : String) : Except OsError ByteArray :=
  match w.files.lookup path with
  | some bytes => .ok bytes
  | none =>
    .error (if w.isBelowFile path then .notDirectory else if path ∈ w.directories then .isDirectory
      else .notFound)

/-! ### Answers -/

/-- What a listening process makes of a request: the connection, and the world afterwards. -/
def connect (w : World) (vitals : Vitals) (e : Endpoint) (r : Request) : Link × World :=
  match w.listener? e with
  | none => (.refused, w)
  | some p =>
    match p.behaviour with
    | .serves =>
      let (response, engine) := p.engine.serve vitals (.ofPieces [Wire.frame r] false)
      let pieces := response.toList.map fun response => response.text.toUTF8
      (.sending pieces true, w.update { p with engine })
    | .answers (reply :: rest) =>
      let w := w.update { p with behaviour := .answers rest, listens := !rest.isEmpty }
      match reply with
      | .sends pieces closes => (.sending pieces closes, { w with requests := w.requests ++ [some r] })
      | .resets => (.resetting, { w with requests := w.requests ++ [none] })
    | _ => (.resetting, w.update p.accept)

def exchange (w : World) (vitals : Vitals) (e : Endpoint) (r : Request) (p : Patience) :
    Except Failure Response × World :=
  let (link, w) := w.connect vitals e r
  (((Exchange.run e p r).run Link.answer link).1, w)

/-- Answers what is asked of the world. -/
def answer (vitals : Vitals) : (q : Ask) → StateM World q.Answer
  | .makeDirectory path => modifyGet (·.makeDirectory path)
  | .openLog path => modifyGet (·.openLog path)
  | .readFile path => return (← get).readFile path
  | .readInput => modifyGet fun w => (w.input, { w with input := .empty })
  | .write text => modify fun w => { w with output := w.output ++ text }
  | .spawn c => modifyGet (·.spawn c)
  | .poll pid => return (← get).poll pid
  | .isAlive pid => return (← get).isAlive pid
  | .signal pid s => modifyGet (·.signal pid s)
  | .ownPid => return (← get).ownPid
  | .portOwners port => return (← get).owners port
  | .isReachable e _ => modifyGet fun w =>
    match w.listener? e with
    | some p => (true, w.update p.accept)
    | none => (false, w)
  | .exchange e r p => modifyGet (·.exchange vitals e r p)
  | .pause d => modify fun w => { w.pass with paused := ⟨w.paused.nanos + d.nanos⟩ }
  | .clock => return (← get).paused
  | .checkHeld => modifyGet checkHeld
  | .held => return (← get).held
  | .hold pid => modify fun w => { w with held := some pid }
  | .takeHeld => modifyGet fun w => (w.held, { w with held := none })
  | .setStarting b => modify fun w => { w with isStarting := b }
  | .isStarting => return (← get).isStarting

/-- Holds a dialogue with the world. -/
def run {α : Type} (w : World) (vitals : Vitals) (d : Host α) : α × World :=
  (d.run (answer vitals)).run w

end World

end SnippetKernel.Simulation
