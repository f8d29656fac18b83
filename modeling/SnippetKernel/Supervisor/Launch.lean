import SnippetKernel.Endpoint.Settings
import SnippetKernel.Host.Ask

/-! Starting the process of a kernel. -/
namespace SnippetKernel

/-- What a kernel is started with. -/
structure Launch where
  program : String
  /-- Where the kernel is told to listen. -/
  endpoint : Endpoint
  directory : String
  logFile : String
  /-- Come behind those that name the endpoint. -/
  arguments : List String := []
  /-- Take precedence over what every kernel is given. -/
  moreVariables : List (String × String) := []

namespace Launch

def ofSettings (s : Settings) : Launch :=
  { program := s.kernelProgram, endpoint := s.endpoint, directory := s.workspace, logFile := s.logFile }

def withArguments (l : Launch) (more : List String) : Launch :=
  { l with arguments := l.arguments ++ more }

def withVariables (l : Launch) (more : List (String × String)) : Launch :=
  { l with moreVariables := l.moreVariables ++ more }

/-- The environment of every kernel: texts are encoded alike, nothing asks questions, and numerical
libraries do not start threads. -/
def commonVariables : List (String × String) :=
  [("PYTHONIOENCODING", "utf-8"), ("HEARTH_IO_ENCODING", "utf-8"), ("GIT_TERMINAL_PROMPT", "0"),
    ("GIT_LFS_SKIP_SMUDGE", "1"), ("OPENBLAS_NUM_THREADS", "1"), ("OMP_NUM_THREADS", "1"),
    ("MKL_NUM_THREADS", "1"), ("NUMEXPR_NUM_THREADS", "1"), ("VECLIB_MAXIMUM_THREADS", "1"),
    ("TQDM_DISABLE", "1"), ("HEARTH_NETWORK_TIMEOUT", "30")]

/-- Binds a name in a list that is in the order of its names. -/
def bind (name value : String) : List (String × String) → List (String × String)
  | [] => [(name, value)]
  | (other, old) :: rest =>
    if name < other then (name, value) :: (other, old) :: rest
    else if name = other then (name, value) :: rest
    else (other, old) :: bind name value rest

def host (l : Launch) : String := l.endpoint.host.text

def port (l : Launch) : String := toString l.endpoint.port.toNat

/-- Of two values of one name, the later one. -/
def environment (l : Launch) : List (String × String) :=
  (commonVariables ++ [("HEARTH_HOST", l.host), ("HEARTH_PORT", l.port)] ++ l.moreVariables).foldl
    (fun bound (name, value) => bind name value bound) []

def makeDirectory (path : String) : Errand Unit := do
  match ← Host.ask (.makeDirectory path) with
  | .ok () => return ()
  | .error e => throw (.io e.text (some path))

/-- Makes the directories and the log file, and answers with the command. -/
def command (l : Launch) : Errand Command := do
  makeDirectory l.directory
  makeDirectory (Path.parent l.logFile)
  match ← Host.ask (.openLog l.logFile) with
  | .error e => throw (.io e.text (some l.logFile))
  | .ok () =>
    return {
      program := l.program
      arguments := ["--host", l.host, "--port", l.port] ++ l.arguments
      environment := l.environment
      directory := l.directory
      logFile := l.logFile }

/-- Starts the process. Whether it listens is another matter. -/
def spawn (l : Launch) : Errand Pid := do
  match ← Host.ask (.spawn (← l.command)) with
  | .ok pid => return pid
  | .error e => throw (.startFailed ("failed to spawn " ++ l.program ++ ": " ++ e.text) none)

end Launch

end SnippetKernel
