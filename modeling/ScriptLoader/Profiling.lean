import ScriptLoader.FileTree

/-!
Profiles of the running program. What they hold is not modelled: a profile that was written is a file that
is not empty.
-/

set_option autoImplicit false
namespace ScriptLoader.Profiling

structure Paths where
  cpu : String := ""
  heap : String := ""
  trace : String := ""
  deriving DecidableEq, Repr

inductive ProfileError where
  | cpuFile (e : FileError)
  | cpuBusy
  | traceFile (e : FileError)
  | traceBusy
  | heapFile (e : FileError)
  deriving DecidableEq, Repr

def ProfileError.message : ProfileError → String
  | .cpuFile e => "cpu profile: " ++ e.message
  | .cpuBusy => "cpu profile: cpu profiling already in use"
  | .traceFile e => "runtime trace: " ++ e.message
  | .traceBusy => "runtime trace: execution tracer already enabled"
  | .heapFile e => "heap profile: " ++ e.message

def ProfileError.file? : ProfileError → Option FileError
  | .cpuFile e => some e
  | .traceFile e => some e
  | .heapFile e => some e
  | _ => none

def content : List UInt8 := [0]

structure Session where
  paths : Paths
  stopped : Bool := false

structure Running where
  cpu : Bool := false
  trace : Bool := false

/-- Begins to collect, and makes the files. Nothing is collected after an error. -/
def start (fs : FileSystem) (running : Running) (paths : Paths) : FileSystem × Except ProfileError Session :=
  let startCpu : FileSystem × Except ProfileError Unit :=
    if paths.cpu = "" then (fs, .ok ())
    else match fs.create paths.cpu [] with
      | .error e => (fs, .error (.cpuFile e))
      | .ok fs => if running.cpu then (fs, .error .cpuBusy) else (fs, .ok ())
  match startCpu with
  | (fs, .error e) => (fs, .error e)
  | (fs, .ok ()) =>
    if paths.trace = "" then (fs, .ok { paths := paths })
    else match fs.create paths.trace [] with
      | .error e => (fs, .error (.traceFile e))
      | .ok fs => if running.trace then (fs, .error .traceBusy) else (fs, .ok { paths := paths })

def fill (fs : FileSystem) (path : String) : FileSystem :=
  if path = "" then fs else ((fs.create path content).toOption).getD fs

/-- Ends collecting and writes the profiles. Only the first call does anything. -/
def stop (fs : FileSystem) (session : Session) : FileSystem × Session × Option ProfileError :=
  if session.stopped then (fs, session, none)
  else
    let fs := fill (fill fs session.paths.trace) session.paths.cpu
    let session := { session with stopped := true }
    if session.paths.heap = "" then (fs, session, none)
    else match fs.create session.paths.heap content with
      | .ok fs => (fs, session, none)
      | .error e => (fs, session, some (.heapFile e))

end ScriptLoader.Profiling
