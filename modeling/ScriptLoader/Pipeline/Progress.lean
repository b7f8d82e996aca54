import ScriptLoader.Pipeline.Problem

/-! Progress of a compilation, stage by stage. -/

set_option autoImplicit false
namespace ScriptLoader

inductive Stage where
  | config
  | references
  | program
  | emit
  | diagnose
  | resolve
  deriving DecidableEq, Repr

namespace Stage

def name : Stage → String
  | .config => "config"
  | .references => "references"
  | .program => "program"
  | .emit => "emit"
  | .diagnose => "diagnose"
  | .resolve => "resolve"

def compile : List Stage := [.config, .references, .program, .emit, .diagnose]

end Stage

inductive Status where
  | working
  | done
  | error
  deriving DecidableEq, Repr

def Status.name : Status → String
  | .working => "working"
  | .done => "done"
  | .error => "error"

inductive EngineError where
  | cancelled
  | refused
  | failed (message : String)
  /-- The engine broke down and answers nothing more. -/
  | crashed (message : String)
  deriving DecidableEq, Repr

def EngineError.message : EngineError → String
  | .cancelled => "context canceled"
  | .refused => "output refused"
  | .failed message => message
  | .crashed message => message

inductive Failure where
  | cancelled
  | engine (message : String)
  | crashed (message : String)
  | problem (p : Problem)
  deriving DecidableEq, Repr

namespace Failure

def message (cwd : String) : Failure → String
  | .cancelled => "context canceled"
  | .engine message => message
  | .crashed message => message
  | .problem p => p.message cwd

def ofEngine (refusal : Problem) : EngineError → Failure
  | .cancelled => .cancelled
  | .refused => .problem refusal
  | .failed message => .engine message
  | .crashed message => .crashed message

end Failure

structure ProgressEvent where
  file : String
  stage : Stage
  status : Status
  failure : Option Failure := none
  deriving DecidableEq, Repr

end ScriptLoader
