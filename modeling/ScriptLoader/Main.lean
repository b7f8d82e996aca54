import ScriptLoader.Bundler.Engine
import ScriptLoader.Bundler.Script
import ScriptLoader.CommandLine.Program
import ScriptLoader.Json.Reader
import ScriptLoader.Snapshot

/-!
The program on a snapshot: standard input holds the files, the environment and the bundler's answers as
JSON, and the arguments say what to do with them.
-/

set_option autoImplicit false
namespace ScriptLoader

def CommandLine.Context.ofSnapshot (j : Json) : CommandLine.Context :=
  ⟨⟨Snapshot.fileSystem "/" j, false⟩, Snapshot.environment j,
    (Bundler.ofScript (Json.Access.get j "bundler")).engine⟩

end ScriptLoader

open ScriptLoader in
def main (arguments : List String) : IO UInt32 := do
  let text ← (← IO.getStdin).readToEnd
  match Json.parse? .plain (if text.trimAscii.isEmpty then "\x7b\x7d" else text) with
  | none =>
    (← IO.getStderr).putStr (CommandLine.Outcome.failureLine (some "the snapshot is no JSON"))
    return 1
  | some j =>
    let outcome := CommandLine.run (.ofSnapshot j) arguments
    (← IO.getStdout).putStr outcome.output
    (← IO.getStderr).putStr (outcome.messages ++ CommandLine.Outcome.failureLine outcome.failureMessage?)
    return UInt32.ofNat outcome.exitCode
