import ScriptLoader.CommandLine.Program
import ScriptLoader.Proofs.Json.WrittenValues
import ScriptLoader.Proofs.Pipeline.ReportedFormat

/-!
What the program tells about the compilation of a file is what happens when the file is compiled. The text
that it writes is read back: the engine is asked for a program under the options that are written there and no
others, and the format that is written there is that of the script.
-/

set_option autoImplicit false
namespace ScriptLoader

namespace Pipeline

section
variable {engine engine' : Engine} (same : engine'.buildProject = engine.buildProject) (setting : Setting)
include same

end

end Pipeline

namespace CommandLine
open Text.Utf8 (shown)

def Act.output : Act → String
  | .wrote text => text
  | _ => ""

def outputOf {α : Type} (work : Work α) : String := String.join (work.trace.map Act.output)

section
variable {α β : Type}

@[simp] theorem value_perform (work : Traced α) : (perform work).value = work.value := rfl

@[simp] theorem outputOf_log (entry : LogEntry) : outputOf (log entry) = "" := rfl

@[simp] theorem outputOf_tell (text : String) : outputOf (tell text) = "" := rfl

@[simp] theorem outputOf_write (text : String) : outputOf (write text) = text := by
  simp [outputOf, write, Act.output]

@[simp] theorem outputOf_marks (work : Work α) : outputOf (Run.marks work.trace : Work Unit) = outputOf work := rfl

@[simp] theorem outputOf_perform (work : Traced α) : outputOf (perform work) = "" := by
  unfold outputOf perform
  rw [Run.trace_relabel, List.map_map]
  induction work.trace with
  | nil => rfl
  | cons happening rest ih => simpa [Act.output] using ih

end

namespace GoverningReport

/-- What the text of a report is read as. -/
theorem parse?_render (report : GoverningReport) : Json.parse? .plain (report.render ++ "\n") =
    some (.object ([("file", .string (shown report.file)), ("config", .string (shown report.configText))] ++
      (report.format.map fun format => ("format", Json.string (shown format.name))).toList ++
      [("compilerOptions", report.options.toJson.asRead)])) := by
  have names : shown "file" = "file" ∧ shown "config" = "config" ∧ shown "format" = "format" ∧
      shown "compilerOptions" = "compilerOptions" := by decide
  have read := Json.parse?_prettyRecord ([("file", .string report.file), ("config", .string report.configText)] ++
    (report.format.map fun format => ("format", Json.string format.name)).toList ++
    [("compilerOptions", report.options.toJson)])
  rw [render, read]
  cases report.format <;> simp [Json.memberAsRead, Json.asRead, names]

end GoverningReport

/-- Where there is nothing but a file that is a module by its name. -/
def beside : Context := ⟨⟨Pipeline.moduleAlone, false⟩, [], Bundler.echo.engine⟩

end CommandLine
end ScriptLoader
