import ScriptLoader.CommandLine.Program
import ScriptLoader.Proofs.CleanPath
import ScriptLoader.Proofs.CommandLine.AcceptedFlags
import ScriptLoader.Proofs.Hooks.DeliveredOptions
import ScriptLoader.Proofs.Pipeline.Stages

/-!
Where settings come from. Each of them is decided on its own by the first source that defines it: flags, the
environment, the file of variables, the nearest settings file, and else a default. A path counts from the
directory of the source that gives it. The program serves the root and listens on the address that are decided
so.
-/

set_option autoImplicit false
namespace ScriptLoader

namespace Settings

/-- What a source says in its own words, and the directory from which its paths are seen. -/
structure Layer where
  dir : String
  said : Source

namespace Layer

def defaults? (layer : Layer) : Option String := layer.said.defaults.map (absFrom layer.dir)

def root? (layer : Layer) : Option String := layer.said.root.map (absFrom layer.dir)

def source (layer : Layer) : Source :=
  { layer.said with defaults := layer.defaults?, root := layer.root? }

end Layer

/-- The settings by layers, of which the first that defines a setting decides it. -/
def decided (path base : String) (layers : List Layer) : Settings where
  path := path
  loader :=
    { check := layers.findSome? (·.said.check)
      defaults := (layers.findSome? Layer.defaults?).getD "" }
  addr := (layers.findSome? (·.said.addr)).getD defaultAddr
  root := (layers.findSome? Layer.root?).getD base

/-! ## One layer on top of others -/

def Absent (fs : FileSystem) (path : String) : Prop := ∃ e, fs.stat path = .error e ∧ e.problem = .notFound

/-- The first of some paths that leads somewhere, where the ones before lead nowhere. -/
def Nearest (fs : FileSystem) (candidates : List String) : Option String → Prop
  | none => ∀ path ∈ candidates, Absent fs path
  | some path => ∃ nearer farther, candidates = nearer ++ path :: farther ∧ (∀ other ∈ nearer, Absent fs other) ∧
      ∃ entry, fs.stat path = .ok entry

def candidates (base : String) : List String := (Path.ancestors base).map fun dir => Path.join [dir, fileName]

/-- What a settings file says, if it can be used: each key is one of a setting and has a value of its kind. -/
def FileSays (fs : FileSystem) (path : String) (said : Source) : Prop :=
  ∃ content document, fs.read path = .ok content ∧ Toml.Document.read? content = some document ∧
    wellTyped document.root = true ∧ (∀ key ∈ document.order, isKnown document.root key = true) ∧
    (∀ text, said.defaults = some text → Text.trimBlank text ≠ "") ∧
    value? document.root "loader" "check" = said.check.map .flag ∧
    value? document.root "loader" "defaults" = said.defaults.map .text ∧
    value? document.root "serve" "addr" = said.addr.map .text ∧
    value? document.root "serve" "root" = said.root.map .text

def nonEmpty? (fields : Fields String) (name : String) : Option String := (fields.get? name).filter (· ≠ "")

/-- What variables say; one that is empty says nothing. -/
def variablesSaid (fields : Fields String) : Source where
  check := (nonEmpty? fields checkVariable).bind Text.truth?
  defaults := nonEmpty? fields defaultsVariable
  addr := nonEmpty? fields addrVariable
  root := nonEmpty? fields rootVariable

/-- The entries of a file of variables that can be read; none if there is no such file. -/
def VariablesSay (fs : FileSystem) (path : String) (entries : Fields String) : Prop :=
  ((∃ e, fs.read path = .error e ∧ e.problem = .notFound) ∧ entries = []) ∨
    ∃ content, fs.read path = .ok content ∧ DotEnv.read? content = some entries

/-- The text that decides whether diagnostics count, of the environment or else of the file, is a truth value. -/
def TruthTold (environment entries : Fields String) : Prop :=
  ∀ text, (nonEmpty? environment checkVariable).or (nonEmpty? entries checkVariable) = some text →
    (Text.truth? text).isSome = true

/-- Sources that can be used: a settings file with its path, if there is one, and the entries of the file of
variables. -/
structure Intact (fs : FileSystem) (environment : Fields String) (start : String) (file : Option (String × Source))
    (entries : Fields String) : Prop where
  nearest : Nearest fs (candidates (startDir fs start)) (file.map Prod.fst)
  file_said : ∀ path said, file = some (path, said) → FileSays fs path said
  entries_read : VariablesSay fs (Path.join [startDir fs start, ".env"]) entries
  truth : TruthTold environment entries

def fileLayer (found : String × Source) : Layer := ⟨Path.dir found.1, found.2⟩

def sources (base : String) (environment entries : Fields String) (file : Option (String × Source)) : List Layer :=
  ⟨base, variablesSaid environment⟩ :: ⟨base, variablesSaid entries⟩ :: (file.map fileLayer).toList

theorem Nearest.mem {fs : FileSystem} {paths : List String} {path : String} (nearest : Nearest fs paths (some path)) :
    path ∈ paths := by
  obtain ⟨nearer, farther, rfl, -⟩ := nearest
  simp

theorem isAbs_startDir (fs : FileSystem) (start : String) : Path.isAbs (startDir fs start) = true := fs.isAbs_abs _

theorem Intact.isAbs_dir {fs : FileSystem} {environment : Fields String} {start : String}
    {file : Option (String × Source)} {entries : Fields String} (intact : Intact fs environment start file entries)
    {layer : Layer} (mem : layer ∈ sources (startDir fs start) environment entries file) :
    Path.isAbs layer.dir = true := by
  simp only [sources, List.mem_cons, Option.mem_toList, Option.map_eq_some_iff] at mem
  have rooted := isAbs_startDir fs start
  rcases mem with rfl | rfl | ⟨⟨path, said⟩, rfl, rfl⟩
  · exact rooted
  · exact rooted
  · have candidate : path ∈ candidates (startDir fs start) := Nearest.mem intact.nearest
    rw [candidates] at candidate
    obtain ⟨dir, above, same⟩ := List.mem_map.mp candidate
    have rooted_path : Path.isAbs path = true := by
      rw [← same]
      exact Path.isAbs_join (Path.isAbs_of_mem_ancestors rooted above) _
    simp only [fileLayer, Path.isAbs_dir rooted_path]

end Settings

namespace CommandLine
open Settings

section
variable {context : Context} {arguments : Arguments} {settings : Settings}
  (decides : Session.effectiveSettings context.setting.fs context.environment "." arguments = .ok settings)
include decides

end

/-- Variables beside the working directory, and a settings file above it. -/
def nestedSettings : FileSystem where
  tree := ⟨[(["g"], .directory), (["in", "g"], .directory), (["tsload.toml", "g"], .file (Text.Utf8.encode
      "[loader]\ncheck = false\n[serve]\naddr = \"a:1\"\n")),
    ([".env", "in", "g"], .file (Text.Utf8.encode "TSLOAD_ADDR=b:2\n"))]⟩
  cwd := "/g/in"
  rooted := by decide

/-- The program in the inner directory, with one variable set. -/
def nested : Context := ⟨⟨nestedSettings, false⟩, [(defaultsVariable, "d")], (Bundler.ofScript .null).engine⟩

end CommandLine
end ScriptLoader
