import ScriptLoader.Options.Reader
import ScriptLoader.Project.Members
import ScriptLoader.Project.RawConfig

/-!
Project configurations. A configuration file is read together with the files it extends: later files
override earlier ones option by option, while the lists of files and patterns are each taken as a whole
from the last file that has them.
-/

set_option autoImplicit false
namespace ScriptLoader.Project

def configFileName : String := "tsconfig.json"

structure Reference where
  path : String
  prepend : Bool
  deriving DecidableEq, Repr

structure Config where
  path : String
  options : CompilerOptions
  fileNames : List String
  references : List Reference
  /-- Problems that leave the configuration usable. -/
  errors : List Diagnostic

def Config.dir (config : Config) : String := Path.dir config.path

def Config.owns (fs : FileSystem) (config : Config) (file : String) : Bool :=
  config.fileNames.contains (fs.canonical file)

inductive ConfigError where
  | unreadable (e : FileError)
  | malformed (path : String)
  | invalid (path : String)
  | extendsEntry (path : String)
  | extendsKind (path : String)
  | circular (chain : List String)
  deriving DecidableEq, Repr

inductive ExtendsProblem where
  | entry
  | kind
  deriving DecidableEq, Repr

def ExtendsProblem.message : ExtendsProblem → String
  | .entry => "'extends' entries must be strings"
  | .kind => "'extends' must be a string or an array of strings"

def ConfigError.message : ConfigError → String
  | .unreadable e => e.message
  | .malformed path => path ++ ": failed to parse JSON: malformed text"
  | .invalid path => path ++ ": invalid config: value of the wrong kind"
  | .extendsEntry path => path ++ ": " ++ ExtendsProblem.entry.message
  | .extendsKind path => path ++ ": " ++ ExtendsProblem.kind.message
  | .circular chain =>
    "circularity detected while resolving configuration: " ++ String.intercalate " -> " chain

def extendsItem? : Json → Option String
  | .string value => some value
  | _ => none

def extendsList : Json → Except ExtendsProblem (List String)
  | .null => .ok []
  | .string value => .ok [value]
  | .array items =>
    match items.mapM extendsItem? with
    | some specifiers => .ok specifiers
    | none => .error .entry
  | _ => .error .kind

def isPathSpecifier (specifier : String) : Bool :=
  Path.isAbs specifier || Text.startsWith specifier "./" || Text.startsWith specifier "../" ||
    specifier == "." || specifier == ".."

def resolveExtendsPath? (fs : FileSystem) (path : String) : Option String :=
  if fs.isFile path then some path
  else if !Text.endsWith path ".json" && fs.isFile (path ++ ".json") then some (path ++ ".json")
  else none

def packageCandidates (specifier dir : String) : List String :=
  let base := Path.join [dir, "node_modules", specifier]
  [base, base ++ ".json", Path.join [base, configFileName]]

/-- The file an `extends` specifier stands for: a path, with or without `.json`, or a package in the nearest
directory above that holds one. -/
def resolveExtends? (fs : FileSystem) (specifier dir : String) : Option String :=
  if isPathSpecifier specifier then
    resolveExtendsPath? fs (if Path.isAbs specifier then specifier else Path.join [dir, specifier])
  else ((Path.ancestors dir).flatMap (packageCandidates specifier)).find? fs.isFile

/-- The configuration file that a reference stands for: a directory stands for the file in it. -/
def referencePath (path dir : String) : String :=
  let path := if Path.isAbs path then path else Path.join [dir, path]
  Path.clean (if Text.endsWith path ".json" then path else Path.join [path, configFileName])

structure PatternSet where
  patterns : List String
  dir : String
  deriving DecidableEq, Repr

structure Layer where
  options : CompilerOptions := .empty
  files : Option PatternSet := none
  included : Option PatternSet := none
  excluded : Option PatternSet := none
  references : List Reference := []

/-- Puts a layer on top of another; references are not passed on. -/
def Layer.apply (below above : Layer) : Layer where
  options := below.options.merge above.options
  files := above.files.or below.files
  included := above.included.or below.included
  excluded := above.excluded.or below.excluded
  references := below.references

def fileNotFound (name : String) : Diagnostic := .ofError .fileNotFound ("File '" ++ name ++ "' not found.")

def readRaw (fs : FileSystem) (path : String) : Except ConfigError RawConfig :=
  match fs.read path with
  | .error e => .error (.unreadable e)
  | .ok content =>
    match Json.parse? .lenient (Text.Utf8.decode content) with
    | none => .error (.malformed path)
    | some value =>
      match RawConfig.ofJson? value with
      | none => .error (.invalid path)
      | some raw => .ok raw

def readExtends (path : String) (raw : RawConfig) : Except ConfigError (List String) :=
  match extendsList raw.extending with
  | .ok specifiers => .ok specifiers
  | .error .entry => .error (.extendsEntry path)
  | .error .kind => .error (.extendsKind path)

def ownLayer (dir : String) (raw : RawConfig) : Layer × List Diagnostic :=
  let (options, reported) := CompilerOptions.ofFields dir raw.compilerOptions
  let patternSet (patterns : List String) : PatternSet := ⟨patterns, dir⟩
  ({ options := options
     files := raw.files.map patternSet
     included := raw.included.map patternSet
     excluded := raw.excluded.map patternSet
     references := (raw.references.filter (·.path ≠ "")).map fun reference =>
       ⟨referencePath reference.path dir, reference.prepend⟩ }, reported)

/-- Puts the configuration that a specifier stands for, as `load` reads it, on top of what is held. One that
is not found is reported and left out. -/
def addBase (fs : FileSystem) (dir : String) (load : String → Except ConfigError (Layer × List Diagnostic))
    (held : Layer × List Diagnostic) (specifier : String) : Except ConfigError (Layer × List Diagnostic) :=
  match resolveExtends? fs specifier dir with
  | none => .ok (held.1, held.2 ++ [fileNotFound specifier])
  | some base => do
    let (layer, more) ← load base
    return (held.1.apply layer, held.2 ++ more)

/-- Reads a configuration file and, before it, the files it extends. `chain` holds the files that are being
read; the fuel bounds its length, and there are fewer than `FileSystem.pathBound` of them. -/
def loadLayer (fs : FileSystem) : Nat → List String → String → Except ConfigError (Layer × List Diagnostic)
  | 0, chain, path => .error (.circular (chain ++ [path]))
  | fuel + 1, chain, path =>
    if chain.contains path then .error (.circular (chain ++ [path]))
    else do
      let raw ← readRaw fs path
      let specifiers ← readExtends path raw
      let dir := Path.dir path
      let (below, reported) ← specifiers.foldlM (addBase fs dir (loadLayer fs fuel (chain ++ [path]))) ({}, [])
      let (own, more) := ownLayer dir raw
      return ({ below.apply own with references := own.references }, reported ++ more)

def defaultExcludes : List String := ["node_modules", "bower_components", "jspm_packages"]

def addNew (held : List String) (path : String) : List String :=
  if held.contains path then held else held ++ [path]

def excludePatterns (layer : Layer) (configDir : String) : List String :=
  match layer.excluded with
  | some set => set.patterns.map (absPattern set.dir)
  | none =>
    defaultExcludes.map (fun name => Path.join [configDir, name]) ++
      match layer.options.path .outDir with
      | some dir => if dir = "" then [] else [dir]
      | none => []

/-- The patterns of what is taken in: everything, when the configuration lists neither files nor patterns. -/
def includeSet (layer : Layer) (configDir : String) : Option PatternSet :=
  match layer.included with
  | some set => some set
  | none => if layer.files.isNone then some ⟨["**/*"], configDir⟩ else none

def quoteList (items : List String) : String :=
  String.intercalate "," (items.map fun item => "\"" ++ item ++ "\"")

def noInputs (layer : Layer) (configPath : String) : Diagnostic :=
  let taken := ((includeSet layer (Path.dir configPath)).map (·.patterns)).getD []
  let leftOut := (layer.excluded.map (·.patterns)).getD defaultExcludes
  .ofError .noInputs
    ("No inputs were found in config file '" ++ configPath ++ "'. Specified 'include' paths were '[" ++
      quoteList taken ++ "]' and 'exclude' paths were '[" ++ quoteList leftOut ++ "]'.")

def listedFiles (layer : Layer) : List String :=
  match layer.files with
  | none => []
  | some set => set.patterns.map (absPattern set.dir)

def memberSightings (fs : FileSystem) (layer : Layer) (configPath : String) : List Sighting :=
  let configDir := Path.dir configPath
  match includeSet layer configDir with
  | none => []
  | some set =>
    set.patterns.flatMap fun pattern =>
      sightings fs (absPattern set.dir pattern) (excludePatterns layer configDir)

/-- The members by their canonical paths: the listed files first, then the files that patterns select. -/
def memberFiles (fs : FileSystem) (layer : Layer) (configPath : String) : List String :=
  ((listedFiles layer).filter fs.isFile ++ (memberSightings fs layer configPath).filterMap Sighting.file?).foldl
    (fun held path => addNew held (fs.canonical path)) []

def memberProblems (fs : FileSystem) (layer : Layer) (configPath : String) : List Diagnostic :=
  ((listedFiles layer).filter (!fs.isFile ·)).map fileNotFound ++
    if memberFiles fs layer configPath = [] then [noInputs layer configPath] else []

def settleFile (path : String) (d : Diagnostic) : Diagnostic := if d.file = "" then d.inFile path else d

def parse (fs : FileSystem) (path : String) : Run LogEntry (Except ConfigError Config) :=
  let path := fs.abs path
  match loadLayer fs FileSystem.pathBound [] path with
  | .error e => pure (.error e)
  | .ok (layer, reported) => do
    Run.marks ((memberSightings fs layer path).filterMap Sighting.log?)
    return .ok
      { path := path
        options := layer.options
        fileNames := memberFiles fs layer path
        references := layer.references
        errors := (reported ++ memberProblems fs layer path).map (settleFile path) }

end ScriptLoader.Project
