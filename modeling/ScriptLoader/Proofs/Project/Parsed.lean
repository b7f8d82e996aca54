import ScriptLoader.Project.Config
import ScriptLoader.Proofs.CleanPath

/-!
What is known of a configuration that was read, its path and the paths of its references, and how the
configurations of a file system refer to each other.
-/

set_option autoImplicit false
namespace ScriptLoader

theorem FileSystem.abs_abs (fs : FileSystem) (path : String) : fs.abs (fs.abs path) = fs.abs path :=
  Path.abs_abs fs.rooted path

theorem FileSystem.size_lt_of_locate {fs : FileSystem} {links : Nat} {path : String} {location : Location}
    (found : fs.locate links path = .ok location) : Text.Utf8.size path < maxPathSize := by
  rw [locate] at found
  split at found
  · cases found
  · split at found
    · cases found
    · split at found
      · cases found
      · rename_i short
        exact Nat.lt_of_not_le short

theorem FileSystem.size_lt_of_read {fs : FileSystem} {path : String} {content : List UInt8}
    (found : fs.read path = .ok content) : Text.Utf8.size path < maxPathSize := by
  rw [read] at found
  split at found
  · cases found
  · exact size_lt_of_locate ‹_›

theorem FileSystem.size_lt_of_isFile {fs : FileSystem} {path : String} (file : fs.isFile path = true) :
    Text.Utf8.size path < maxPathSize := by
  cases found : fs.locate maxLinks path with
  | error problem => simp [isFile, stat, found] at file
  | ok location => exact size_lt_of_locate found

namespace Project

theorem isAbs_referencePath {dir : String} (rooted : Path.isAbs dir = true) (path : String) :
    Path.isAbs (referencePath path dir) = true := by
  have from_root : Path.isAbs (if Path.isAbs path then path else Path.join [dir, path]) = true := by
    split
    · assumption
    · exact Path.isAbs_join rooted path
  unfold referencePath
  generalize (if Path.isAbs path then path else Path.join [dir, path]) = path at from_root
  apply Path.isAbs_clean
  split
  · exact from_root
  · exact Path.isAbs_join from_root _

theorem abs_referencePath (fs : FileSystem) {dir : String} (rooted : Path.isAbs dir = true) (path : String) :
    fs.abs (referencePath path dir) = referencePath path dir := by
  have absolute := isAbs_referencePath rooted path
  rw [referencePath] at absolute ⊢
  exact Path.abs_clean (by rwa [Path.isAbs_clean_eq] at absolute)

theorem references_ownLayer (dir : String) (raw : RawConfig) :
    (ownLayer dir raw).1.references = (raw.references.filter (·.path ≠ "")).map fun reference =>
      ⟨referencePath reference.path dir, reference.prepend⟩ := by
  rw [ownLayer]

theorem loadLayer_eq_ok {fs : FileSystem} {fuel : Nat} {chain : List String} {path : String} {layer : Layer}
    {reported : List Diagnostic} (loaded : loadLayer fs fuel chain path = .ok (layer, reported)) :
    ∃ raw, readRaw fs path = .ok raw ∧ layer.references = (ownLayer (Path.dir path) raw).1.references := by
  cases fuel with
  | zero => simp [loadLayer] at loaded
  | succ fuel =>
    rw [loadLayer] at loaded
    split at loaded
    · cases loaded
    · rcases read : readRaw fs path with e | raw
      · simp [read, bind, Except.bind] at loaded
      · refine ⟨raw, rfl, ?_⟩
        simp only [read, bind, Except.bind] at loaded
        split at loaded
        · cases loaded
        · split at loaded
          · cases loaded
          · cases loaded
            rfl

theorem size_lt_of_readRaw {fs : FileSystem} {path : String} {raw : RawConfig} (read : readRaw fs path = .ok raw) :
    Text.Utf8.size path < FileSystem.maxPathSize := by
  rw [readRaw] at read
  split at read
  · cases read
  · exact FileSystem.size_lt_of_read ‹_›

/-- A configuration has the absolute path under which it was read, and its references are those of its own file. -/
theorem parse_eq_ok {fs : FileSystem} {path : String} {config : Config} (parsed : (parse fs path).value = .ok config) :
    config.path = fs.abs path ∧ ∃ raw, readRaw fs (fs.abs path) = .ok raw ∧
      config.references = (ownLayer (Path.dir (fs.abs path)) raw).1.references := by
  rw [parse] at parsed
  split at parsed
  · cases parsed
  · rename_i layer reported loaded
    obtain ⟨raw, read, references⟩ := loadLayer_eq_ok loaded
    cases parsed
    exact ⟨rfl, raw, read, references⟩

theorem parse_of_loaded {fs : FileSystem} {path : String} {layer : Layer} {reported : List Diagnostic}
    (loaded : loadLayer fs FileSystem.pathBound [] (fs.abs path) = .ok (layer, reported)) :
    (parse fs path).value = .ok
      { path := fs.abs path
        options := layer.options
        fileNames := memberFiles fs layer (fs.abs path)
        references := layer.references
        errors := (reported ++ memberProblems fs layer (fs.abs path)).map (settleFile (fs.abs path)) } := by
  rw [parse, loaded]
  rfl

theorem parse_eq_error {fs : FileSystem} {path : String} {e : ConfigError} :
    (parse fs path).value = .error e ↔ loadLayer fs FileSystem.pathBound [] (fs.abs path) = .error e := by
  cases loaded : loadLayer fs FileSystem.pathBound [] (fs.abs path) with
  | error other =>
    have failed : (parse fs path).value = .error other := by
      rw [parse, loaded]
      rfl
    rw [failed]
    simp
  | ok result =>
    rw [parse_of_loaded loaded]
    simp

theorem parse_abs (fs : FileSystem) (path : String) : parse fs (fs.abs path) = parse fs path := by
  rw [parse, parse, fs.abs_abs]

theorem parse_path {fs : FileSystem} {path : String} {config : Config}
    (parsed : (parse fs path).value = .ok config) : (parse fs config.path).value = .ok config := by
  rw [(parse_eq_ok parsed).1, parse_abs]
  exact parsed

theorem size_path_lt {fs : FileSystem} {path : String} {config : Config}
    (parsed : (parse fs path).value = .ok config) : Text.Utf8.size config.path < FileSystem.maxPathSize := by
  obtain ⟨same, raw, read, -⟩ := parse_eq_ok parsed
  rw [same]
  exact size_lt_of_readRaw read

theorem abs_reference {fs : FileSystem} {path : String} {config : Config} (parsed : (parse fs path).value = .ok config)
    {reference : Reference} (mem : reference ∈ config.references) :
    Path.isAbs reference.path = true ∧ fs.abs reference.path = reference.path := by
  obtain ⟨-, raw, -, references⟩ := parse_eq_ok parsed
  have rooted : Path.isAbs (Path.dir (fs.abs path)) = true := Path.isAbs_dir (fs.isAbs_abs path)
  rw [references, references_ownLayer] at mem
  obtain ⟨written, -, rfl⟩ := List.mem_map.mp mem
  dsimp only
  exact ⟨isAbs_referencePath rooted written.path, abs_referencePath fs rooted written.path⟩

/-- The configuration at a path can be used. -/
def Parses (fs : FileSystem) (path : String) : Prop := ∃ config, (parse fs path).value = .ok config

/-- The configuration at a path can be used and has another path among its references. -/
def Refers (fs : FileSystem) (path other : String) : Prop :=
  ∃ config, (parse fs path).value = .ok config ∧ other ∈ config.references.map (·.path)

/-- A project depends on the others it refers to, as far as they can be used. -/
def DependsOn (fs : FileSystem) (path other : String) : Prop := Refers fs path other ∧ path ≠ other ∧ Parses fs other

/-- The paths that the configuration at a path refers to, if it can be used. -/
def references? (fs : FileSystem) (path : String) : Option (List String) :=
  (parse fs path).value.toOption.map fun config => config.references.map (·.path)

theorem references?_eq_some {fs : FileSystem} {path : String} {paths : List String} :
    references? fs path = some paths ↔
      ∃ config, (parse fs path).value = .ok config ∧ config.references.map (·.path) = paths := by
  rw [references?]
  cases (parse fs path).value <;> simp [Except.toOption]

theorem parses_iff {fs : FileSystem} {path : String} : Parses fs path ↔ (references? fs path).isSome = true := by
  rw [references?, Option.isSome_map, Parses]
  cases (parse fs path).value <;> simp [Except.toOption]

theorem refers_iff {fs : FileSystem} {path other : String} :
    Refers fs path other ↔ other ∈ (references? fs path).getD [] := by
  cases read : references? fs path with
  | none =>
    simp only [Option.getD_none, List.not_mem_nil, iff_false]
    rintro ⟨config, parsed, -⟩
    have some_read := references?_eq_some.mpr ⟨config, parsed, rfl⟩
    rw [read] at some_read
    cases some_read
  | some paths =>
    obtain ⟨config, parsed, rfl⟩ := references?_eq_some.mp read
    simp [Refers, parsed]

instance (fs : FileSystem) (path : String) : Decidable (Parses fs path) := decidable_of_iff _ parses_iff.symm

instance (fs : FileSystem) (path other : String) : Decidable (Refers fs path other) :=
  decidable_of_iff _ refers_iff.symm

theorem Refers.abs {fs : FileSystem} {path other : String} (refers : Refers fs path other) :
    Path.isAbs other = true ∧ fs.abs other = other := by
  obtain ⟨config, parsed, mem⟩ := refers
  obtain ⟨reference, held, rfl⟩ := List.mem_map.mp mem
  exact abs_reference parsed held

end Project
end ScriptLoader
