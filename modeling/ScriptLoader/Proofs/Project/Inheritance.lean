import ScriptLoader.Proofs.Options.Rendered
import ScriptLoader.Proofs.Project.Extending

/-!
What a configuration takes from the files it extends. These are come to one after the other, each after the
files that it extends itself, and the last file with something to say on a matter decides it: on each option
by itself, and on each list of patterns as a whole.
-/

set_option autoImplicit false
namespace ScriptLoader.Project

open Relation ScriptLoader.Graph

/-- What the last of some items to have a value has. -/
def lastOf {α β : Type} (items : List α) (value? : α → Option β) : Option β := items.reverse.findSome? value?

section
variable {α β γ : Type} (items more : List α) (value? : α → Option β)

@[simp] theorem lastOf_singleton (item : α) : lastOf [item] value? = value? item := by
  cases set : value? item <;> simp [lastOf, set]

theorem lastOf_append : lastOf (items ++ more) value? = (lastOf more value?).or (lastOf items value?) := by
  rw [lastOf, List.reverse_append, List.findSome?_append, lastOf, lastOf]

theorem lastOf_map (f : β → γ) : (lastOf items fun item => (value? item).map f) = (lastOf items value?).map f := by
  rw [lastOf, lastOf, List.map_findSome?]
  rfl

end

/-! ## The way through the files -/

/-- What is come to on the way through all that a configuration extends. -/
inductive Visit where
  | config (path : String)
  | missing (specifier : String)
  deriving DecidableEq

def Visit.path? : Visit → Option String
  | .config path => some path
  | .missing _ => none

def follow (fs : FileSystem) (dir : String) (visits : String → List Visit) (specifiers : List String) : List Visit :=
  specifiers.flatMap fun specifier =>
    match resolveExtends? fs specifier dir with
    | none => [.missing specifier]
    | some base => visits base

/-- The way through what a file extends, up to the file itself, as far as the fuel goes. -/
def visitsWithin (fs : FileSystem) : Nat → String → List Visit
  | 0, _ => []
  | fuel + 1, path =>
    match readRaw fs path with
    | .error _ => []
    | .ok raw =>
      match readExtends path raw with
      | .error _ => []
      | .ok specifiers => follow fs (Path.dir path) (visitsWithin fs fuel) specifiers ++ [.config path]

def visits (fs : FileSystem) (path : String) : List Visit := visitsWithin fs FileSystem.pathBound path

def filesOf (visits : List Visit) : List String := visits.filterMap Visit.path?

section
variable {fs : FileSystem} {path : String} {raw : RawConfig} {specifiers : List String} {fuel : Nat}
  {chain : List String}

theorem visitsWithin_of_reads (reads : Reads fs path raw specifiers) :
    visitsWithin fs (fuel + 1) path =
      follow fs (Path.dir path) (visitsWithin fs fuel) specifiers ++ [.config path] := by
  simp only [visitsWithin, reads.1, reads.2]

theorem follow_congr {dir : String} {visits visits' : String → List Visit}
    (same : ∀ specifier ∈ specifiers, ∀ base, resolveExtends? fs specifier dir = some base →
    visits base = visits' base) :
    follow fs dir visits specifiers = follow fs dir visits' specifiers := by
  refine List.flatMap_congr ?_
  intro specifier mem
  split
  · rfl
  · exact same specifier mem _ ‹_›

-- A file that was loaded has spent no more fuel than it had, and neither have the files that it extends.
theorem visitsWithin_of_le {more : Nat} {result : Layer × List Diagnostic}
    (loaded : loadLayer fs fuel chain path = .ok result) (le : fuel ≤ more) :
    visitsWithin fs more path = visitsWithin fs fuel path := by
  induction fuel generalizing chain path result more with
  | zero => cases loaded
  | succ fuel ih =>
    obtain ⟨more, rfl⟩ : ∃ less, more = less + 1 := ⟨more - 1, by omega⟩
    obtain ⟨raw, specifiers, below, reads, folded, -⟩ := of_loadLayer_eq_ok loaded
    rw [visitsWithin_of_reads reads, visitsWithin_of_reads reads]
    congr 1
    apply follow_congr
    intro specifier mem base resolved
    obtain ⟨layer, found⟩ := loaded_of_foldlM_addBase folded mem resolved
    exact ih found (by omega)

theorem visits_of_loaded {result : Layer × List Diagnostic}
    (loaded : loadLayer fs FileSystem.pathBound [] path = .ok result) (reads : Reads fs path raw specifiers) :
    visits fs path = follow fs (Path.dir path) (visits fs) specifiers ++ [.config path] := by
  rw [visits]
  cases bound : FileSystem.pathBound with
  | zero =>
    rw [bound] at loaded
    cases loaded
  | succ fuel =>
    rw [bound] at loaded
    rw [visitsWithin_of_reads reads]
    congr 1
    apply follow_congr
    intro specifier mem base resolved
    obtain ⟨raw', specifiers', below, reads', folded, -⟩ := of_loadLayer_eq_ok loaded
    obtain ⟨-, rfl⟩ := reads.unique reads'
    obtain ⟨layer, found⟩ := loaded_of_foldlM_addBase folded mem resolved
    exact (visitsWithin_of_le found (by omega)).symm

end

/-! ## What the files say -/

def declared (fs : FileSystem) (file : String) : RawConfig :=
  match readRaw fs file with
  | .ok raw => raw
  | .error _ => {}

def declaredOptions (fs : FileSystem) (file : String) : CompilerOptions :=
  (CompilerOptions.ofFields (Path.dir file) (declared fs file).compilerOptions).1

def declaredSet (fs : FileSystem) (field : RawConfig → Option (List String)) (file : String) : Option PatternSet :=
  (field (declared fs file)).map fun patterns => ⟨patterns, Path.dir file⟩

/-- The problems that are reported on the way: options that cannot be used, and specifiers that stand for nothing. -/
def Visit.reports (fs : FileSystem) : Visit → List Diagnostic
  | .config file => (CompilerOptions.ofFields (Path.dir file) (declared fs file).compilerOptions).2
  | .missing specifier => [fileNotFound specifier]

/-- What was loaded is what the files on the way say, the last of them first. -/
structure Accounts (fs : FileSystem) (visits : List Visit) (loaded : Layer × List Diagnostic) : Prop where
  formed : loaded.1.options.WellFormed
  options : ∀ name, loaded.1.options.toFields.get? name =
    lastOf (filesOf visits) fun file => (declaredOptions fs file).toFields.get? name
  files : loaded.1.files = lastOf (filesOf visits) (declaredSet fs (·.files))
  included : loaded.1.included = lastOf (filesOf visits) (declaredSet fs (·.included))
  excluded : loaded.1.excluded = lastOf (filesOf visits) (declaredSet fs (·.excluded))
  reported : loaded.2 = visits.flatMap (Visit.reports fs)

section
variable {fs : FileSystem} {visits more : List Visit} {held : Layer × List Diagnostic}

theorem Accounts.nil (fs : FileSystem) : Accounts fs [] ({}, []) :=
  ⟨CompilerOptions.wellFormed_empty, fun _ => rfl, rfl, rfl, rfl, rfl⟩

theorem Accounts.apply (accounts : Accounts fs visits held) {layer : Layer × List Diagnostic}
    (above : Accounts fs more layer) (references : List Reference) :
    Accounts fs (visits ++ more) ({ held.1.apply layer.1 with references := references }, held.2 ++ layer.2) := by
  have files : filesOf (visits ++ more) = filesOf visits ++ filesOf more := List.filterMap_append
  refine ⟨accounts.formed.merge above.formed, ?_, ?_, ?_, ?_, ?_⟩
  · intro name
    rw [files, lastOf_append, ← above.options, ← accounts.options]
    exact accounts.formed.get?_merge above.formed name
  · rw [files, lastOf_append, ← above.files, ← accounts.files]
    rfl
  · rw [files, lastOf_append, ← above.included, ← accounts.included]
    rfl
  · rw [files, lastOf_append, ← above.excluded, ← accounts.excluded]
    rfl
  · rw [List.flatMap_append, ← above.reported, ← accounts.reported]

theorem Accounts.missing (accounts : Accounts fs visits held) (specifier : String) :
    Accounts fs (visits ++ [.missing specifier]) (held.1, held.2 ++ [fileNotFound specifier]) := by
  have files : filesOf (visits ++ [.missing specifier]) = filesOf visits := by simp [filesOf, Visit.path?]
  constructor
  · exact accounts.formed
  · rw [files]
    exact accounts.options
  · rw [files]
    exact accounts.files
  · rw [files]
    exact accounts.included
  · rw [files]
    exact accounts.excluded
  · rw [List.flatMap_append, ← accounts.reported]
    rfl

theorem Accounts.own {path : String} {raw : RawConfig} (read : readRaw fs path = .ok raw) :
    Accounts fs [.config path] (ownLayer (Path.dir path) raw) := by
  have same : declared fs path = raw := by simp only [declared, read]
  have files : filesOf [.config path] = [path] := rfl
  constructor
  · exact CompilerOptions.wellFormed_ofFields _ _
  all_goals simp [files, ownLayer, declaredOptions, declaredSet, Visit.reports, same]

theorem Accounts.foldlM {dir : String} {load : String → Except ConfigError (Layer × List Diagnostic)}
    {onward : String → List Visit} {specifiers : List String} {below : Layer × List Diagnostic}
    (each : ∀ base layer, load base = .ok layer → Accounts fs (onward base) layer) (accounts : Accounts fs visits held)
    (folded : specifiers.foldlM (addBase fs dir load) held = .ok below) :
    Accounts fs (visits ++ follow fs dir onward specifiers) below := by
  induction specifiers generalizing visits held with
  | nil =>
    cases folded
    simpa [follow] using accounts
  | cons specifier rest ih =>
    rw [List.foldlM_cons] at folded
    rw [follow, List.flatMap_cons, ← List.append_assoc]
    cases resolved : resolveExtends? fs specifier dir with
    | none =>
      rw [addBase_missing resolved] at folded
      exact ih (accounts.missing specifier) folded
    | some base =>
      rw [addBase_found resolved] at folded
      cases found : load base with
      | error e =>
        rw [found] at folded
        cases folded
      | ok layer =>
        rw [found] at folded
        exact ih (accounts.apply (each base layer found) _) folded

/-- Whatever is loaded accounts for all that is on the way. -/
theorem accounts_of_loaded {fuel : Nat} {chain : List String} {path : String} {result : Layer × List Diagnostic}
    (loaded : loadLayer fs fuel chain path = .ok result) : Accounts fs (visitsWithin fs fuel path) result := by
  induction fuel generalizing chain path result with
  | zero => cases loaded
  | succ fuel ih =>
    obtain ⟨raw, specifiers, below, reads, folded, rfl⟩ := of_loadLayer_eq_ok loaded
    rw [visitsWithin_of_reads reads]
    -- What is extended accounts for the way up to here, and the file itself is put on top of it.
    have extended := (Accounts.nil fs).foldlM (fun base layer found => ih found) folded
    exact extended.apply (Accounts.own reads.1) _

end

theorem wellFormed_of_parse {fs : FileSystem} {path : String} {config : Config}
    (parsed : (parse fs path).value = .ok config) : config.options.WellFormed := by
  cases loaded : loadLayer fs FileSystem.pathBound [] (fs.abs path) with
  | error e =>
    rw [parse_eq_error.mpr loaded] at parsed
    cases parsed
  | ok result =>
    rw [parse_of_loaded loaded] at parsed
    cases parsed
    exact (accounts_of_loaded loaded).formed

/-! ## Options, members and problems -/

def overridden (fs : FileSystem) (files : List String) : Fields Json :=
  files.foldl (fun held file => held.insertAll (declaredOptions fs file).toFields) []

theorem get?_overridden (fs : FileSystem) (files : List String) (name : String) :
    (overridden fs files).get? name = lastOf files fun file => (declaredOptions fs file).toFields.get? name := by
  -- What was held before the first file is what is left when none of the files says anything.
  have onward : ∀ held : Fields Json,
      (files.foldl (fun held file => held.insertAll (declaredOptions fs file).toFields) held).get? name =
        (lastOf files fun file => (declaredOptions fs file).toFields.get? name).or (held.get? name) := by
    induction files with
    | nil => intro held; rfl
    | cons file rest ih =>
      intro held
      have formed : (declaredOptions fs file).WellFormed := CompilerOptions.wellFormed_ofFields _ _
      rw [List.foldl_cons, ih, Fields.get?_insertAll formed.increasing_toFields.nodup, ← List.singleton_append,
        lastOf_append, lastOf_singleton, Option.or_assoc]
  rw [overridden, onward []]
  exact Option.or_none

theorem increasing_overridden (fs : FileSystem) (files : List String) : (overridden fs files).Increasing := by
  have onward : ∀ held : Fields Json, held.Increasing →
      (files.foldl (fun held file => held.insertAll (declaredOptions fs file).toFields) held).Increasing := by
    induction files with
    | nil => exact fun held increasing => increasing
    | cons file rest ih =>
      intro held increasing
      rw [List.foldl_cons]
      exact ih _ (increasing.insertAll (declaredOptions fs file).toFields)
  exact onward [] List.Pairwise.nil

/-- Absolute patterns: of files that are members, of files to look for, and of what is left out. -/
structure Selection where
  listed : List String
  included : List String
  excluded : List String

/-- The patterns in the last file to have a list of them, each seen from the directory of that file. -/
def lastPatterns (fs : FileSystem) (field : RawConfig → Option (List String)) (files : List String) :
    Option (List String) :=
  lastOf files fun file => (field (declared fs file)).map fun patterns => patterns.map (absPattern (Path.dir file))

/-- What the files of a configuration select. Without patterns of what to look for everything below its
directory is taken, unless files are listed; without patterns of what to leave out there are some for packages
and output. -/
def selection (fs : FileSystem) (files : List String) (dir : String) (outDir : Option String) : Selection where
  listed := (lastPatterns fs (·.files) files).getD []
  included := (lastPatterns fs (·.included) files).getD
    (if (lastPatterns fs (·.files) files).isNone then [absPattern dir "**/*"] else [])
  excluded := (lastPatterns fs (·.excluded) files).getD
    (defaultExcludes.map (fun name => Path.join [dir, name]) ++ outDir.toList.filter (· ≠ ""))

/-- The files that are listed and those that are found, once each. -/
def Selection.members (fs : FileSystem) (selected : Selection) : List String :=
  (selected.listed.filter fs.isFile ++
    selected.included.flatMap fun pattern => walkPattern fs pattern selected.excluded).foldl
      (fun held path => addNew held (fs.canonical path)) []

theorem lastPatterns_eq (fs : FileSystem) (field : RawConfig → Option (List String)) (files : List String) :
    lastPatterns fs field files = (lastOf files (declaredSet fs field)).map fun set =>
      set.patterns.map (absPattern set.dir) := by
  have same : (fun file => (field (declared fs file)).map fun patterns => patterns.map (absPattern (Path.dir file))) =
      fun file => (declaredSet fs field file).map fun set => set.patterns.map (absPattern set.dir) := by
    funext file
    simp only [declaredSet, Option.map_map, Function.comp_def]
  rw [lastPatterns, same, lastOf_map]

/-- The lists of patterns that the files come to, with the options and references of a configuration. -/
def inherited (fs : FileSystem) (files : List String) (options : CompilerOptions) (references : List Reference) :
    Layer where
  options := options
  files := lastOf files (declaredSet fs (·.files))
  included := lastOf files (declaredSet fs (·.included))
  excluded := lastOf files (declaredSet fs (·.excluded))
  references := references

section
variable {fs : FileSystem} {files : List String} {options : CompilerOptions} {references : List Reference}

theorem listedFiles_inherited (dir : String) :
    listedFiles (inherited fs files options references) = (selection fs files dir (options.path .outDir)).listed := by
  simp only [listedFiles, inherited, selection, lastPatterns_eq]
  cases lastOf files (declaredSet fs (·.files)) <;> rfl

theorem excludePatterns_inherited (dir : String) :
    excludePatterns (inherited fs files options references) dir =
      (selection fs files dir (options.path .outDir)).excluded := by
  simp only [excludePatterns, inherited, selection, lastPatterns_eq]
  cases lastOf files (declaredSet fs (·.excluded)) with
  | some set => rfl
  | none =>
    dsimp only [Option.map_none, Option.getD_none]
    congr 1
    cases options.path .outDir with
    | none => rfl
    | some dir => by_cases blank : dir = "" <;> simp [blank]

theorem includeSet_inherited (dir : String) :
    ((includeSet (inherited fs files options references) dir).map fun set =>
    set.patterns.map (absPattern set.dir)).getD [] =
      (selection fs files dir (options.path .outDir)).included := by
  simp only [includeSet, inherited, selection, lastPatterns_eq, Option.isNone_map]
  cases lastOf files (declaredSet fs (·.included)) with
  | some set => rfl
  | none => by_cases none_listed : (lastOf files (declaredSet fs (·.files))).isNone = true <;> simp [none_listed]

theorem memberSightings_inherited (path : String) :
    (memberSightings fs (inherited fs files options references) path).filterMap Sighting.file? =
      (selection fs files (Path.dir path) (options.path .outDir)).included.flatMap fun pattern =>
        walkPattern fs pattern (selection fs files (Path.dir path) (options.path .outDir)).excluded := by
  rw [memberSightings, excludePatterns_inherited, ← includeSet_inherited]
  cases includeSet (inherited fs files options references) (Path.dir path) with
  | none => rfl
  | some set =>
    simp only [Option.map_some, Option.getD_some, List.filterMap_flatMap, List.flatMap_map]
    rfl

theorem memberFiles_inherited (path : String) :
    memberFiles fs (inherited fs files options references) path =
      (selection fs files (Path.dir path) (options.path .outDir)).members fs := by
  rw [memberFiles, listedFiles_inherited (Path.dir path), memberSightings_inherited, Selection.members]

variable {visits : List Visit} {loaded : Layer × List Diagnostic}

theorem Accounts.eq_inherited (accounts : Accounts fs visits loaded) :
    loaded.1 = inherited fs (filesOf visits) loaded.1.options loaded.1.references := by
  simp only [inherited, ← accounts.files, ← accounts.included, ← accounts.excluded]

end

/-- A configuration that comes to one file in two ways, of which the second is the later. -/
def sharedBase : FileSystem :=
  ⟨⟨[(["p"], .directory), (["lib", "p"], .directory), (["a.ts", "p"], .file []),
    (["tsconfig.json", "p"],
      .file (Text.Utf8.encode "\x7b\"extends\": [\"./left\", \"./none\", \"/p/./right\"]\x7d")),
    (["left.json", "p"],
      .file (Text.Utf8.encode "\x7b\"extends\": \"./lib/base\", \"compilerOptions\": \x7b\"outDir\": \"out\"\x7d\x7d")),
    (["right.json", "p"], .file (Text.Utf8.encode "\x7b\"extends\": \"./lib/base\", \"files\": [\"a.ts\"]\x7d")),
    (["base.json", "lib", "p"],
      .file (Text.Utf8.encode "\x7b\"compilerOptions\": \x7b\"outDir\": \"built\"\x7d, \"files\": [\"b.ts\"]\x7d"))]⟩,
    "/", by decide⟩

-- All that is asked of these files is evaluated at once, so that each of them is read once.
theorem evaluated_sharedBase :
    (bases? sharedBase "/p/tsconfig.json" = some ["/p/left.json", "/p/./right.json"] ∧
      bases? sharedBase "/p/left.json" = some ["/p/lib/base.json"] ∧
      bases? sharedBase "/p/./right.json" = some ["/p/lib/base.json"] ∧
      bases? sharedBase "/p/lib/base.json" = some []) ∧
    visits sharedBase "/p/tsconfig.json" =
      [.config "/p/lib/base.json", .config "/p/left.json", .missing "./none", .config "/p/lib/base.json",
        .config "/p/./right.json", .config "/p/tsconfig.json"] ∧
    (visits sharedBase "/p/tsconfig.json").flatMap (Visit.reports sharedBase) = [fileNotFound "./none"] ∧
    (lastOf (filesOf (visits sharedBase "/p/tsconfig.json")) fun file =>
      (declaredOptions sharedBase file).toFields.get? "outDir").bind extendsItem? = some "/p/lib/built" ∧
    lastPatterns sharedBase (·.files) (filesOf (visits sharedBase "/p/tsconfig.json")) = some ["/p/a.ts"] ∧
    lastPatterns sharedBase (·.included) (filesOf (visits sharedBase "/p/tsconfig.json")) = none := by
  decide +kernel

theorem not_reachesCycle_sharedBase : ¬ReachesCycle (Extends sharedBase) "/p/tsconfig.json" := by
  obtain ⟨top, left, right, base⟩ := evaluated_sharedBase.1
  have from_base := not_reachesCycle_of_bases base (by simp)
  have from_left := not_reachesCycle_of_bases left (by simpa using from_base)
  have from_right := not_reachesCycle_of_bases right (by simpa using from_base)
  exact not_reachesCycle_of_bases top (by simpa using ⟨from_left, from_right⟩)

theorem decodes_sharedBase {file : String} (reached : ReflTransGen (Extends sharedBase) "/p/tsconfig.json" file) :
    Decodes sharedBase file := by
  obtain ⟨top, left, right, base⟩ := evaluated_sharedBase.1
  have closed : ∀ file ∈ ["/p/tsconfig.json", "/p/left.json", "/p/./right.json", "/p/lib/base.json"],
      ∃ bases, bases? sharedBase file = some bases ∧
        ∀ base ∈ bases, base ∈ ["/p/tsconfig.json", "/p/left.json", "/p/./right.json", "/p/lib/base.json"] := by
    simp [top, left, right, base]
  exact decodes_of_reached closed List.mem_cons_self reached

theorem selection_sharedBase (outDir : Option String) :
    let selected := selection sharedBase (filesOf (visits sharedBase "/p/tsconfig.json")) "/p" outDir
    selected.listed = ["/p/a.ts"] ∧ selected.members sharedBase = ["/p/a.ts"] := by
  intro selected
  obtain ⟨-, -, -, -, files, included⟩ := evaluated_sharedBase
  have listed : selected.listed = ["/p/a.ts"] := by simp only [selected, selection, files, Option.getD_some]
  have none_included : selected.included = [] := by
    simp only [selected, selection, files, included, Option.getD_none, Option.isNone_some, Bool.false_eq_true, if_false]
  refine ⟨listed, ?_⟩
  rw [Selection.members, listed, none_included, List.flatMap_nil]
  decide +kernel

/-- Where files that extend each other do not go round and can all be read, the last file on the way through
them decides: on each option by its name, and on each list of patterns as a whole and as seen from its own
directory. References are those of the configuration's own file, and a specifier that stands for nothing is
reported once where it is come to. -/
theorem parse_last_file_decides (fs : FileSystem) (path : String)
    (acyclic : ¬ReachesCycle (Extends fs) (fs.abs path))
    (decodes : ∀ file, ReflTransGen (Extends fs) (fs.abs path) file → Decodes fs file) :
    let top := fs.abs path
    let files := filesOf (visits fs top)
    (∀ file raw specifiers, ReflTransGen (Extends fs) top file → Reads fs file raw specifiers →
      visits fs file = follow fs (Path.dir file) (visits fs) specifiers ++ [.config file]) ∧
    ∃ config, (parse fs path).value = .ok config ∧
      config.options.toFields = overridden fs files ∧
      (∀ name, config.options.toFields.get? name =
        lastOf files fun file => (declaredOptions fs file).toFields.get? name) ∧
      config.fileNames = (selection fs files (Path.dir top) (config.options.path .outDir)).members fs ∧
      config.references = ((declared fs top).references.filter (·.path ≠ "")).map (fun reference =>
        ⟨referencePath reference.path (Path.dir top), reference.prepend⟩) ∧
      config.errors = ((visits fs top).flatMap (Visit.reports fs) ++
        memberProblems fs (inherited fs files config.options config.references) top).map (settleFile top) ∧
      ∀ specifier, (fileNotFound specifier).code.value = 6053 := by
  intro top files
  have loads : ∀ file, ReflTransGen (Extends fs) top file →
      ∃ result, loadLayer fs FileSystem.pathBound [] file = .ok result := by
    intro file reached
    refine loaded_of_not_reachesCycle (fun other further => decodes other (reached.trans further)) ?_
    rintro ⟨other, further, cycle⟩
    exact acyclic ⟨other, reached.trans further, cycle⟩
  constructor
  · intro file raw specifiers reached reads
    obtain ⟨result, loaded⟩ := loads file reached
    exact visits_of_loaded loaded reads
  · obtain ⟨⟨layer, reported⟩, loaded⟩ := loads top .refl
    have accounts : Accounts fs (visits fs top) (layer, reported) := accounts_of_loaded loaded
    refine ⟨_, parse_of_loaded loaded, ?_, accounts.options, ?_, ?_, ?_, fun _ => rfl⟩
    · refine accounts.formed.increasing_toFields.ext (increasing_overridden fs files) ?_
      intro name
      rw [get?_overridden]
      exact accounts.options name
    · rw [← memberFiles_inherited, ← accounts.eq_inherited]
    · obtain ⟨raw, read, references⟩ := loadLayer_eq_ok loaded
      have same : declared fs top = raw := by simp only [declared, top, read]
      rw [same, ← references_ownLayer]
      exact references
    · rw [← accounts.reported, ← accounts.eq_inherited]

/-- The file that is come to twice overrides what stands between, and the list of files of another one
replaces its own. -/
theorem parse_sharedBase :
    ¬ReachesCycle (Extends sharedBase) (sharedBase.abs "p/tsconfig.json") ∧
      (∀ file, ReflTransGen (Extends sharedBase) (sharedBase.abs "p/tsconfig.json") file → Decodes sharedBase file) ∧
      ∃ config, (parse sharedBase "p/tsconfig.json").value = .ok config ∧
        config.options.toFields.get? "outDir" = some (.string "/p/lib/built") ∧ config.fileNames = ["/p/a.ts"] ∧
        config.errors = [(fileNotFound "./none").inFile "/p/tsconfig.json"] := by
  have whole : sharedBase.abs "p/tsconfig.json" = "/p/tsconfig.json" := by decide +kernel
  have acyclic : ¬ReachesCycle (Extends sharedBase) (sharedBase.abs "p/tsconfig.json") := by
    rw [whole]
    exact not_reachesCycle_sharedBase
  have decodes : ∀ file, ReflTransGen (Extends sharedBase) (sharedBase.abs "p/tsconfig.json") file →
      Decodes sharedBase file :=
    fun file reached => decodes_sharedBase (whole ▸ reached)
  obtain ⟨-, config, parsed, -, options, members, -, errors, -⟩ :=
    parse_last_file_decides sharedBase "p/tsconfig.json" acyclic decodes
  rw [whole] at options members errors
  obtain ⟨-, -, reports, text, -⟩ := evaluated_sharedBase
  obtain ⟨listed, found⟩ := selection_sharedBase (config.options.path .outDir)
  have dir : Path.dir "/p/tsconfig.json" = "/p" := by decide +kernel
  refine ⟨acyclic, decodes, config, parsed, ?_, ?_, ?_⟩
  · obtain ⟨value, set, item⟩ := Option.bind_eq_some_iff.mp text
    rw [options, set]
    cases value <;> simp_all [extendsItem?]
  · rw [members, dir, found]
  · rw [errors, memberProblems, memberFiles_inherited, listedFiles_inherited "/p", dir, listed, found,
      reports, if_neg (by simp)]
    decide +kernel

end ScriptLoader.Project
