import ScriptLoader.Proofs.Project.PlacedLayers

/-!
Projects that are moved. What a project's configuration makes its members does not depend on the directory the project
stands in, as long as the names on the way to the directory mean nothing in a pattern.
-/

set_option autoImplicit false
namespace ScriptLoader.Project
open Relation
open FileTree (pathIn)

/-! ## The members of a plan -/

namespace Plan
variable (plan : Plan)

def leftOut : List Location :=
  plan.excluded.getD (defaultExcludes.map ([·]) ++ plan.outDir.toList)

def taken : List Location :=
  plan.included.getD (if plan.files.isNone then [["*", "**"]] else [])

end Plan

def addNewLocation (held : List Location) (location : Location) : List Location :=
  if held.contains location then held else held ++ [location]

/-- A set of patterns and the locations it stands for are given together or not at all. -/
theorem both_or_neither {dir : Location} {set? : Option PatternSet} {locations? : Option (List Location)}
    (same : set?.map PatternSet.absolute = locations?.map (·.map (pathIn dir))) :
    (set? = none ∧ locations? = none) ∨
      ∃ set locations, set? = some set ∧ locations? = some locations ∧ set.absolute = locations.map (pathIn dir) := by
  cases set? with
  | none => exact .inl ⟨rfl, Option.map_eq_none_iff.mp same.symm⟩
  | some set =>
    obtain ⟨locations, given, placed⟩ := Option.map_eq_some_iff.mp same.symm
    exact .inr ⟨set, locations, rfl, given, placed.symm⟩

section
variable {tree : FileTree} {dir : Location} {fs : FileSystem} (holds : Holds tree dir fs) {plan : Plan} {layer : Layer}
  (describes : Describes plan dir layer)
include describes

theorem listedFiles_described : listedFiles layer = (plan.files.getD []).map (pathIn dir) := by
  rw [listedFiles]
  rcases both_or_neither describes.files with ⟨unset, none_given⟩ | ⟨set, locations, known, given, placed⟩
  · rw [unset, none_given]
    rfl
  · rw [known, given]
    exact placed

include holds

theorem excludePatterns_described : excludePatterns layer (pathIn dir []) = plan.leftOut.map (pathIn dir) := by
  rw [excludePatterns, Plan.leftOut]
  rcases both_or_neither describes.excluded with ⟨unset, none_given⟩ | ⟨set, locations, known, given, placed⟩
  · have usual : defaultExcludes.map (fun name => Path.join [pathIn dir [], name]) =
        (defaultExcludes.map ([·])).map (pathIn dir) := by
      have proper : Path.AllProper defaultExcludes := by decide
      rw [List.map_map]
      exact List.map_congr_left fun name mem => join_name holds (List.forall_mem_nil _) (proper name mem)
    rw [unset, none_given, Option.getD_none, List.map_append, ← usual, describes.outDir]
    cases plan.outDir with
    | none => rfl
    | some location =>
      have some_text : pathIn dir location ≠ "" := by
        intro empty
        have rooted := FileTree.isAbs_pathIn dir location
        rw [empty] at rooted
        cases rooted
      simp only [Option.map_some, if_neg some_text]
      rfl
  · rw [known, given]
    exact placed

theorem memberSightings_described :
    memberSightings fs layer (pathIn dir [configFileName]) =
      plan.taken.flatMap fun pattern => sightings fs (pathIn dir pattern) (plan.leftOut.map (pathIn dir)) := by
  have here : Path.dir (pathIn dir [configFileName]) = pathIn dir [] := FileTree.dir_pathIn holds.proper (by decide)
  -- All absolute patterns are walked for alike.
  have walked : ∀ (set : PatternSet) (locations : List Location), set.absolute = locations.map (pathIn dir) →
      (set.patterns.flatMap fun pattern => sightings fs (absPattern set.dir pattern) (plan.leftOut.map (pathIn dir))) =
        locations.flatMap fun pattern => sightings fs (pathIn dir pattern) (plan.leftOut.map (pathIn dir)) := by
    intro set locations placed
    have sighted := congrArg (List.flatMap fun path => sightings fs path (plan.leftOut.map (pathIn dir))) placed
    rwa [PatternSet.absolute, List.flatMap_map, List.flatMap_map] at sighted
  rw [memberSightings, here, excludePatterns_described holds describes, includeSet, Plan.taken]
  rcases both_or_neither describes.included with ⟨unset, none_given⟩ | ⟨set, locations, known, given, placed⟩
  · have listed : layer.files.isNone = plan.files.isNone := by
      rcases both_or_neither describes.files with ⟨unset, none_given⟩ | ⟨set, locations, known, given, -⟩
      · rw [unset, none_given]
        rfl
      · rw [known, given]
        rfl
    have stays : StaysInside [] "**/*" := by decide
    have all : absPattern (pathIn dir []) "**/*" = pathIn dir ["*", "**"] :=
      stays.absPattern (List.forall_mem_nil _) holds
    rw [unset, none_given, Option.getD_none, listed]
    cases plan.files.isNone with
    | true => exact walked ⟨["**/*"], pathIn dir []⟩ [["*", "**"]] (congrArg ([·]) all)
    | false => rfl
  · rw [known, given]
    exact walked set locations placed

end

theorem fileNames_parse (fs : FileSystem) (path : String) :
    (parse fs path).value.toOption.map (·.fileNames) =
      (loadLayer fs FileSystem.pathBound [] (fs.abs path)).toOption.map fun loaded =>
      memberFiles fs loaded.1 (fs.abs path) := by
  cases loading : loadLayer fs FileSystem.pathBound [] (fs.abs path) with
  | error e =>
    rw [parse_eq_error.mpr loading]
    rfl
  | ok loaded =>
    rw [parse_of_loaded loading]
    rfl

section
variable {tree : FileTree} (plain : tree.WithoutLinks)
include plain

theorem exists_listed {locations : List Location} (proper : ∀ location ∈ locations, Path.AllProper location) :
    ∃ kept : List Location, (∀ location ∈ kept, Path.AllProper location) ∧
      ∀ (dir : Location) (fs : FileSystem), Holds tree dir fs →
        (locations.map (pathIn dir)).filter fs.isFile = kept.map (pathIn dir) := by
  classical
  let there (location : Location) : Bool :=
    FileTree.Reached tree location ∧ ∃ content, tree.entry? location = some (.file content)
  refine ⟨locations.filter there, fun location mem => proper location (List.mem_of_mem_filter mem),
    fun dir fs holds => ?_⟩
  rw [List.filter_map]
  congr 1
  apply List.filter_congr
  intro location mem
  rw [Function.comp_apply, Bool.eq_iff_iff, holds.isFile_pathIn plain (proper location mem), decide_eq_true_iff]

theorem exists_found (named : tree.WellNamed) {wholeTree : Prop} {patterns : List Location} (leftOut : List Location)
    (valid : ∀ pattern ∈ patterns, Path.AllProper pattern ∧ (pattern = [] → wholeTree)) :
    ∃ found : List Location, (∀ location ∈ found, Path.AllProper location) ∧
      ∀ (dir : Location) (fs : FileSystem), Holds tree dir fs → (wholeTree → '.' ∉ (dir.headD "").toList) →
        (patterns.flatMap fun pattern =>
          sightings fs (pathIn dir pattern) (leftOut.map (pathIn dir))).filterMap Sighting.file? =
          found.map (pathIn dir) := by
  induction patterns with
  | nil => exact ⟨[], by simp, fun _ _ _ _ => rfl⟩
  | cons pattern rest ih =>
    obtain ⟨⟨proper, whole⟩, valid_rest⟩ := List.forall_mem_cons.mp valid
    obtain ⟨first, proper_first, sees⟩ := exists_sightings pattern leftOut plain named proper
    obtain ⟨later, proper_later, finds⟩ := ih valid_rest
    refine ⟨first ++ later, ?_, fun dir fs holds dotless => ?_⟩
    · intro location mem
      exact (List.mem_append.mp mem).elim (proper_first location) (proper_later location)
    · have files : (first.map fun location => Sighting.file (pathIn dir location)).filterMap Sighting.file? =
          first.map (pathIn dir) := by
        rw [List.filterMap_map]
        exact congrFun List.filterMap_eq_map first
      rw [List.flatMap_cons, List.filterMap_append, finds dir fs holds dotless,
        sees dir fs holds fun top => dotless (whole top), files, List.map_append]

theorem foldl_addNew {dir : Location} {fs : FileSystem} (holds : Holds tree dir fs) {locations held : List Location}
    (proper : ∀ location ∈ locations, Path.AllProper location)
    (proper_held : ∀ location ∈ held, Path.AllProper location) :
    (locations.map (pathIn dir)).foldl (fun held path => addNew held (fs.canonical path)) (held.map (pathIn dir)) =
      (locations.foldl addNewLocation held).map (pathIn dir) := by
  induction locations generalizing held with
  | nil => rfl
  | cons location rest ih =>
    obtain ⟨proper_first, proper_rest⟩ := List.forall_mem_cons.mp proper
    -- Without links a path is canonical already, so that the canonical paths are new where the locations are.
    have added : addNew (held.map (pathIn dir)) (fs.canonical (pathIn dir location)) =
        (addNewLocation held location).map (pathIn dir) := by
      rw [addNew, holds.canonical_pathIn plain proper_first, contains_pathIn holds proper_first proper_held,
        addNewLocation]
      split
      · rfl
      · rw [List.map_append, List.map_singleton]
    have proper_added : ∀ other ∈ addNewLocation held location, Path.AllProper other := by
      intro other mem
      rw [addNewLocation] at mem
      split at mem
      · exact proper_held other mem
      · rcases List.mem_append.mp mem with earlier | last
        · exact proper_held other earlier
        · rw [List.mem_singleton.mp last]
          exact proper_first
    rw [List.map_cons, List.foldl_cons, List.foldl_cons, added]
    exact ih proper_rest proper_added

/-- What a plan makes the members is the same in every directory. -/
theorem exists_memberFiles (named : tree.WellNamed) {wholeTree : Prop} {plan : Plan} (valid : plan.Valid wholeTree) :
    ∃ members : List Location, ∀ (dir : Location) (fs : FileSystem) (layer : Layer), Holds tree dir fs →
      (wholeTree → '.' ∉ (dir.headD "").toList) → Describes plan dir layer →
        memberFiles fs layer (pathIn dir [configFileName]) = members.map (pathIn dir) := by
  have proper_files : ∀ location ∈ plan.files.getD [], Path.AllProper location := by
    intro location mem
    cases given : plan.files with
    | none => simp [given] at mem
    | some locations => exact valid.files locations given location (by simpa [given] using mem)
  have valid_taken : ∀ pattern ∈ plan.taken, Path.AllProper pattern ∧ (pattern = [] → wholeTree) := by
    intro pattern mem
    rw [Plan.taken] at mem
    cases given : plan.included with
    | none =>
      rw [given, Option.getD_none] at mem
      split at mem
      · rw [List.mem_singleton.mp mem]
        exact ⟨by decide, by simp⟩
      · cases mem
    | some locations => exact valid.included locations given pattern (by simpa [given] using mem)
  obtain ⟨kept, proper_kept, keeps⟩ := exists_listed plain proper_files
  obtain ⟨found, proper_found, finds⟩ := exists_found plain named plan.leftOut valid_taken
  refine ⟨(kept ++ found).foldl addNewLocation [], fun dir fs layer holds dotless describes => ?_⟩
  have proper : ∀ location ∈ kept ++ found, Path.AllProper location := by
    intro location mem
    exact (List.mem_append.mp mem).elim (proper_kept location) (proper_found location)
  rw [memberFiles, listedFiles_described describes, keeps dir fs holds, memberSightings_described holds describes,
    finds dir fs holds dotless, ← List.map_append]
  exact foldl_addNew plain holds proper (List.forall_mem_nil _)

/-- Whether a configuration can be used, and what its members are, is the same in every directory. -/
theorem exists_members (named : tree.WellNamed) {home : Location} {fs₀ : FileSystem} (holds₀ : Holds tree home fs₀)
    (portable : ∀ file raw, Involves fs₀ home file raw → Portable file.tail raw) :
    ∃ members : Option (List Location), ∀ (dir : Location) (fs : FileSystem), Holds tree dir fs →
      (NamesTop fs₀ home → '.' ∉ (dir.headD "").toList) →
        (parse fs (pathIn dir [configFileName])).value.toOption.map (·.fileNames) =
        members.map (·.map (pathIn dir)) := by
  have proper : Path.AllProper [configFileName] := by decide
  obtain ⟨plan?, valid, amounts⟩ :=
    exists_load plain holds₀ portable FileSystem.pathBound (List.forall_mem_nil _) proper ReflTransGen.refl
  cases plan? with
  | none =>
    refine ⟨none, fun dir fs holds _ => ?_⟩
    have amounts_here := amounts dir fs holds
    rw [List.map_nil] at amounts_here
    rw [fileNames_parse, holds.abs_pathIn proper]
    generalize loadLayer fs FileSystem.pathBound [] (pathIn dir [configFileName]) = result at amounts_here ⊢
    cases amounts_here with
    | failed e => rfl
  | some plan =>
    obtain ⟨members, same⟩ := exists_memberFiles plain named (valid plan rfl)
    refine ⟨some members, fun dir fs holds dotless => ?_⟩
    have amounts_here := amounts dir fs holds
    rw [List.map_nil] at amounts_here
    rw [fileNames_parse, holds.abs_pathIn proper]
    generalize loadLayer fs FileSystem.pathBound [] (pathIn dir [configFileName]) = result at amounts_here ⊢
    cases amounts_here with
    | loaded describes => exact congrArg some (same dir fs _ holds dotless describes)

end

/-- A tree in a directory, with nothing around it, seen from there. -/
def standing (tree : FileTree) (dir : Location) : FileSystem :=
  ⟨tree.placed dir, pathIn dir [], FileTree.isAbs_pathIn dir []⟩

/-- The members of a tree's project, where the tree stands in a directory. -/
def membersIn (tree : FileTree) (dir : Location) : Option (List String) :=
  (parse (standing tree dir) (pathIn dir [configFileName])).value.toOption.map (·.fileNames)

/-- A project whose own directory is taken in by a configuration in another one. -/
def sharedSettings : FileTree :=
  ⟨[(["config"], .directory), (["base.json", "config"], .file (Text.Utf8.encode "\x7b\"include\": [\"..\"]\x7d")),
    (["src"], .directory), (["a.ts", "src"], .file []), (["old", "src"], .directory),
    (["b.ts", "old", "src"], .file []),
    (["tsconfig.json"], .file (Text.Utf8.encode "\x7b\"extends\": \"./config/base\", \"exclude\": [\"src/old\"]\x7d"))]⟩

theorem evaluated_sharedSettings :
    (bases? (standing sharedSettings ["p"]) "/p/tsconfig.json" = some ["/p/config/base.json"] ∧
      bases? (standing sharedSettings ["p"]) "/p/config/base.json" = some []) ∧
    (readRaw (standing sharedSettings ["p"]) "/p/tsconfig.json").toOption.all
      (fun raw => decide (Portable [] raw)) = true ∧
    (readRaw (standing sharedSettings ["p"]) "/p/config/base.json").toOption.all
      (fun raw => decide (Portable ["config"] raw)) =
      true := by
  decide +kernel

theorem membersIn_sharedSettings : membersIn sharedSettings ["p"] = some ["/p/src/a.ts"] := by decide +kernel

theorem holds_sharedSettings : Holds sharedSettings ["p"] (standing sharedSettings ["p"]) ∧
    Holds sharedSettings ["q", "home"] (standing sharedSettings ["q", "home"]) := by
  have literal : ∀ name ∈ ["p", "q", "home"], name.toList.all Glob.isLiteral = true := by decide +kernel
  have each : ∀ dir : Location, dir ⊆ ["p", "q", "home"] → ∀ name ∈ dir, ∀ c ∈ name.toList, Glob.isLiteral c = true :=
    fun dir among name mem => List.all_eq_true.mp (literal name (among mem))
  constructor
  · exact ⟨rfl, by decide, by decide +kernel, each _ (by decide), by decide +kernel⟩
  · exact ⟨rfl, by decide, by decide +kernel, each _ (by decide), by decide +kernel⟩

theorem portable_sharedSettings {file : Location} {raw : RawConfig}
    (involved : Involves (standing sharedSettings ["p"]) ["p"] file raw) : Portable file.tail raw := by
  obtain ⟨⟨top, base⟩, portable_top, portable_base⟩ := evaluated_sharedSettings
  have closed : ∀ file ∈ ["/p/tsconfig.json", "/p/config/base.json"],
      ∃ bases, bases? (standing sharedSettings ["p"]) file = some bases ∧
        ∀ base ∈ bases, base ∈ ["/p/tsconfig.json", "/p/config/base.json"] := by
    simp [top, base]
  have mem := mem_of_reached closed List.mem_cons_self involved.reached
  have at_place : ∀ other : Location, Path.AllProper other → pathIn ["p"] file = pathIn ["p"] other → file = other :=
    fun other proper same => FileTree.pathIn_injective (by decide) involved.proper proper same
  have read := involved.read
  rcases List.mem_cons.mp mem with same | later
  · obtain rfl := at_place ["tsconfig.json"] (by decide) same
    rw [same] at read
    rw [read] at portable_top
    exact of_decide_eq_true portable_top
  · have same := List.mem_singleton.mp later
    obtain rfl := at_place ["base.json", "config"] (by decide) same
    rw [same] at read
    rw [read] at portable_base
    exact of_decide_eq_true portable_base

/-- A project without links, whose configuration files use only relative paths inside the project, has the
same members in any two directories, by their paths from there, or can be used in neither. The directories are
not the root, and the names on the way to them mean nothing in a pattern; where a pattern takes in the
directory of the project by its bare name, that name has no extension. -/
theorem parse_members_relocated {tree : FileTree} (plain : tree.WithoutLinks)
    (named : tree.WellNamed) {dir dir' : Location}
    {fs fs' : FileSystem} (holds : Holds tree dir fs) (holds' : Holds tree dir' fs')
    (portable : ∀ file raw, Involves fs dir file raw → Portable file.tail raw)
    (dotless : NamesTop fs dir → '.' ∉ (dir.headD "").toList ∧ '.' ∉ (dir'.headD "").toList) :
    ∃ members : Option (List Location),
      (parse fs (pathIn dir [configFileName])).value.toOption.map (·.fileNames) = members.map (·.map (pathIn dir)) ∧
      (parse fs' (pathIn dir' [configFileName])).value.toOption.map (·.fileNames) =
      members.map (·.map (pathIn dir')) := by
  obtain ⟨members, same⟩ := exists_members plain named holds portable
  exact ⟨members, same dir fs holds fun top => (dotless top).1, same dir' fs' holds' fun top => (dotless top).2⟩

theorem parse_members_sharedSettings :
    sharedSettings.WithoutLinks ∧ sharedSettings.WellNamed ∧
      (∀ file raw, Involves (standing sharedSettings ["p"]) ["p"] file raw → Portable file.tail raw) ∧
      ∃ members : List Location,
        membersIn sharedSettings ["p"] = some (members.map (pathIn ["p"])) ∧
        membersIn sharedSettings ["q", "home"] = some (members.map (pathIn ["q", "home"])) ∧
        members.map (pathIn ["p"]) = ["/p/src/a.ts"] := by
  obtain ⟨holds, holds'⟩ := holds_sharedSettings
  have plain : sharedSettings.WithoutLinks := by decide
  have named : sharedSettings.WellNamed := by decide +kernel
  have portable := fun file raw => @portable_sharedSettings file raw
  obtain ⟨members?, first, second⟩ := parse_members_relocated plain named holds holds' portable fun _ => by decide
  have evaluated : members?.map (·.map (pathIn ["p"])) = some ["/p/src/a.ts"] :=
    first.symm.trans membersIn_sharedSettings
  obtain ⟨members, rfl, same⟩ := Option.map_eq_some_iff.mp evaluated
  exact ⟨plain, named, portable, members, first, second, same⟩

/-- A source file beside a configuration. -/
def oneSource (settings : String) : FileTree :=
  ⟨[(["a.ts"], .file []), (["tsconfig.json"], .file (Text.Utf8.encode settings))]⟩

/-- In a directory whose name means something in a pattern, the patterns of a project miss its own files. So
they do where a pattern takes in the directory by its bare name and the name has an extension; and a pattern
that leaves out the root leaves out nothing. -/
theorem membersIn_oneSource :
    (membersIn (oneSource "\x7b\x7d") ["q", "vroot"] = some ["/vroot/q/a.ts"] ∧
      membersIn (oneSource "\x7b\x7d") ["p[1]", "vroot"] = some []) ∧
    (membersIn (oneSource "\x7b\"include\": [\".\"]\x7d") ["q", "vroot"] = some ["/vroot/q/a.ts"] ∧
      membersIn (oneSource "\x7b\"include\": [\".\"]\x7d") ["q.d", "vroot"] = some []) ∧
    (membersIn (oneSource "\x7b\"exclude\": [\".\"]\x7d") ["q", "vroot"] = some [] ∧
      membersIn (oneSource "\x7b\"exclude\": [\".\"]\x7d") [] = some ["/a.ts"]) := by
  decide +kernel

end ScriptLoader.Project
