import ScriptLoader.Proofs.Options.Rendered
import ScriptLoader.Proofs.Project.Circularity
import ScriptLoader.Proofs.Project.PlacedMembers

/-!
Configuration files of a tree that stands in a directory. As long as they use only relative paths that stay
inside the tree, a file and all that it extends come to the same selection of the tree in every directory, or
fail in every directory.
-/

set_option autoImplicit false
namespace ScriptLoader.Project
open Relation
open FileTree (pathIn descend?)

/-! ## Paths that stay inside -/

/-- A relative path that on its way from a location never leads above the top of the tree. -/
def StaysInside (here : Location) (text : String) : Prop :=
  Path.isAbs text = false ∧ (descend? here (Text.pieces text '/')).isSome = true

instance (here : Location) (text : String) : Decidable (StaysInside here text) := inferInstanceAs (Decidable (_ ∧ _))

def target (here : Location) (text : String) : Location := (descend? here (Text.pieces text '/')).getD []

section
variable {here : Location} (proper : Path.AllProper here)
include proper

theorem StaysInside.proper_target {text : String} (stays : StaysInside here text) :
    Path.AllProper (target here text) := by
  obtain ⟨location, down⟩ := Option.isSome_iff_exists.mp stays.2
  rw [target, down]
  exact (FileTree.of_descend? proper (fun _ mem => Text.not_mem_of_mem_pieces mem) down).1

theorem StaysInside.join {text : String} (stays : StaysInside here text) {tree : FileTree}
    {dir : Location} {fs : FileSystem}
    (holds : Holds tree dir fs) : Path.join [pathIn dir here, text] = pathIn dir (target here text) := by
  obtain ⟨location, down⟩ := Option.isSome_iff_exists.mp stays.2
  rw [target, down, FileTree.join_pathIn holds.proper proper down]
  rfl

theorem StaysInside.absPattern {text : String} (stays : StaysInside here text) {tree : FileTree} {dir : Location}
    {fs : FileSystem} (holds : Holds tree dir fs) :
    Project.absPattern (pathIn dir here) text = pathIn dir (target here text) := by
  rw [Project.absPattern, stays.1]
  simp only [Bool.false_eq_true, if_false]
  rw [stays.join proper holds, FileTree.clean_pathIn holds.proper (stays.proper_target proper)]

end

/-! ## What a file extends -/

theorem isSuffix_append_cons {α : Type} {separator : α} {ending before last : List α} (absent : separator ∉ ending) :
    ending <:+ before ++ separator :: last ↔ ending <:+ last := by
  have whole : last <:+ before ++ separator :: last := (List.suffix_cons separator last).trans (List.suffix_append _ _)
  constructor
  · intro part
    by_cases short : ending.length ≤ last.length
    · exact List.suffix_of_suffix_length_le part whole short
    · have longer : separator :: last <:+ ending :=
        List.suffix_of_suffix_length_le (List.suffix_append before _) part (by simp only [List.length_cons]; omega)
      exact absurd (longer.subset List.mem_cons_self) absent
  · intro part
    exact part.trans whole

theorem endsWith_pathIn {dir : Location} (below_root : dir ≠ []) (name : String) (above : Location) :
    Text.endsWith (pathIn dir (name :: above)) ".json" = Text.endsWith name ".json" := by
  have chars : (pathIn dir (name :: above)).toList = (pathIn dir above).toList ++ '/' :: name.toList := by
    rw [← pathIn_append below_root]
    simp
  have absent : '/' ∉ ".json".toList := by decide
  rw [Text.endsWith, Text.endsWith, Bool.eq_iff_iff, List.isSuffixOf_iff_suffix, List.isSuffixOf_iff_suffix, chars]
  exact isSuffix_append_cons absent

section
variable {tree : FileTree} (plain : tree.WithoutLinks)
include plain

/-- What a path stands for as a file that is extended does not depend on the directory. -/
theorem exists_resolveExtendsPath? {location : Location} (proper : Path.AllProper location) :
    ∃ base? : Option Location, (∀ base, base? = some base → Path.AllProper base) ∧
      ∀ (dir : Location) (fs : FileSystem), Holds tree dir fs →
        resolveExtendsPath? fs (pathIn dir location) = base?.map (pathIn dir) := by
  by_cases file : FileTree.Reached tree location ∧ ∃ content, tree.entry? location = some (.file content)
  · refine ⟨some location, by rintro _ ⟨⟩; exact proper, fun dir fs holds => ?_⟩
    rw [resolveExtendsPath?, if_pos ((holds.isFile_pathIn plain proper).mpr file)]
    rfl
  · cases location with
    | nil =>
      refine ⟨none, by simp, fun dir fs holds => ?_⟩
      rw [resolveExtendsPath?, if_neg (mt (holds.isFile_pathIn plain proper).mp file), holds.not_isFile_beside plain]
      simp
    | cons name above =>
      obtain ⟨proper_name, proper_above⟩ := List.forall_mem_cons.mp proper
      have proper_longer : Path.AllProper ((name ++ ".json") :: above) :=
        List.forall_mem_cons.mpr ⟨proper_name.append_json, proper_above⟩
      have longer : ∀ dir : Location, dir ≠ [] →
          pathIn dir (name :: above) ++ ".json" = pathIn dir ((name ++ ".json") :: above) := by
        intro dir below_root
        rw [← pathIn_append below_root, ← pathIn_append below_root, String.append_assoc]
      by_cases found : Text.endsWith name ".json" = false ∧ FileTree.Reached tree ((name ++ ".json") :: above) ∧
          ∃ content, tree.entry? ((name ++ ".json") :: above) = some (.file content)
      · refine ⟨some ((name ++ ".json") :: above), by rintro _ ⟨⟩; exact proper_longer, fun dir fs holds => ?_⟩
        have there := (holds.isFile_pathIn plain proper_longer).mpr found.2
        rw [resolveExtendsPath?, if_neg (mt (holds.isFile_pathIn plain proper).mp file), longer dir holds.below_root,
          endsWith_pathIn holds.below_root, found.1, there]
        rfl
      · refine ⟨none, by simp, fun dir fs holds => ?_⟩
        have missing : ¬ ((!Text.endsWith name ".json") && fs.isFile (pathIn dir ((name ++ ".json") :: above))) =
            true := by
          rw [Bool.and_eq_true, holds.isFile_pathIn plain proper_longer]
          simpa using found
        rw [resolveExtendsPath?, if_neg (mt (holds.isFile_pathIn plain proper).mp file), longer dir holds.below_root,
          endsWith_pathIn holds.below_root, if_neg missing]
        rfl

theorem readRaw_iff {location : Location} (proper : Path.AllProper location) {dir dir' : Location}
    {fs fs' : FileSystem} (holds : Holds tree dir fs) (holds' : Holds tree dir' fs') {raw : RawConfig} :
    readRaw fs (pathIn dir location) = .ok raw ↔ readRaw fs' (pathIn dir' location) = .ok raw := by
  simp only [readRaw_eq_ok, holds.read_pathIn plain proper, holds'.read_pathIn plain proper]

end

/-! ## What a file says itself -/

def outDirText? (member : String × Json) : Option String :=
  match member with
  | (name, .string text) => if name = PathOption.outDir.name then some text else none
  | _ => none

theorem outDirText?_of_ne {name : String} (other : name ≠ PathOption.outDir.name) (value : Json) :
    outDirText? (name, value) = none := by
  cases value <;> simp [outDirText?, other]

/-- The output directory after a member was read, or left out. -/
theorem outDir_readMember (base : String) (o : CompilerOptions) (name : String) (value : Json) :
    (match CompilerOptions.readMember base o name value with
      | .ok read => read.path .outDir
      | .error _ => o.path .outDir) =
      ((outDirText? (name, value)).map (CompilerOptions.resolvePath base)).or (o.path .outDir) := by
  by_cases named : name = PathOption.outDir.name
  · subst named
    have key : OptionKey.ofName PathOption.outDir.name = .path .outDir := by decide
    cases value <;> simp [CompilerOptions.readMember, key, CompilerOptions.readString, outDirText?, Except.map,
      CompilerOptions.setPath]
  · -- Every other member leaves the output directory as it is.
    have kept : ∀ {α : Type} {result : Except Diagnostic α} {set : α → CompilerOptions},
        (∀ a, (set a).path .outDir = o.path .outDir) →
        (match result.map set with
          | .ok read => read.path .outDir
          | .error _ => o.path .outDir) = o.path .outDir := by
      intro α result set same
      cases result with
      | error d => rfl
      | ok a => exact same a
    rw [outDirText?_of_ne named, Option.map_none, Option.none_or]
    unfold CompilerOptions.readMember
    cases key : OptionKey.ofName name with
    | extra => rfl
    | path p =>
      have differs : PathOption.outDir ≠ p := by
        rintro rfl
        have same := OptionKey.name_ofName (by rw [key]; simp)
        rw [key] at same
        exact named same.symm
      exact kept fun text => by simp [CompilerOptions.setPath, differs]
    | _ => exact kept fun _ => rfl

theorem outDir_readMembers (base : String) (o : CompilerOptions) (members : List (String × Json)) :
    (CompilerOptions.readMembers base o members).1.path .outDir =
      ((members.filterMap outDirText?).getLast?.map (CompilerOptions.resolvePath base)).or (o.path .outDir) := by
  induction members generalizing o with
  | nil => rfl
  | cons member rest ih =>
    obtain ⟨name, value⟩ := member
    have own := outDir_readMember base o name value
    have last : (((name, value) :: rest).filterMap outDirText?).getLast? =
        (rest.filterMap outDirText?).getLast?.or (outDirText? (name, value)) := by
      cases text : outDirText? (name, value) with
      | none => simp [text]
      | some text => simp [text, List.getLast?_cons]
    rw [CompilerOptions.readMembers, last, Option.map_or, Option.or_assoc, ← own]
    cases CompilerOptions.readMember base o name value with
    | ok read => exact ih read
    | error d => exact ih o

/-- A configuration file in a directory of the tree uses only relative paths that stay inside the tree. -/
structure Portable (here : Location) (raw : RawConfig) : Prop where
  bases : ∀ specifier ∈ (extendsList raw.extending).toOption.getD [],
    isPathSpecifier specifier = true ∧ StaysInside here specifier
  files : ∀ text ∈ raw.files.getD [], StaysInside here text
  included : ∀ text ∈ raw.included.getD [], StaysInside here text
  excluded : ∀ text ∈ raw.excluded.getD [], StaysInside here text
  outDir : ∀ text ∈ raw.compilerOptions.filterMap outDirText?, StaysInside here text

instance (here : Location) (raw : RawConfig) : Decidable (Portable here raw) :=
  decidable_of_iff (_ ∧ _ ∧ _ ∧ _ ∧ _)
    ⟨fun ⟨bases, files, included, excluded, outDir⟩ => ⟨bases, files, included, excluded, outDir⟩,
      fun ⟨bases, files, included, excluded, outDir⟩ => ⟨bases, files, included, excluded, outDir⟩⟩

/-- What configuration files select of a tree, by the locations of the tree. -/
structure Plan where
  files : Option (List Location) := none
  included : Option (List Location) := none
  excluded : Option (List Location) := none
  outDir : Option Location := none

namespace Plan

def apply (below above : Plan) : Plan where
  files := above.files.or below.files
  included := above.included.or below.included
  excluded := above.excluded.or below.excluded
  outDir := above.outDir.or below.outDir

def own (here : Location) (raw : RawConfig) : Plan where
  files := raw.files.map (·.map (target here))
  included := raw.included.map (·.map (target here))
  excluded := raw.excluded.map (·.map (target here))
  outDir := (raw.compilerOptions.filterMap outDirText?).getLast?.map (target here)

/-- All names stand for themselves, and a pattern for the whole tree is met only where that is allowed. -/
structure Valid (wholeTree : Prop) (plan : Plan) : Prop where
  files : ∀ locations, plan.files = some locations → ∀ location ∈ locations, Path.AllProper location
  included : ∀ locations, plan.included = some locations →
    ∀ location ∈ locations, Path.AllProper location ∧ (location = [] → wholeTree)
  excluded : ∀ locations, plan.excluded = some locations → ∀ location ∈ locations, Path.AllProper location
  outDir : ∀ location, plan.outDir = some location → Path.AllProper location

end Plan

def PatternSet.absolute (set : PatternSet) : List String := set.patterns.map (absPattern set.dir)

/-- In a directory, a layer selects what a plan says. -/
structure Describes (plan : Plan) (dir : Location) (layer : Layer) : Prop where
  files : layer.files.map PatternSet.absolute = plan.files.map (·.map (pathIn dir))
  included : layer.included.map PatternSet.absolute = plan.included.map (·.map (pathIn dir))
  excluded : layer.excluded.map PatternSet.absolute = plan.excluded.map (·.map (pathIn dir))
  outDir : layer.options.path .outDir = plan.outDir.map (pathIn dir)

section
variable {dir : Location} {plan above : Plan} {layer layer' : Layer}

theorem Describes.nothing (dir : Location) : Describes {} dir {} := ⟨rfl, rfl, rfl, rfl⟩

theorem Describes.apply (describes : Describes plan dir layer) (describes' : Describes above dir layer') :
    Describes (plan.apply above) dir (layer.apply layer') := by
  constructor
  · simp only [Layer.apply, Plan.apply, Option.map_or, describes.files, describes'.files]
  · simp only [Layer.apply, Plan.apply, Option.map_or, describes.included, describes'.included]
  · simp only [Layer.apply, Plan.apply, Option.map_or, describes.excluded, describes'.excluded]
  · simp only [Layer.apply, Plan.apply, CompilerOptions.merge, Option.map_or, describes.outDir, describes'.outDir]

theorem Plan.Valid.apply {wholeTree : Prop} (valid : Valid wholeTree plan) (valid' : Valid wholeTree above) :
    Valid wholeTree (plan.apply above) := by
  have either : ∀ {α : Type} {value : α} {first second : Option α}, second.or first = some value →
      first = some value ∨ second = some value := by
    intro α value first second same
    rcases Option.or_eq_some_iff.mp same with same | ⟨-, same⟩
    · exact .inr same
    · exact .inl same
  constructor
  · intro locations same
    exact (either same).elim (valid.files locations) (valid'.files locations)
  · intro locations same
    exact (either same).elim (valid.included locations) (valid'.included locations)
  · intro locations same
    exact (either same).elim (valid.excluded locations) (valid'.excluded locations)
  · intro location same
    exact (either same).elim (valid.outDir location) (valid'.outDir location)

theorem Plan.Valid.nothing (wholeTree : Prop) : Valid wholeTree {} := by
  constructor <;> intro _ unset <;> cases unset

end

section
variable {tree : FileTree} {here : Location} {raw : RawConfig} (proper : Path.AllProper here)
  (portable : Portable here raw)
include proper portable

theorem describes_own {dir : Location} {fs : FileSystem} (holds : Holds tree dir fs) :
    Describes (Plan.own here raw) dir (ownLayer (pathIn dir here) raw).1 := by
  have listed : ∀ {texts? : Option (List String)}, (∀ text ∈ texts?.getD [], StaysInside here text) →
      (texts?.map fun texts => (⟨texts, pathIn dir here⟩ : PatternSet)).map PatternSet.absolute =
        (texts?.map (·.map (target here))).map (·.map (pathIn dir)) := by
    intro texts? stays
    cases texts? with
    | none => rfl
    | some texts =>
      simp only [Option.map_some, PatternSet.absolute, List.map_map, Option.some.injEq]
      exact List.map_congr_left fun text mem => (stays text mem).absPattern proper holds
  constructor
  · exact listed portable.files
  · exact listed portable.included
  · exact listed portable.excluded
  · have read := outDir_readMembers (pathIn dir here) .empty raw.compilerOptions
    rw [ownLayer, CompilerOptions.ofFields]
    dsimp only
    rw [read, Plan.own]
    cases last : (raw.compilerOptions.filterMap outDirText?).getLast? with
    | none => rfl
    | some text =>
      have mem := List.mem_of_getLast? last
      have placed : CompilerOptions.resolvePath (pathIn dir here) text = pathIn dir (target here text) :=
        (portable.outDir text mem).absPattern proper holds
      simp [placed]

theorem valid_own {wholeTree : Prop}
    (whole : ∀ text ∈ raw.included.getD [], target here text = [] → wholeTree) :
    Plan.Valid wholeTree (Plan.own here raw) := by
  constructor
  · intro locations same location mem
    obtain ⟨texts, given, rfl⟩ := Option.map_eq_some_iff.mp same
    obtain ⟨text, listed, rfl⟩ := List.mem_map.mp mem
    exact (portable.files text (by rwa [given])).proper_target proper
  · intro locations same location mem
    obtain ⟨texts, given, rfl⟩ := Option.map_eq_some_iff.mp same
    obtain ⟨text, listed, rfl⟩ := List.mem_map.mp mem
    have among : text ∈ raw.included.getD [] := by rwa [given]
    exact ⟨(portable.included text among).proper_target proper, whole text among⟩
  · intro locations same location mem
    obtain ⟨texts, given, rfl⟩ := Option.map_eq_some_iff.mp same
    obtain ⟨text, listed, rfl⟩ := List.mem_map.mp mem
    exact (portable.excluded text (by rwa [given])).proper_target proper
  · intro location same
    obtain ⟨text, last, rfl⟩ := Option.map_eq_some_iff.mp same
    exact (portable.outDir text (List.mem_of_getLast? last)).proper_target proper

end

/-! ## A file with all it extends -/

/-- In a directory, what came of reading a configuration file: a failure, or a layer that selects what a plan says. -/
inductive Amounts (dir : Location) : Except ConfigError (Layer × List Diagnostic) → Option Plan → Prop where
  | failed (e : ConfigError) : Amounts dir (.error e) none
  | loaded {plan : Plan} {layer : Layer} {reported : List Diagnostic} (describes : Describes plan dir layer) :
    Amounts dir (.ok (layer, reported)) (some plan)

theorem Amounts.finish {dir : Location} {folded : Except ConfigError (Layer × List Diagnostic)} {below? : Option Plan}
    (amounts : Amounts dir folded below?) {base : String} {raw : RawConfig} {own : Plan}
    (describes : Describes own dir (ownLayer base raw).1) :
    Amounts dir (folded.map (Project.finish base raw)) (below?.map (·.apply own)) := by
  cases amounts with
  | failed e => exact .failed e
  | loaded below =>
    have whole := below.apply describes
    exact .loaded ⟨whole.files, whole.included, whole.excluded, whole.outDir⟩

section
variable {tree : FileTree} (plain : tree.WithoutLinks)
include plain

theorem exists_resolveExtends? {here : Location} (proper : Path.AllProper here) {specifier : String}
    (path : isPathSpecifier specifier = true) (stays : StaysInside here specifier) :
    ∃ base? : Option Location, (∀ base, base? = some base → Path.AllProper base) ∧
      ∀ (dir : Location) (fs : FileSystem), Holds tree dir fs →
        resolveExtends? fs specifier (pathIn dir here) = base?.map (pathIn dir) := by
  obtain ⟨base?, proper_base, resolved⟩ := exists_resolveExtendsPath? plain (stays.proper_target proper)
  refine ⟨base?, proper_base, fun dir fs holds => ?_⟩
  rw [resolveExtends?, if_pos path, stays.1]
  simp only [Bool.false_eq_true, if_false]
  rw [stays.join proper holds, resolved dir fs holds]

variable {home : Location} {fs₀ : FileSystem} (holds₀ : Holds tree home fs₀)
include holds₀

/-- Files that each come to the same in every directory do so one on top of the other. -/
theorem exists_addBases {wholeTree : Prop} {here : Location} (proper : Path.AllProper here)
    (load : FileSystem → Location → String → Except ConfigError (Layer × List Diagnostic)) {specifiers : List String}
    (inside : ∀ specifier ∈ specifiers, isPathSpecifier specifier = true ∧ StaysInside here specifier)
    (loads : ∀ specifier ∈ specifiers, ∀ base, Path.AllProper base →
      resolveExtends? fs₀ specifier (pathIn home here) = some (pathIn home base) →
      ∃ plan? : Option Plan, (∀ plan, plan? = some plan → plan.Valid wholeTree) ∧
        ∀ (dir : Location) (fs : FileSystem), Holds tree dir fs → Amounts dir (load fs dir (pathIn dir base)) plan?)
    {held : Plan} (valid : held.Valid wholeTree) :
    ∃ plan? : Option Plan, (∀ plan, plan? = some plan → plan.Valid wholeTree) ∧
      ∀ (dir : Location) (fs : FileSystem) (layer : Layer) (reported : List Diagnostic), Holds tree dir fs →
        Describes held dir layer →
        Amounts dir (specifiers.foldlM (addBase fs (pathIn dir here) (load fs dir)) (layer, reported)) plan? := by
  induction specifiers generalizing held with
  | nil =>
    refine ⟨some held, ?_, fun dir fs layer reported _ describes => .loaded describes⟩
    rintro _ ⟨⟩
    exact valid
  | cons specifier rest ih =>
    obtain ⟨⟨path, stays⟩, inside_rest⟩ := List.forall_mem_cons.mp inside
    obtain ⟨loads_first, loads_rest⟩ := List.forall_mem_cons.mp loads
    obtain ⟨base?, proper_base, resolved⟩ := exists_resolveExtends? plain proper path stays
    cases base? with
    | none =>
      -- A specifier that stands for nothing is only reported.
      obtain ⟨plan?, valid_plan, folds⟩ := ih inside_rest loads_rest valid
      refine ⟨plan?, valid_plan, fun dir fs layer reported holds describes => ?_⟩
      rw [List.foldlM_cons, addBase_missing (resolved dir fs holds)]
      exact folds dir fs layer _ holds describes
    | some base =>
      obtain ⟨added?, valid_added, amounts⟩ := loads_first base (proper_base base rfl) (resolved home fs₀ holds₀)
      cases added? with
      | none =>
        refine ⟨none, by simp, fun dir fs layer reported holds describes => ?_⟩
        have amounts_here := amounts dir fs holds
        rw [List.foldlM_cons, addBase_found (resolved dir fs holds)]
        generalize load fs dir (pathIn dir base) = result at amounts_here
        cases amounts_here with
        | failed e => exact .failed e
      | some added =>
        obtain ⟨plan?, valid_plan, folds⟩ := ih inside_rest loads_rest (valid.apply (valid_added added rfl))
        refine ⟨plan?, valid_plan, fun dir fs layer reported holds describes => ?_⟩
        have amounts_here := amounts dir fs holds
        rw [List.foldlM_cons, addBase_found (resolved dir fs holds)]
        generalize load fs dir (pathIn dir base) = result at amounts_here
        cases amounts_here with
        | loaded added_describes => exact folds dir fs _ _ holds (describes.apply added_describes)

end

/-- A configuration file of a tree in a directory can be read, and the reading of the tree's own one comes to it. -/
structure Involves (fs : FileSystem) (dir file : Location) (raw : RawConfig) : Prop where
  proper : Path.AllProper file
  reached : ReflTransGen (Extends fs) (pathIn dir [configFileName]) (pathIn dir file)
  read : readRaw fs (pathIn dir file) = .ok raw

/-- One of the configuration files takes in the directory of the tree by its bare name. -/
def NamesTop (fs : FileSystem) (dir : Location) : Prop :=
  ∃ file raw, Involves fs dir file raw ∧ ∃ text ∈ raw.included.getD [], target file.tail text = []

section
variable {tree : FileTree} (plain : tree.WithoutLinks) {home : Location} {fs₀ : FileSystem}
  (holds₀ : Holds tree home fs₀)
  (portable : ∀ file raw, Involves fs₀ home file raw → Portable file.tail raw)
include plain holds₀ portable

/-- A configuration file with all that it extends selects the same of the tree in every directory, or fails in
every directory. -/
theorem exists_load (fuel : Nat) {chain : List Location} (proper_chain : ∀ other ∈ chain, Path.AllProper other)
    {file : Location} (proper : Path.AllProper file)
    (reached : ReflTransGen (Extends fs₀) (pathIn home [configFileName]) (pathIn home file)) :
    ∃ plan? : Option Plan, (∀ plan, plan? = some plan → plan.Valid (NamesTop fs₀ home)) ∧
      ∀ (dir : Location) (fs : FileSystem), Holds tree dir fs →
        Amounts dir (loadLayer fs fuel (chain.map (pathIn dir)) (pathIn dir file)) plan? := by
  -- On the way down it is kept that the reading at home comes to the file, which makes the file portable.
  induction fuel generalizing chain file with
  | zero => exact ⟨none, by simp, fun dir fs _ => .failed _⟩
  | succ fuel ih =>
    have circular_iff : ∀ (dir : Location) (fs : FileSystem), Holds tree dir fs →
        (pathIn dir file ∈ chain.map (pathIn dir) ↔ file ∈ chain) := by
      intro dir fs holds
      rw [← List.contains_iff_mem, contains_pathIn holds proper proper_chain, List.contains_iff_mem]
    by_cases circular : file ∈ chain
    · refine ⟨none, by simp, fun dir fs holds => ?_⟩
      rw [loadLayer_succ, if_pos ((circular_iff dir fs holds).mpr circular)]
      exact .failed _
    cases read : readRaw fs₀ (pathIn home file) with
    | error e =>
      refine ⟨none, by simp, fun dir fs holds => ?_⟩
      rw [loadLayer_succ, if_neg (mt (circular_iff dir fs holds).mp circular)]
      cases read' : readRaw fs (pathIn dir file) with
      | error e => exact .failed e
      | ok raw =>
        rw [(readRaw_iff plain proper holds holds₀).mp read'] at read
        cases read
    | ok raw =>
      have involved : Involves fs₀ home file raw := ⟨proper, reached, read⟩
      have reads : ∀ (dir : Location) (fs : FileSystem), Holds tree dir fs → readRaw fs (pathIn dir file) = .ok raw :=
        fun dir fs holds => (readRaw_iff plain proper holds₀ holds).mp read
      cases extending : extendsList raw.extending with
      | error problem =>
        refine ⟨none, by simp, fun dir fs holds => ?_⟩
        rw [loadLayer_succ, if_neg (mt (circular_iff dir fs holds).mp circular), reads dir fs holds]
        simp only [Except.bind]
        cases listed : readExtends (pathIn dir file) raw with
        | error e => exact .failed e
        | ok specifiers =>
          rw [readExtends_eq_ok.mp listed] at extending
          cases extending
      | ok specifiers =>
        cases file with
        | nil =>
          -- The top of the tree is a directory.
          obtain ⟨content, value, found, -⟩ := readRaw_eq_ok.mp read
          cases ((holds₀.read_pathIn plain proper).mp found).2
        | cons name here =>
          have proper_here : Path.AllProper here := (List.forall_mem_cons.mp proper).2
          have portable_here : Portable here raw := portable _ _ involved
          have inside := portable_here.bases
          rw [extending] at inside
          have dir_file : ∀ (dir : Location) (fs : FileSystem), Holds tree dir fs →
              Path.dir (pathIn dir (name :: here)) = pathIn dir here :=
            fun dir fs holds => FileTree.dir_pathIn holds.proper proper
          have valid : (Plan.own here raw).Valid (NamesTop fs₀ home) :=
            valid_own proper_here portable_here fun text mem top => ⟨_, raw, involved, text, mem, top⟩
          have proper_longer : ∀ other ∈ chain ++ [name :: here], Path.AllProper other := by
            intro other mem
            rcases List.mem_append.mp mem with earlier | last
            · exact proper_chain other earlier
            · rw [List.mem_singleton.mp last]
              exact proper
          obtain ⟨below?, valid_below, folds⟩ := exists_addBases plain holds₀ proper_here
            (fun fs dir => loadLayer fs fuel ((chain ++ [name :: here]).map (pathIn dir)))
            inside (fun specifier mem base proper_base resolved =>
              ih proper_longer proper_base
                (reached.tail ⟨raw, specifiers, ⟨read, readExtends_eq_ok.mpr extending⟩, specifier, mem,
                by rw [dir_file home fs₀ holds₀, resolved]⟩)) (Plan.Valid.nothing _)
          refine ⟨below?.map (·.apply (Plan.own here raw)), ?_, fun dir fs holds => ?_⟩
          · intro plan same
            obtain ⟨below, known, rfl⟩ := Option.map_eq_some_iff.mp same
            exact (valid_below below known).apply valid
          · have folded := folds dir fs {} [] holds (.nothing dir)
            rw [List.map_append, List.map_singleton] at folded
            rw [loadLayer_succ, if_neg (mt (circular_iff dir fs holds).mp circular), reads dir fs holds]
            simp only [Except.bind, readExtends_eq_ok.mpr extending, dir_file dir fs holds]
            exact folded.finish (describes_own proper_here portable_here holds)

end

end ScriptLoader.Project
