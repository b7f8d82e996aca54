import ScriptLoader.Proofs.FileNames
import ScriptLoader.Proofs.Pipeline.ReportedFormat

/-!
The format in which a project is built and the format in which a member of it is compiled alone. A project is
built in one format for all its members. Where the module kind decides file by file this is the format of a
file in the directory of the configuration, and a member that is of another kind by its own name or package
gets the wrong one.
-/

set_option autoImplicit false
namespace ScriptLoader

open Project

namespace ModuleFormat
open ScriptLoader.Path (AllProper ofComponents)

/-- Whether the name of a file alone decides its module kind. -/
def isDecidedByName (path : String) : Bool := [".mts", ".mjs", ".cts", ".cjs"].contains (Path.ext path)

def packages (fs : FileSystem) (dir : String) : List (List UInt8) :=
  (Path.ancestors dir).filterMap fun above => (fs.read (Path.join [above, "package.json"])).toOption

def kindOf : Option (List UInt8) → ModuleKind
  | some content => if PackageFile.declaresModule content then .esNext else .commonJS
  | none => .commonJS

theorem implied_of_package {fs : FileSystem} {path : String} (undecided : isDecidedByName path = false) :
    implied fs path = kindOf (packages fs (Path.dir path)).head? := by
  simp only [isDecidedByName, List.contains_eq_mem, List.mem_cons, List.not_mem_nil, or_false, decide_eq_false_iff_not,
    not_or] at undecided
  obtain ⟨not_mts, not_mjs, not_cts, not_cjs⟩ := undecided
  rw [implied, if_neg (by simp [not_mts, not_mjs]), if_neg (by simp [not_cts, not_cjs])]
  dsimp only
  rw [← packages]
  cases (packages fs (Path.dir path)).head? <;> rfl

/-- The nearest package file is the one beside a file, or else that of the directory above. -/
theorem packages_concat (fs : FileSystem) {rooted : Bool} {names : List String} {last : String}
    (proper : AllProper (names ++ [last])) :
    packages fs (ofComponents rooted (names ++ [last])) =
      (fs.read (ofComponents rooted (names ++ [last, "package.json"]))).toOption.toList ++
        packages fs (ofComponents rooted names) := by
  have proper_above : AllProper names := fun name mem => proper name (List.mem_append_left _ mem)
  have own : Path.join [ofComponents rooted (names ++ [last]), "package.json"] =
      ofComponents rooted (names ++ [last, "package.json"]) := by
    rw [Path.join_proper proper (by decide), List.append_assoc]
    rfl
  have inner : (names ++ [last]).reverse = last :: names.reverse := by simp
  have whole : (last :: names.reverse).reverse = names ++ [last] := by simp
  simp only [packages, Path.ancestors, Path.isAbs_of_proper proper, Path.isAbs_of_proper proper_above,
    Path.components_ofComponents proper, Path.components_ofComponents proper_above, inner,
    Path.tails, List.map_cons, whole, List.filterMap_cons, own]
  cases (fs.read (ofComponents rooted (names ++ [last, "package.json"]))).toOption <;> rfl

theorem packages_nil (fs : FileSystem) (rooted : Bool) :
    packages fs (ofComponents rooted []) = (fs.read (ofComponents rooted ["package.json"])).toOption.toList := by
  have proper : AllProper [] := fun _ mem => absurd mem List.not_mem_nil
  simp only [packages, Path.ancestors, Path.isAbs_of_proper proper, Path.components_ofComponents proper,
    List.reverse_nil,
    Path.tails, List.map_cons, List.map_nil, List.filterMap_cons, List.filterMap_nil, Path.join_proper proper
    (show Path.Proper "package.json" by decide), List.nil_append]
  cases (fs.read (ofComponents rooted ["package.json"])).toOption <;> rfl

/-- Without a package file in between, the packages of a directory are those of a directory above it. -/
theorem packages_append (fs : FileSystem) {dir between : List String} (proper : AllProper (dir ++ between))
    (absent : ∀ level, level ≠ [] → level <+: between →
      (fs.read (ofComponents true (dir ++ level ++ ["package.json"]))).toOption = none) :
    packages fs (ofComponents true (dir ++ between)) = packages fs (ofComponents true dir) := by
  induction between using List.reverseRecOn with
  | nil => rw [List.append_nil]
  | append_singleton inner last ih =>
    rw [← List.append_assoc] at proper
    have nothing : (fs.read (ofComponents true (dir ++ inner ++ [last, "package.json"]))).toOption = none := by
      have here := absent (inner ++ [last]) (by simp) List.prefix_rfl
      simpa only [List.append_assoc, List.singleton_append] using here
    rw [← List.append_assoc, packages_concat fs proper, nothing, Option.toList_none, List.nil_append]
    refine ih (fun name mem => proper name (List.mem_append_left _ mem)) ?_
    exact fun level some_level part => absent level some_level (part.trans (List.prefix_append _ _))

end ModuleFormat

namespace Bundler
open ModuleFormat
variable {fs : FileSystem} {o : CompilerOptions} {name dir : String} {format : OutputFormat}

/-- The format asked for a file that is compiled alone, with the module kind that its place implies where that
counts. -/
def formatAlone (fs : FileSystem) (o : CompilerOptions) (name : String) : Except ModuleKind OutputFormat :=
  outputFormat name (if o.effectiveModule.isNode then some (implied fs name) else none) o

/-- It is the format asked for the file as a root of a program. -/
theorem outputFormat_of_readRoot {source : SourceFile} (read : readRoot fs o name = some source) :
    outputFormat source.fileName source.implied o = formatAlone fs o name := by
  have same_name : source.fileName = name := by
    rw [readRoot] at read
    split at read
    · cases read
    · cases read
      rfl
  rw [formatAlone, implied_of_readRoot read, same_name]

def formatOf (kind : ModuleKind) : OutputFormat := if kind = .commonJS then .commonJS else .module

theorem formatOf_implied_injective {path path' : String} :
    formatOf (implied fs path) = formatOf (implied fs path') ↔ implied fs path = implied fs path' := by
  rcases implied_eq fs path with same | same <;> rcases implied_eq fs path' with same' | same' <;>
    rw [same, same'] <;> decide

/-- Kinds that decide file by file are neither left as they are nor fixed. -/
theorem not_fixed_of_isNode {kind : ModuleKind} (node : kind.isNode = true) :
    kind ≠ .preserve ∧ kind ≠ .unset ∧ kind ≠ .commonJS := by
  refine ⟨?_, ?_, ?_⟩ <;> rintro rfl <;> revert node <;> decide

theorem formatAlone_of_isNode (node : o.effectiveModule.isNode = true) :
    formatAlone fs o name = .ok (formatOf (implied fs name)) := by
  obtain ⟨not_preserve, not_unset, not_common⟩ := not_fixed_of_isNode node
  have not_es := ModuleKind.not_isES_of_isNode node
  simp only [formatAlone, outputFormat, node, if_true, not_preserve, not_unset, not_common, not_es, or_self,
    Bool.false_eq_true, if_false]
  rw [infer_of_node name rfl node]
  rcases implied_eq fs name with same | same <;> rw [same] <;> rfl

theorem buildFormat_of_isNode (node : o.effectiveModule.isNode = true) :
    buildFormat fs dir o = formatOf (implied fs (Path.join [dir, "index.ts"])) := by
  obtain ⟨-, -, not_common⟩ := not_fixed_of_isNode node
  simp only [buildFormat, not_common, if_false, node, Bool.true_and, beq_iff_eq, formatOf]

/-- A kind that does not depend on the file gives a project the format that it gives each of its members. -/
theorem buildFormat_of_fixed (fixed : o.effectiveModule.isNode = false) (alone : formatAlone fs o name = .ok format)
    (asked : format ≠ .unchanged) : buildFormat fs dir o = format := by
  simp only [formatAlone, outputFormat, fixed, Bool.false_eq_true, if_false] at alone
  simp only [buildFormat, fixed, Bool.false_and, Bool.false_eq_true, if_false]
  split at alone
  · cases alone
    exact absurd rfl asked
  · split at alone
    · rename_i es
      cases alone
      rw [if_neg]
      intro common
      rw [common] at es
      cases es
    · split at alone
      · rename_i common
        cases alone
        rw [if_pos common]
      · cases alone

theorem buildFormat_eq_iff (alone : formatAlone fs o name = .ok format) (asked : format ≠ .unchanged) :
    buildFormat fs dir o = format ↔
      (o.effectiveModule.isNode = true → implied fs name = implied fs (Path.join [dir, "index.ts"])) := by
  by_cases node : o.effectiveModule.isNode = true
  · rw [formatAlone_of_isNode node] at alone
    rw [buildFormat_of_isNode node, ← Except.ok.inj alone, formatOf_implied_injective]
    simp [node, eq_comm]
  · have same : buildFormat fs dir o = format := buildFormat_of_fixed (Bool.eq_false_of_not_eq_true node) alone asked
    simp [node, same]

theorem format_buildRequest (fs : FileSystem) (config : Config) :
    (buildRequest fs config).format = buildFormat fs config.dir (config.options.normalize false) := rfl

/-- A project with sources is built by one request, and it is built well if that has no errors; one without
sources is left. -/
theorem buildProject_cases (bundler : Bundler) {setting : Setting} (going : setting.cancelled = false)
    (config : Config) :
    (buildEntries config = [] ∧ (bundler.buildProject setting config).trace = [] ∧
      (bundler.buildProject setting config).value = .ok ()) ∨
    (buildEntries config ≠ [] ∧
      (∃ logs : List LogEntry, (bundler.buildProject setting config).trace =
        .built (buildRequest setting.fs config) :: logs.map .log) ∧
      ((bundler.buildProject setting config).value = .ok () ↔
      bundler.build (buildRequest setting.fs config) = [])) := by
  unfold buildProject
  rw [going, if_neg Bool.false_ne_true]
  split
  · rename_i no_sources
    exact .inl ⟨no_sources, rfl, rfl⟩
  · rename_i some_source
    refine .inr ⟨some_source, ?_⟩
    dsimp only
    rw [Run.trace_bind, Run.value_bind]
    split
    · rename_i clean
      exact ⟨⟨[_], rfl⟩, by simpa using List.isEmpty_iff.mp clean⟩
    · rename_i failed
      exact ⟨⟨[], rfl⟩, by simpa using fun clean => failed (List.isEmpty_iff.mpr clean)⟩

theorem built_of_buildProject (bundler : Bundler) {setting : Setting} (going : setting.cancelled = false)
    {config : Config} (member : name ∈ buildEntries config) (request : BuildRequest) :
    .built request ∈ (bundler.buildProject setting config).trace ↔ request = buildRequest setting.fs config := by
  rcases bundler.buildProject_cases going config with ⟨no_sources, -⟩ | ⟨-, ⟨logs, trace⟩, -⟩
  · rw [no_sources] at member
    cases member
  · simp [trace]

end Bundler

namespace Project
variable {fs : FileSystem} {path : String} {config : Config}

/-- The directory of a configuration that was read starts at the root and is clean. -/
theorem settled_dir (parsed : (parse fs path).value = .ok config) :
    Path.isAbs config.dir = true ∧ Path.clean config.dir = config.dir := by
  have rooted : Path.isAbs config.path = true := by
    rw [(parse_eq_ok parsed).1]
    exact Path.isAbs_abs fs.rooted path
  exact ⟨Path.isAbs_dir rooted, Path.clean_clean (Path.splitLast config.path).1⟩

end Project

namespace Bundler
open ModuleFormat
open ScriptLoader.Path (AllProper ofComponents)
variable {bundler : Bundler} {setting : Setting} {path name : String} {config : Config} {format : OutputFormat}

/-- A member below the directory of its configuration, with no package file on the way and no kind by its
name, is of the kind of a file in that directory. -/
theorem implied_of_plain_member {fs : FileSystem} (parsed : (parse fs path).value = .ok config) {between : List String}
    {last : String} (proper : AllProper (between ++ [last]))
    (below : name = ofComponents true (Path.components config.dir ++ between ++ [last]))
    (undecided : isDecidedByName name = false)
    (absent : ∀ level, level ≠ [] → level <+: between →
      (fs.read (ofComponents true (Path.components config.dir ++ level ++ ["package.json"]))).toOption = none) :
    implied fs name = implied fs (Path.join [config.dir, "index.ts"]) := by
  obtain ⟨rooted, settled⟩ := settled_dir parsed
  have proper_dir := Path.proper_of_mem_components rooted
  have whole := Path.eq_ofComponents_of_clean rooted settled
  generalize Path.components config.dir = names at *
  have proper_between : AllProper (names ++ between) := by
    intro name mem
    rcases List.mem_append.mp mem with mem | mem
    · exact proper_dir name mem
    · exact proper name (List.mem_append_left _ mem)
  have proper_name : AllProper (names ++ between ++ [last]) := by
    intro name mem
    rcases List.mem_append.mp mem with mem | mem
    · exact proper_between name mem
    · exact proper name (List.mem_append_right _ mem)
  have proper_index : AllProper (names ++ ["index.ts"]) := by
    intro name mem
    rcases List.mem_append.mp mem with mem | mem
    · exact proper_dir name mem
    · exact List.mem_singleton.mp mem ▸ by decide
  have index : Path.join [config.dir, "index.ts"] = ofComponents true (names ++ ["index.ts"]) := by
    rw [whole, Path.join_proper proper_dir (by decide)]
  have undecided_index : isDecidedByName (ofComponents true (names ++ ["index.ts"])) = false := by
    rw [isDecidedByName, Path.ext_ofComponents names (by decide)]
    decide
  rw [index, implied_of_package undecided, implied_of_package undecided_index, below, Path.dir_ofComponents proper_name,
    Path.dir_ofComponents proper_index, packages_append fs proper_between absent]

/-- A project is built in one request, and a member that is given a format when it is compiled alone gets this
format from the build exactly if the module kind is the same for all files, or if the place of the member
implies the same kind as a file in the directory of the configuration. So it is for all members below that
directory that have no kind by their names and no package file on the way. -/
theorem buildProject_format_agrees_iff (bundler : Bundler) (going : setting.cancelled = false)
    (parsed : (parse setting.fs path).value = .ok config) (member : name ∈ buildEntries config)
    (asked : format ≠ .unchanged) (alone : formatAlone setting.fs (config.options.normalize false) name = .ok format) :
    ∃ request, (∀ other, .built other ∈ (bundler.buildProject setting config).trace ↔ other = request) ∧
      name ∈ request.entries ∧
      (request.format = format ↔ ((config.options.normalize false).effectiveModule.isNode = true →
        implied setting.fs name = implied setting.fs (Path.join [config.dir, "index.ts"]))) ∧
      (∀ between last, AllProper (between ++ [last]) →
        name = ofComponents true (Path.components config.dir ++ between ++ [last]) → isDecidedByName name = false →
        (∀ level, level ≠ [] → level <+: between →
          (setting.fs.read (ofComponents true (Path.components config.dir ++ level ++ ["package.json"]))).toOption =
          none) →
        request.format = format) := by
  refine ⟨buildRequest setting.fs config, bundler.built_of_buildProject going member, member, ?_, ?_⟩
  · rw [format_buildRequest, buildFormat_eq_iff alone asked]
  · intro between last proper below undecided absent
    rw [format_buildRequest, buildFormat_eq_iff alone asked]
    exact fun _ => implied_of_plain_member parsed proper below undecided absent

/-- A project with a plain member in a directory below, and a member that is a module by its name. -/
def mixedMembers : FileSystem :=
  ⟨⟨[(["q"], .directory), (["src", "q"], .directory), (["a.ts", "src", "q"], .file []), (["b.mts", "q"], .file []),
    (["tsconfig.json", "q"], .file (Text.Utf8.encode "\x7b\"files\":[\"src/a.ts\",\"b.mts\"]\x7d"))]⟩, "/q/src", rfl⟩

theorem evaluated_mixedMembers :
    ((parse mixedMembers "/q/tsconfig.json").value.toOption.map fun config =>
      (config.path :: buildEntries config,
        [(formatAlone mixedMembers (config.options.normalize false) "/q/src/a.ts").toOption,
          (formatAlone mixedMembers (config.options.normalize false) "/q/b.mts").toOption,
          some (buildRequest mixedMembers config).format],
        (readRoot mixedMembers (config.options.normalize false) "/q/b.mts").isSome)) =
      some (["/q/tsconfig.json", "/q/src/a.ts", "/q/b.mts"], [some .commonJS, some .module, some .commonJS], true) ∧
    (mixedMembers.read "/q/src/package.json").toOption.isNone = true := by
  decide +kernel

theorem ok_of_toOption {ε α : Type} {result : Except ε α} {value : α} (some_value : result.toOption = some value) :
    result = .ok value := by
  cases result with
  | error e => cases some_value
  | ok held => exact congrArg Except.ok (Option.some.inj some_value)

/-- The plain member gets from the build the format that it has alone. -/
theorem buildProject_mixedMembers_plain :
    ∃ config request, (parse mixedMembers "/q/tsconfig.json").value = .ok config ∧
      .built request ∈ (Bundler.echo.buildProject ⟨mixedMembers, false⟩ config).trace ∧
      "/q/src/a.ts" ∈ request.entries ∧ request.format = .commonJS := by
  obtain ⟨evaluated, no_package⟩ := evaluated_mixedMembers
  obtain ⟨config, parsed, same⟩ := Option.map_eq_some_iff.mp evaluated
  simp only [Prod.mk.injEq, List.cons.injEq] at same
  obtain ⟨⟨at_path, entries⟩, ⟨alone, -⟩, -⟩ := same
  have parsed := ok_of_toOption parsed
  have dir : Path.components config.dir = ["q"] := by
    rw [Config.dir, at_path]
    decide +kernel
  have parsed_there : (parse (Setting.mk mixedMembers false).fs "/q/tsconfig.json").value = .ok config := parsed
  have member : "/q/src/a.ts" ∈ buildEntries config := by
    rw [entries]
    exact List.mem_cons_self
  have asked : OutputFormat.commonJS ≠ .unchanged := by decide
  obtain ⟨request, built, entered, -, plain⟩ :=
    buildProject_format_agrees_iff Bundler.echo rfl parsed_there member asked (ok_of_toOption alone)
  refine ⟨config, request, parsed, (built request).mpr rfl, entered, plain ["src"] "a.ts" (by decide) ?_ (by decide) ?_⟩
  · rw [dir]
    decide
  · intro level some_level part
    rcases List.prefix_cons_iff.mp part with rfl | ⟨rest, rfl, end_part⟩
    · exact absurd rfl some_level
    · obtain rfl := List.prefix_nil.mp end_part
      rw [dir]
      exact Option.isNone_iff_eq_none.mp no_package

/-- The member that is a module by its name, and compiled as one, is built as a script. -/
theorem buildProject_mixedMembers_module :
    ∃ config source request, (parse mixedMembers "/q/tsconfig.json").value = .ok config ∧
      readRoot mixedMembers (config.options.normalize false) "/q/b.mts" = some source ∧
      outputFormat source.fileName source.implied (config.options.normalize false) = .ok .module ∧
      .built request ∈ (Bundler.echo.buildProject ⟨mixedMembers, false⟩ config).trace ∧
      "/q/b.mts" ∈ request.entries ∧ request.format = .commonJS := by
  obtain ⟨config, parsed, same⟩ := Option.map_eq_some_iff.mp evaluated_mixedMembers.1
  simp only [Prod.mk.injEq, List.cons.injEq, Option.some.injEq] at same
  obtain ⟨⟨-, entries⟩, ⟨-, alone, format, -⟩, read⟩ := same
  obtain ⟨source, read⟩ := Option.isSome_iff_exists.mp read
  have member : "/q/b.mts" ∈ buildEntries config := by
    rw [entries]
    decide
  have going : (Setting.mk mixedMembers false).cancelled = false := rfl
  refine ⟨config, source, buildRequest mixedMembers config, ok_of_toOption parsed, read, ?_, ?_, member, format⟩
  · rw [outputFormat_of_readRoot read, ok_of_toOption alone]
  · exact (Bundler.echo.built_of_buildProject going member _).mpr rfl

end Bundler
end ScriptLoader
