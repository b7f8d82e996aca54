import ScriptLoader.Hooks.Chain
import ScriptLoader.Proofs.Bundler.ProjectFormat
import ScriptLoader.Proofs.FileUrls
import ScriptLoader.Proofs.RelativePaths

/-!
The format of a module when it is resolved and when it is loaded. Resolving looks at the path as it is named
and loading at the path from the root. The two agree for every rooted path. For the relative path of an entry
point the packages above the working directory count only when it is loaded, so that they can differ.
-/

set_option autoImplicit false
namespace ScriptLoader

namespace ModuleFormat
open ScriptLoader.Path (AllProper ofComponents)
open FileSystem (Openable)

theorem head?_toList_append {α : Type} (first : Option α) (rest : List α) :
    (first.toList ++ rest).head? = first.or rest.head? := by
  cases first <;> rfl

/-- The nearest package of a clean directory is its own, or else that of the directory above, which is the
root's for the root. -/
theorem head?_packages {fs : FileSystem} {names : List String} (proper : AllProper names) :
    (packages fs (ofComponents true names)).head? =
      (fs.read (ofComponents true (names ++ ["package.json"]))).toOption.or
        (packages fs (Path.dir (ofComponents true names))).head? := by
  rcases List.eq_nil_or_concat names with rfl | ⟨above, last, rfl⟩
  · have top : Path.dir (ofComponents true []) = ofComponents true [] := by decide
    rw [top, packages_nil, List.nil_append]
    cases (fs.read (ofComponents true ["package.json"])).toOption <;> rfl
  · rw [List.concat_eq_append] at proper ⊢
    rw [Path.dir_ofComponents proper, packages_concat fs proper, head?_toList_append, List.append_assoc]
    rfl

/-- The nearest package of a directory below the working directory is one on the way to it, or else one above
the working directory. -/
theorem head?_packages_inside {fs : FileSystem} (settled : Path.clean fs.cwd = fs.cwd) {names : List String}
    (proper : AllProper names)
    (openable : Openable (ofComponents true (Path.components fs.cwd ++ names ++ ["package.json"]))) :
    (packages fs (ofComponents true (Path.components fs.cwd ++ names))).head? =
      (packages fs (ofComponents false names)).head?.or (packages fs (Path.dir fs.cwd)).head? := by
  have proper_cwd := Path.proper_of_mem_components fs.rooted
  have whole := Path.eq_ofComponents_of_clean fs.rooted settled
  -- One directory after another from the working directory down: each has the same package under both of its names.
  induction names using List.reverseRecOn with
  | nil =>
    rw [List.append_nil] at openable ⊢
    have own : (fs.read (ofComponents false ["package.json"])).toOption =
        (fs.read (ofComponents true (Path.components fs.cwd ++ ["package.json"]))).toOption :=
      FileSystem.read_inside settled (List.forall_mem_singleton.mpr (by decide)) (List.cons_ne_nil _ _) openable
    rw [head?_packages proper_cwd, ← whole, packages_nil, own, Option.head?_toList]
  | append_singleton inner last ih =>
    have proper_longer : AllProper (Path.components fs.cwd ++ inner ++ [last]) := by
      rw [List.append_assoc]
      exact List.forall_mem_append.mpr ⟨proper_cwd, proper⟩
    have own : (fs.read (ofComponents false (inner ++ [last, "package.json"]))).toOption =
        (fs.read (ofComponents true (Path.components fs.cwd ++ (inner ++ [last, "package.json"])))).toOption := by
      have longer : inner ++ [last, "package.json"] = inner ++ [last] ++ ["package.json"] := by simp
      rw [longer]
      refine FileSystem.read_inside settled ?_ (by simp) (by simpa only [List.append_assoc] using openable)
      exact List.forall_mem_append.mpr ⟨proper, List.forall_mem_singleton.mpr (by decide)⟩
    have openable_inner : Openable (ofComponents true (Path.components fs.cwd ++ inner ++ ["package.json"])) := by
      refine openable.of_sublist ?_
      rw [Path.toList_ofComponents (by simp), Path.toList_ofComponents (by simp)]
      refine List.Sublist.flatMap ?_ _
      rw [← List.append_assoc]
      exact (List.sublist_append_left _ _).append (List.Sublist.refl _)
    rw [← List.append_assoc, packages_concat fs proper_longer, head?_toList_append, packages_concat fs proper,
      head?_toList_append, own, ih (fun name mem => proper name (List.mem_append_left _ mem)) openable_inner,
      List.append_assoc, Option.or_assoc]

end ModuleFormat

namespace Host
open ModuleFormat

theorem proper_of_formatOf {fs : FileSystem} {path : String} {format : ModuleFormat}
    (known : formatOf fs path = some format) :
    Path.Proper (Path.splitLast path).2 := by
  unfold formatOf at known
  apply Path.proper_of_ext <;> intro same <;> rw [same] at known <;> revert known <;> simp

theorem kindOf_eq (package : Option (List UInt8)) : kindOf package = .esNext ∨ kindOf package = .commonJS := by
  cases package with
  | none => exact .inr rfl
  | some content =>
    rw [kindOf]
    split
    · exact .inl rfl
    · exact .inr rfl

/-- A script without a format of its own has that of the nearest package. -/
theorem formatOf_script (fs : FileSystem) {path : String} (script : Path.ext path = ".js") :
    formatOf fs path = some (if kindOf (packages fs (Path.dir path)).head? = .esNext then .module else .commonJS) := by
  have undecided : isDecidedByName path = false := by rw [isDecidedByName, script]; decide
  rw [formatOf, script, if_neg (by decide), if_neg (by decide), if_pos rfl, implied_of_package undecided]

/-- The format of a path as it is named and as it is seen from the root: what can differ are the packages that count. -/
theorem formatOf_abs_iff {fs : FileSystem} {path : String} (proper : Path.Proper (Path.splitLast path).2) :
    formatOf fs (fs.abs path) = formatOf fs path ↔ (Path.ext path = ".js" →
      kindOf (packages fs (Path.dir path)).head? = kindOf (packages fs (Path.dir (fs.abs path))).head?) := by
  have same_ext : Path.ext (fs.abs path) = Path.ext path := Path.ext_abs fs.rooted proper
  by_cases script : Path.ext path = ".js"
  · rw [formatOf_script fs script, formatOf_script fs (same_ext.trans script)]
    rcases kindOf_eq (packages fs (Path.dir path)).head? with one | one <;>
      rcases kindOf_eq (packages fs (Path.dir (fs.abs path))).head? with other | other <;>
      rw [one, other] <;> simp only [script, true_imp_iff] <;> decide
  · simp [formatOf, same_ext, script]

/-- An entry point that is named by a relative path: no parent says what it is relative to. -/
def isAdrift (request : ResolveRequest) : Bool :=
  request.parent = "" && (Text.startsWith request.specifier "./" || Text.startsWith request.specifier "../")

theorem of_isAdrift {request : ResolveRequest} (adrift : isAdrift request = true) :
    fileOf request = .ok request.specifier ∧ Path.isAbs request.specifier = false ∧
      ∃ above, request.specifier = above ++ "/" ++ (Path.splitLast request.specifier).2 := by
  simp only [isAdrift, Bool.and_eq_true, decide_eq_true_eq] at adrift
  obtain ⟨orphan, dotted⟩ := adrift
  obtain ⟨rest, chars, slash⟩ : ∃ rest, request.specifier.toList = '.' :: rest ∧ '/' ∈ rest := by
    rcases Bool.or_eq_true_iff.mp dotted with begins | begins
    · obtain ⟨rest, whole⟩ := List.isPrefixOf_iff_prefix.mp begins
      exact ⟨'/' :: rest, whole.symm, by simp⟩
    · obtain ⟨rest, whole⟩ := List.isPrefixOf_iff_prefix.mp begins
      exact ⟨'.' :: '/' :: rest, whole.symm, by simp⟩
  have no_url : Text.startsWith request.specifier "file:" = false := by
    rw [Text.startsWith, chars]
    rfl
  have relative : Path.isAbs request.specifier = false := by simp [Path.isAbs, chars]
  refine ⟨?_, relative, ?_⟩
  · simp only [fileOf, no_url, relative, dotted, orphan, if_true, if_false, Bool.false_eq_true]
  · obtain ⟨no_slash, same | found⟩ := Path.exists_last request.specifier
    · rw [← same, chars] at no_slash
      exact absurd (List.mem_cons_of_mem _ slash) no_slash
    · exact found

/-- A file that is resolved is named by a rooted path, or is an adrift entry point. -/
theorem of_fileOf {request : ResolveRequest} {path : String} (spelled : Text.Utf8.Readable request.specifier)
    (found : fileOf request = .ok path) :
    Text.Utf8.Readable path ∧ (Path.isAbs path = true ∨ isAdrift request = true) := by
  simp only [fileOf] at found
  -- A URL, a rooted path, a relative path with and without a parent; a bare name is no file.
  split at found
  next =>
    cases named : FileUrl.toPath request.specifier with
    | error e => rw [named] at found; cases found
    | ok held =>
      rw [named] at found
      obtain rfl := Except.ok.inj found
      exact ⟨(FileUrl.of_toPath named).2, .inl (FileUrl.of_toPath named).1⟩
  next =>
    split at found
    next rooted =>
      obtain rfl := Except.ok.inj found
      exact ⟨spelled, .inl rooted⟩
    next =>
      split at found
      next dotted =>
        split at found
        next orphan =>
          obtain rfl := Except.ok.inj found
          exact ⟨spelled, .inr (by simp only [isAdrift, orphan, dotted]; rfl)⟩
        next =>
          split at found
          · cases found
          next parent named =>
            obtain rfl := Except.ok.inj found
            obtain ⟨rooted, readable⟩ := FileUrl.of_toPath named
            refine ⟨Path.readable_join ?_, .inl (Path.isAbs_join (Path.isAbs_dir rooted) _)⟩
            simp [spelled, Path.readable_dir rooted readable]
      next => cases found

/-- A resolved module that has a format is a file, by whose path it has it. -/
theorem of_resolve {fs : FileSystem} {request : ResolveRequest} {result : ResolveResult} {format : ModuleFormat}
    (resolved : resolve fs request = .ok result) (known : result.format = some format) :
    ∃ path, fileOf request = .ok path ∧ result.url = FileUrl.ofPath fs path ∧ formatOf fs path = some format := by
  unfold resolve at resolved
  split at resolved
  · obtain rfl := Except.ok.inj resolved
    cases known
  · split at resolved
    · cases resolved
    next path found =>
      split at resolved
      · cases resolved
      · obtain rfl := Except.ok.inj resolved
        dsimp only at known
        exact ⟨path, found, rfl, known⟩

theorem formatOf_of_loadFormat {fs : FileSystem} {path : String} {format : ModuleFormat}
    (chosen : loadFormat fs none path = .ok format) : formatOf fs path = some format := by
  rw [loadFormat, Option.none_or] at chosen
  cases known : formatOf fs path with
  | none => rw [known] at chosen; cases chosen
  | some own =>
    rw [known] at chosen
    exact congrArg some (Except.ok.inj chosen)

/-- A module that is loaded without a format asked for has that of the path which its URL names. -/
theorem of_load {fs : FileSystem} {url path : String} {loaded : LoadResult} (named : FileUrl.toPath url = .ok path)
    (opened : (load fs ⟨url, none⟩).value = .ok loaded) :
    ∃ format, loaded.format = some format ∧ formatOf fs path = some format := by
  simp only [load, named] at opened
  split at opened
  · cases opened
  next format chosen =>
    split at opened
    · cases opened
    · obtain rfl := Except.ok.inj opened
      exact ⟨format, rfl, formatOf_of_loadFormat chosen⟩

theorem load_hint {fs : FileSystem} {url path : String} {format : ModuleFormat} (named : FileUrl.toPath url = .ok path)
    (known : formatOf fs path = some format) : load fs ⟨url, some format⟩ = load fs ⟨url, none⟩ := by
  have same : loadFormat fs (some format) path = loadFormat fs none path := by
    rw [loadFormat, loadFormat, known]
    rfl
  simp only [load, named, same]

/-- Below the working directory the packages on the way decide in both cases. -/
theorem kindOf_packages_inside {fs : FileSystem} {path above : String} (settled : Path.clean fs.cwd = fs.cwd)
    (relative : Path.isAbs path = false) (whole : path = above ++ "/" ++ (Path.splitLast path).2)
    (proper : Path.Proper (Path.splitLast path).2) (inside : ".." ∉ Path.components (Path.dir path))
    (openable : FileSystem.Openable (Path.join [Path.dir (fs.abs path), "package.json"])) :
    kindOf (packages fs (Path.dir path)).head? = kindOf (packages fs (Path.dir (fs.abs path))).head? ↔
      packages fs (Path.dir path) ≠ [] ∨ kindOf (packages fs (Path.dir fs.cwd)).head? = .commonJS := by
  have proper_dir := Path.proper_components inside
  have relative_dir := Path.dir_eq_relative relative whole
  have from_root : Path.dir (fs.abs path) =
      Path.ofComponents true (Path.components fs.cwd ++ Path.components (Path.dir path)) :=
    Path.dir_abs_inside fs.rooted relative whole proper inside
  have proper_whole : Path.AllProper (Path.components fs.cwd ++ Path.components (Path.dir path)) :=
    List.forall_mem_append.mpr ⟨Path.proper_of_mem_components fs.rooted, proper_dir⟩
  rw [from_root, Path.join_proper proper_whole (by decide)] at openable
  rw [from_root, head?_packages_inside settled proper_dir openable, ← relative_dir]
  cases packages fs (Path.dir path) with
  | nil =>
    simp only [List.head?_nil, Option.none_or, ne_eq, not_true_eq_false, false_or]
    exact eq_comm
  | cons nearest others => simp

end Host

namespace Chain
open ModuleFormat Host

theorem value_resolve_empty (setting : Setting) (request : ResolveRequest) :
    (({} : Chain).resolve setting request).value = Host.resolve setting.fs request := rfl

theorem load_empty (setting : Setting) (request : LoadRequest) :
    ({} : Chain).load setting request = Host.load setting.fs request := by
  rw [load, List.map_nil, dispatch]

/-- In a chain without hooks, the format with which a module is resolved is the one with which it is loaded,
unless it is an entry point that is named by a relative path: there the nearest packages from its relative
directory and from the root must be of the same kind. Below the working directory they are, exactly if there
is a package on the way or none above that says otherwise. Where the formats agree, the module is loaded in
the same way with and without the format that it was resolved with. -/
theorem resolve_format_loaded_iff {setting : Setting} {request : ResolveRequest}
    {result : ResolveResult} {format : ModuleFormat}
    {loaded : LoadResult} (here : Text.Utf8.Readable setting.fs.cwd) (spelled : Text.Utf8.Readable request.specifier)
    (resolved : (({} : Chain).resolve setting request).value = .ok result) (known : result.format = some format)
    (opened : (({} : Chain).load setting ⟨result.url, none⟩).value = .ok loaded) :
    (loaded.format = some format ↔ (isAdrift request = true → Path.ext request.specifier = ".js" →
      kindOf (packages setting.fs (Path.dir request.specifier)).head? =
        kindOf (packages setting.fs (Path.dir (setting.fs.abs request.specifier))).head?)) ∧
    (isAdrift request = true → Path.ext request.specifier = ".js" → Path.clean setting.fs.cwd = setting.fs.cwd →
      ".." ∉ Path.components (Path.dir request.specifier) →
      FileSystem.Openable (Path.join [Path.dir (setting.fs.abs request.specifier), "package.json"]) →
      (loaded.format = some format ↔ packages setting.fs (Path.dir request.specifier) ≠ [] ∨
        kindOf (packages setting.fs (Path.dir setting.fs.cwd)).head? = .commonJS)) ∧
    (loaded.format = some format →
      ({} : Chain).load setting ⟨result.url, some format⟩ = ({} : Chain).load setting ⟨result.url, none⟩) := by
  rw [value_resolve_empty] at resolved
  rw [load_empty] at opened
  rw [load_empty, load_empty]
  obtain ⟨path, found, url, by_path⟩ := of_resolve resolved known
  obtain ⟨readable, place⟩ := of_fileOf spelled found
  have proper := proper_of_formatOf by_path
  have named : FileUrl.toPath result.url = .ok (setting.fs.abs path) := by
    rw [url, FileUrl.toPath_ofPath (Path.readable_abs here readable)]
  obtain ⟨own, loaded_own, from_root⟩ := of_load named opened
  -- Both formats are those of paths, so they are compared by the packages that count for these.
  have agree : loaded.format = some format ↔ (Path.ext path = ".js" →
      kindOf (packages setting.fs (Path.dir path)).head? =
        kindOf (packages setting.fs (Path.dir (setting.fs.abs path))).head?) := by
    rw [loaded_own, ← from_root, ← by_path, formatOf_abs_iff proper]
  have adrift_path : isAdrift request = true → path = request.specifier :=
    fun adrift => Except.ok.inj (found.symm.trans (of_isAdrift adrift).1)
  refine ⟨?_, ?_, ?_⟩
  · rw [agree]
    constructor
    · intro same adrift
      rwa [adrift_path adrift] at same
    · intro same
      rcases place with rooted | adrift
      · have same_dir : Path.dir (setting.fs.abs path) = Path.dir path := Path.dir_abs setting.fs.rooted rooted proper
        rw [same_dir]
        exact fun _ => rfl
      · rw [adrift_path adrift]
        exact same adrift
  · intro adrift script settled inside openable
    obtain ⟨-, relative, above, whole⟩ := of_isAdrift adrift
    rw [adrift_path adrift] at agree proper
    rw [agree, ← kindOf_packages_inside settled relative whole proper inside openable]
    exact ⟨fun same => same script, fun same _ => same⟩
  · intro same
    rw [loaded_own] at same
    exact load_hint named (from_root.trans same)

/-- A script whose package file lies above the working directory. -/
def packageAbove : Setting :=
  ⟨⟨⟨[(["m"], .directory), (["e", "m"], .directory), (["a.js", "e", "m"], .file []),
    (["package.json", "m"], .file (Text.Utf8.encode "\x7b\"type\":\"module\"\x7d"))]⟩, "/m/e", rfl⟩, false⟩

theorem evaluated_packageAbove :
    Host.resolve packageAbove.fs ⟨"./a.js", "", none⟩ = .ok { url := "file:///m/e/a.js", format := some .commonJS } ∧
    FileUrl.ofPath packageAbove.fs "a.js" = "file:///m/e/a.js" ∧ packageAbove.fs.abs "a.js" = "/m/e/a.js" ∧
    Host.loadFormat packageAbove.fs none "/m/e/a.js" = .ok .module ∧ packageAbove.fs.read "/m/e/a.js" = .ok [] := by
  decide +kernel

theorem load_packageAbove :
    (({} : Chain).load packageAbove ⟨"file:///m/e/a.js", none⟩).value =
    .ok { source := "", format := some .module } := by
  obtain ⟨-, written, seen, format, content⟩ := evaluated_packageAbove
  have readable : Text.Utf8.Readable (packageAbove.fs.abs "a.js") := by
    rw [seen]
    exact Text.Utf8.readable_of_isValid (by decide +kernel)
  have named := FileUrl.toPath_ofPath readable
  rw [written, seen] at named
  rw [load_empty, Host.load, named]
  dsimp only
  rw [format, content]
  dsimp only
  rw [Run.value_bind, Text.Utf8.decode, Text.Utf8.decodeChars]
  rfl

/-- Resolved from its directory the script is in no package and so no module; loaded it is in one of modules. -/
theorem resolve_packageAbove_format_differs :
    (({} : Chain).resolve packageAbove ⟨"./a.js", "", none⟩).value =
      .ok { url := "file:///m/e/a.js", format := some .commonJS } ∧
    (({} : Chain).load packageAbove ⟨"file:///m/e/a.js", none⟩).value = .ok { source := "", format := some .module } :=
  ⟨evaluated_packageAbove.1, load_packageAbove⟩

/-- That they differ shows that no package is on the way from the working directory, and that one above is of
modules. -/
theorem resolve_packageAbove_explained :
    (({} : Chain).resolve packageAbove ⟨"./a.js", "", none⟩).value =
      .ok { url := "file:///m/e/a.js", format := some .commonJS } ∧
    packages packageAbove.fs (Path.dir "./a.js") = [] ∧
    kindOf (packages packageAbove.fs (Path.dir packageAbove.fs.cwd)).head? = .esNext := by
  have resolved : (({} : Chain).resolve packageAbove ⟨"./a.js", "", none⟩).value = _ := evaluated_packageAbove.1
  have here : Text.Utf8.Readable packageAbove.fs.cwd := Text.Utf8.readable_of_isValid (by decide +kernel)
  have spelled : Text.Utf8.Readable (ResolveRequest.mk "./a.js" "" none).specifier :=
    Text.Utf8.readable_of_isValid (by decide +kernel)
  have below := (resolve_format_loaded_iff here spelled resolved rfl load_packageAbove).2.1 (by decide +kernel)
    (by decide +kernel) (by decide +kernel) (by decide +kernel) (by decide +kernel)
  have differs : ¬ (some ModuleFormat.module = some .commonJS) := nofun
  rw [below, not_or, not_ne_iff] at differs
  exact ⟨resolved, differs.1, (kindOf_eq _).resolve_right differs.2⟩

end Chain
end ScriptLoader
