import ScriptLoader.Hooks.Loader
import ScriptLoader.Proofs.FileNames
import ScriptLoader.Proofs.FileUrls
import ScriptLoader.Proofs.Pipeline.Stages
import ScriptLoader.Proofs.Project.Parsed

/-!
What a loader claims and what it compiles. An import is claimed by the path of the file that the engine finds,
and loaded by a URL. The loader knows the URL again: it ends as the path does and names the same file.
-/

set_option autoImplicit false
namespace ScriptLoader

namespace Pipeline
variable (p : Pipeline) (setting : Setting)

def finding (specifier importer : String) : Option Resolution :=
  (p.engine.resolveModule setting specifier (setting.fs.abs importer)
    (p.lookup setting.fs (setting.fs.abs importer) false).value.options).value

theorem value_resolve (specifier importer : String) :
    (p.resolve setting specifier importer).value =
      ((p.finding setting specifier importer).map (·.fileName)).filter SourceName.isSource := by
  rw [resolve]
  dsimp only
  rw [value_stage, Run.value_bind, Run.value_bind, Run.value_bind, ← finding]
  cases p.finding setting specifier importer with
  | none => rfl
  | some found =>
    by_cases source : SourceName.isSource found.fileName = true
    · simp [source, Option.filter_some]
    · simp [source, Option.filter_some]

/-- A file is compiled as it is seen from the root. -/
theorem compile_abs (file : String) (hint : Option ModuleFormat) :
    p.compile setting (setting.fs.abs file) hint = p.compile setting file hint := by
  unfold compile
  rw [FileSystem.abs_abs]

end Pipeline

namespace Loader
variable {loader : Loader} {pipeline : Pipeline} {setting : Setting}

def loaded : Except CompileError CompileOutput → Except HookError LoadResult
  | .error e => .error (.compilation e)
  | .ok output => .ok { source := output.source, format := some output.format, shortCircuit := true }

theorem load_concerned (ready : loader.pipeline? = some pipeline) {url file : String} (concerned : concerns url = true)
    (named : FileUrl.toPath url = .ok file) (hint : Option ModuleFormat) :
    loader.load setting ⟨url, hint⟩ =
      ⟨(pipeline.compile setting file hint).trace, .finish (loaded (pipeline.compile setting file hint).value)⟩ := by
  simp only [load, concerned, if_true, ready, named, bind]
  cases (pipeline.compile setting file hint).value <;> simp [loaded, pure]

/-- The URL of a source is one that a loader compiles. -/
theorem concerns_ofPath (fs : FileSystem) {file : String} (source : SourceName.isSource file = true) :
    concerns (FileUrl.ofPath fs file) = true := by
  have listed : Path.ext file ∈ SourceName.sourceExtensions := by
    simp only [SourceName.isSource, Bool.and_eq_true] at source
    exact List.contains_iff_mem.mp source.1
  have plain : Url.escapePath (Text.Utf8.encode (Path.ext file)) = (Path.ext file).toList := by
    simp only [SourceName.sourceExtensions, List.mem_cons, List.not_mem_nil, or_false] at listed
    rcases listed with same | same | same <;> rw [same] <;> rfl
  have ends : (Path.ext file).toList <:+ (fs.abs file).toList := by
    rw [← Path.ext_abs fs.rooted (SourceName.proper_of_isSource source)]
    exact Path.ext_isSuffix _
  rw [concerns, FileUrl.startsWith_ofPath, Bool.true_and, SourceName.endsLikeSource, List.any_eq_true]
  exact ⟨Path.ext file, listed, List.isSuffixOf_iff_suffix.mpr (FileUrl.suffix_ofPath plain ends)⟩

theorem value_resolve (ready : loader.pipeline? = some pipeline) {request : ResolveRequest}
    (concerned : concerns request.parent = true) {name parent : String}
    (asked : engineName request.specifier = .ok name)
    (importer : FileUrl.toPath request.parent = .ok parent) :
    (loader.resolve setting request).value =
      match ((pipeline.finding setting name parent).map (·.fileName)).filter SourceName.isSource with
      | none => .pass request
      | some file =>
        .finish (.ok
          { url := FileUrl.ofPath setting.fs file, attributes := request.attributes, shortCircuit := true }) := by
  rw [resolve, if_pos concerned, ready]
  dsimp only
  rw [asked, importer]
  dsimp only
  rw [Run.value_bind, Pipeline.value_resolve]
  cases ((pipeline.finding setting name parent).map (·.fileName)).filter SourceName.isSource <;> rfl

/-- Where a loader answers, it was asked about an import of a source, and both names are usable. -/
theorem of_resolve_eq_ok (ready : loader.pipeline? = some pipeline) {request : ResolveRequest} {result : ResolveResult}
    (answered : (loader.resolve setting request).value = .finish (.ok result)) :
    concerns request.parent = true ∧ ∃ name parent, engineName request.specifier = .ok name ∧
      FileUrl.toPath request.parent = .ok parent := by
  rw [resolve] at answered
  split at answered
  next concerned =>
    refine ⟨concerned, ?_⟩
    rw [ready] at answered
    dsimp only at answered
    split at answered
    · cases answered
    · cases answered
    next asked importer => exact ⟨_, _, asked, importer⟩
  next => cases answered

/-- What a loader claims it compiles: its answer is the URL of the file that the engine finds, which is a
source and no declaration file, and loading this URL is compiling that file. Where the engine finds nothing,
or something else, the request is passed on as it came. -/
theorem resolve_claims_what_load_compiles (ready : loader.pipeline? = some pipeline)
    (here : Text.Utf8.Readable setting.fs.cwd)
    (spelled : ∀ specifier importer options found,
      (pipeline.engine.resolveModule setting specifier importer options).value = some found →
        Text.Utf8.Readable found.fileName)
    (request : ResolveRequest) :
    (∀ result, (loader.resolve setting request).value = .finish (.ok result) →
      ∃ name parent found, engineName request.specifier = .ok name ∧ FileUrl.toPath request.parent = .ok parent ∧
        pipeline.finding setting name parent = some found ∧ result.shortCircuit = true ∧
        FileUrl.toPath result.url = .ok (setting.fs.abs found.fileName) ∧
        SourceName.isSource found.fileName = true ∧ SourceName.isSource (setting.fs.abs found.fileName) = true ∧
        ∀ hint, loader.load setting ⟨result.url, hint⟩ =
          ⟨(pipeline.compile setting found.fileName hint).trace,
            .finish (loaded (pipeline.compile setting found.fileName hint).value)⟩) ∧
    (∀ name parent, concerns request.parent = true → engineName request.specifier = .ok name →
      FileUrl.toPath request.parent = .ok parent →
      (∀ found, pipeline.finding setting name parent = some found → SourceName.isSource found.fileName = false) →
      (loader.resolve setting request).value = .pass request) := by
  constructor
  · intro result answered
    obtain ⟨concerned, name, parent, asked, importer⟩ := of_resolve_eq_ok ready answered
    rw [value_resolve ready concerned asked importer] at answered
    split at answered
    · cases answered
    next file chosen =>
      obtain ⟨among, source⟩ := Option.filter_eq_some_iff.mp chosen
      obtain ⟨found, engine_found, rfl⟩ := Option.map_eq_some_iff.mp among
      obtain rfl := Except.ok.inj (HookMove.finish.inj answered)
      have readable : Text.Utf8.Readable (setting.fs.abs found.fileName) :=
        Path.readable_abs here (spelled _ _ _ _ engine_found)
      refine ⟨name, parent, found, asked, importer, engine_found, rfl, FileUrl.toPath_ofPath readable, source,
        SourceName.isSource_abs setting.fs.rooted source, fun hint => ?_⟩
      rw [load_concerned ready (concerns_ofPath setting.fs source) (FileUrl.toPath_ofPath readable),
        Pipeline.compile_abs]
  · intro name parent concerned asked importer other
    have nothing : ((pipeline.finding setting name parent).map (·.fileName)).filter SourceName.isSource = none := by
      rw [Option.filter_eq_none_iff]
      intro file among
      obtain ⟨found, engine_found, rfl⟩ := Option.map_eq_some_iff.mp among
      rw [other found engine_found]
      exact Bool.false_ne_true
    rw [value_resolve ready concerned asked importer, nothing]

/-- Finds the same file for every specifier, by a relative path. -/
def finder : Engine where
  newProgram := fun _ _ => return .error (.failed "")
  resolveModule := fun _ _ _ _ => return some { fileName := "lib/b#1.mts" }
  buildProject := fun _ _ => return .ok ()

def workshop : Setting := ⟨⟨.empty, "/w", rfl⟩, false⟩

theorem toPath_workshop : FileUrl.toPath "file:///w/a.ts" = .ok "/w/a.ts" := by
  have written : FileUrl.ofPath workshop.fs "/w/a.ts" = "file:///w/a.ts" := by decide +kernel
  have seen : workshop.fs.abs "/w/a.ts" = "/w/a.ts" := by decide +kernel
  have named : FileUrl.toPath (FileUrl.ofPath workshop.fs "/w/a.ts") = .ok (workshop.fs.abs "/w/a.ts") :=
    FileUrl.toPath_ofPath (Text.Utf8.readable_of_isValid (by decide +kernel))
  rwa [written, seen] at named

theorem resolve_workshop :
    (resolve ⟨finder, some {}⟩ workshop ⟨"./b", "file:///w/a.ts", none⟩).value =
      .finish (.ok { url := "file:///w/lib/b%231.mts", shortCircuit := true }) := by
  have written : FileUrl.ofPath workshop.fs "lib/b#1.mts" = "file:///w/lib/b%231.mts" := by decide +kernel
  have source : SourceName.isSource "lib/b#1.mts" = true := by decide +kernel
  have named : ((Pipeline.finding ⟨finder, {}⟩ workshop "./b" "/w/a.ts").map (·.fileName)).filter SourceName.isSource =
      some "lib/b#1.mts" := by
    have found : (Pipeline.finding ⟨finder, {}⟩ workshop "./b" "/w/a.ts").map (·.fileName) = some "lib/b#1.mts" := rfl
    rw [found, Option.filter_some, source, if_pos rfl]
  have concerned : concerns "file:///w/a.ts" = true := by decide +kernel
  have asked : engineName "./b" = .ok "./b" := if_neg (by decide +kernel)
  have ready : pipeline? ⟨finder, some {}⟩ = some ⟨finder, {}⟩ := rfl
  have request : (resolve ⟨finder, some {}⟩ workshop ⟨"./b", "file:///w/a.ts", none⟩).value = _ :=
    value_resolve ready concerned asked toPath_workshop
  rewrite [request, named]
  exact congrArg (fun url => HookMove.finish (.ok (⟨url, none, none, true⟩ : ResolveResult))) written

/-- A file whose name has a meaning in a URL is claimed by its escaped name and compiled by its own. -/
theorem load_workshop :
    (resolve ⟨finder, some {}⟩ workshop ⟨"./b", "file:///w/a.ts", none⟩).value =
      .finish (.ok { url := "file:///w/lib/b%231.mts", shortCircuit := true }) ∧
    FileUrl.toPath "file:///w/lib/b%231.mts" = .ok "/w/lib/b#1.mts" ∧
    load ⟨finder, some {}⟩ workshop ⟨"file:///w/lib/b%231.mts", none⟩ =
      ⟨(Pipeline.compile ⟨finder, {}⟩ workshop "lib/b#1.mts" none).trace,
        .finish (loaded (Pipeline.compile ⟨finder, {}⟩ workshop "lib/b#1.mts" none).value)⟩ := by
  have spelled : ∀ specifier importer options found,
      (finder.resolveModule workshop specifier importer options).value = some found →
      Text.Utf8.Readable found.fileName := by
    intro specifier importer options found same
    rw [← Option.some.inj same]
    exact Text.Utf8.readable_of_isValid (by decide +kernel)
  have here : Text.Utf8.Readable workshop.fs.cwd := Text.Utf8.readable_of_isValid (by decide +kernel)
  obtain ⟨name, parent, found, -, -, engine_found, -, named, -, -, compiles⟩ :=
    (resolve_claims_what_load_compiles rfl here spelled ⟨"./b", "file:///w/a.ts", none⟩).1 _ resolve_workshop
  obtain rfl := Option.some.inj engine_found
  have seen : workshop.fs.abs "lib/b#1.mts" = "/w/lib/b#1.mts" := by decide +kernel
  rw [seen] at named
  exact ⟨resolve_workshop, named, compiles none⟩

end Loader
end ScriptLoader
