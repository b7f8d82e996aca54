import ScriptLoader.Proofs.Server.PathLabels

/-!
Ways to write the path of a request. A path that is written in the usual way, or without any escape, is
decoded before the module of that path is sent. Any other way of writing it is taken as it stands, escapes
included, for the path of another module.
-/

set_option autoImplicit false
namespace ScriptLoader

namespace Url

/-- A text spells a path when each byte of the path stands in it as itself or by its number. -/
inductive Spells : List UInt8 → List UInt8 → Prop where
  | nil : Spells [] []
  | plain {b : UInt8} {written path : List UInt8} : b ≠ percent → Spells written path →
      Spells (b :: written) (b :: path)
  | escaped {high low b : UInt8} {written path : List UInt8} : hexByte? high low = some b → Spells written path →
      Spells (percent :: high :: low :: written) (b :: path)

theorem Spells.unescape_eq {written path : List UInt8} (spells : Spells written path) :
    unescape written = .ok path := by
  induction spells with
  | nil => rfl
  | plain other _ ih => rw [unescape_cons other, ih]; rfl
  | escaped digits _ ih => rw [unescape_percent digits, ih]; rfl

theorem spells_or_error (written : List UInt8) :
    (∃ path, Spells written path) ∨ ∃ text, unescape written = .error text := by
  fun_induction unescape written with
  | case1 => exact .inl ⟨_, .nil⟩
  | case2 => exact .inr ⟨_, rfl⟩
  | case3 b other => exact .inl ⟨_, .plain other .nil⟩
  | case4 => exact .inr ⟨_, rfl⟩
  | case5 b c other ih =>
    rcases ih with ⟨path, spells⟩ | ⟨text, broken⟩
    · exact .inl ⟨_, .plain other spells⟩
    · exact .inr ⟨text, by rw [broken]; rfl⟩
  | case6 c d rest value digits ih =>
    rcases ih with ⟨path, spells⟩ | ⟨text, broken⟩
    · exact .inl ⟨_, .escaped digits spells⟩
    · exact .inr ⟨text, by rw [broken]; rfl⟩
  | case7 => exact .inr ⟨_, rfl⟩
  | case8 b c d rest other ih =>
    rcases ih with ⟨path, spells⟩ | ⟨text, broken⟩
    · exact .inl ⟨_, .plain other spells⟩
    · exact .inr ⟨text, by rw [broken]; rfl⟩

/-- Undoing the escapes of a text gives the path that it spells, if there is one. -/
theorem unescape_eq_ok_iff {written path : List UInt8} : unescape written = .ok path ↔ Spells written path := by
  refine ⟨fun read => ?_, Spells.unescape_eq⟩
  rcases spells_or_error written with ⟨own, spells⟩ | ⟨text, broken⟩
  · obtain rfl := Except.ok.inj (spells.unescape_eq.symm.trans read)
    exact spells
  · cases broken.symm.trans read

theorem Spells.append {first path second more : List UInt8} (front : Spells first path) (back : Spells second more) :
    Spells (first ++ second) (path ++ more) := by
  induction front with
  | nil => exact back
  | plain other _ ih => exact .plain other ih
  | escaped digits _ ih => exact .escaped digits ih

theorem spells_self {path : List UInt8} (plain : percent ∉ path) : Spells path path := by
  induction path with
  | nil => exact .nil
  | cons b rest ih => exact .plain (List.ne_of_not_mem_cons plain).symm (ih (List.not_mem_of_not_mem_cons plain))

/-- A text without escapes spells itself, and an escape makes it longer than the path. -/
theorem Spells.length_le {written path : List UInt8} (spells : Spells written path) :
    path.length ≤ written.length := by
  induction spells with
  | nil => exact Nat.le_refl _
  | plain _ _ ih => exact Nat.succ_le_succ ih
  | escaped _ _ ih =>
    simp only [List.length_cons]
    omega

theorem Spells.eq_self_iff {written path : List UInt8} (spells : Spells written path) :
    written = path ↔ percent ∉ written := by
  induction spells with
  | nil => simp
  | plain other _ ih => simp [ih, Ne.symm other]
  | @escaped _ _ _ rest _ _ spells _ =>
    have shorter := spells.length_le
    refine iff_of_false (fun same => ?_) (by simp)
    have lengths := congrArg List.length same
    simp only [List.length_cons] at lengths
    omega

theorem parseRest_decoded {scheme query rest : List UInt8} {url : Url} (read : parseRest scheme query rest = .ok url) :
    unescape url.writtenPath = .ok url.path := by
  unfold parseRest at read
  dsimp only at read
  split at read
  · cases read
    rfl
  split at read
  · cases read
  -- With a host or without one, the path is what its text was decoded to.
  split at read
  · split at read
    · cases read
    split at read
    · cases read
    next decoded =>
      cases read
      exact decoded
  · split at read
    · cases read
    next decoded =>
      cases read
      exact decoded

theorem parse_decoded {text : List UInt8} {url : Url} (read : parse text = .ok url) :
    unescape url.writtenPath = .ok url.path := by
  unfold parse at read
  split at read
  · cases read
  split at read
  next star =>
    cases read
    rw [star]
    rfl
  split at read
  · cases read
  · exact parseRest_decoded read

end Url

namespace Server.Request

theorem of_ofTarget {method target : String} {request : Request} (asked : ofTarget method target = .ok request) :
    request.method = method ∧ Url.Spells request.url.writtenPath request.url.path := by
  rw [← Url.unescape_eq_ok_iff]
  unfold ofTarget at asked
  dsimp only at asked
  split at asked
  · cases asked
  split at asked
  · split at asked
    · cases asked
    next decoded =>
      cases asked
      exact ⟨rfl, decoded⟩
  split at asked
  · cases asked
  split at asked
  · cases asked
  split at asked
  · cases asked
  next parsed =>
    cases asked
    exact ⟨rfl, Url.parse_decoded parsed⟩

theorem ofTarget_of_spells (method : String) {target : String} {path : List UInt8}
    (spells : Url.Spells (Text.Utf8.encode target) path)
    (rooted : (Text.Utf8.encode target).head? = some (Url.byte '/'))
    (visible : (Text.Utf8.encode target).any Url.isControl = false)
    (no_query : Url.byte '?' ∉ Text.Utf8.encode target) :
    ofTarget method target = .ok ⟨method, { path := path, writtenPath := Text.Utf8.encode target }⟩ := by
  unfold ofTarget
  dsimp only
  rw [if_neg (by rw [visible]; exact Bool.false_ne_true), if_pos rooted, Url.cut_of_not_mem no_query,
    spells.unescape_eq]

end Server.Request

namespace Url

/-- A path is written in the usual way, or without any escape. -/
def IsPlain (written path : List UInt8) : Prop := written = (escapePath path).map byte ∨ percent ∉ written

instance (written path : List UInt8) : Decidable (IsPlain written path) := inferInstanceAs (Decidable (_ ∨ _))

def taken (written path : List UInt8) : List UInt8 := if IsPlain written path then path else written

/-- Two ways of writing a path are taken for the same one only if both are plain. -/
theorem taken_eq_iff {written other path : List UInt8} (spells : Spells written path) (spells' : Spells other path) :
    taken written path = taken other path ↔ written = other ∨ IsPlain written path ∧ IsPlain other path := by
  have differs : ∀ {text}, Spells text path → ¬ IsPlain text path → text ≠ path :=
    fun spelled escaped same => escaped (.inr (spelled.eq_self_iff.mp same))
  unfold taken
  by_cases plain : IsPlain written path <;> by_cases plain' : IsPlain other path
  · simp [plain, plain']
  · rw [if_pos plain, if_neg plain']
    refine iff_of_false (differs spells' plain').symm ?_
    rintro (rfl | both)
    · exact plain' plain
    · exact plain' both.2
  · rw [if_neg plain, if_pos plain']
    refine iff_of_false (differs spells plain) ?_
    rintro (rfl | both)
    · exact plain plain'
    · exact plain both.1
  · simp [plain, plain']

theorem isPlain_append {front : List UInt8} (usual : (escapePath front).map byte = front) (no_escape : percent ∉ front)
    (written path : List UInt8) : IsPlain (front ++ written) (front ++ path) ↔ IsPlain written path := by
  simp [IsPlain, escapePath_append, usual, no_escape]

end Url

namespace Server
open Text.Utf8

theorem Request.routedPath_of_spells {request : Request} (spells : Url.Spells request.url.writtenPath request.url.path)
    (some_text : request.url.path ≠ []) :
    request.routedPath = Url.taken request.url.writtenPath request.url.path := by
  have picked : (if request.isUsuallyWritten then request.url.path else request.url.writtenPath) =
      Url.taken request.url.writtenPath request.url.path := by
    unfold isUsuallyWritten Url.taken
    by_cases usual : (Url.escapePath request.url.path).map Url.byte = request.url.writtenPath
    · rw [if_pos (decide_eq_true usual), if_pos (.inl usual.symm)]
    · rw [if_neg (by simpa using usual)]
      split
      next plain => exact spells.eq_self_iff.mpr (plain.resolve_left (Ne.symm usual))
      next => rfl
  have some_taken : Url.taken request.url.writtenPath request.url.path ≠ [] := by
    unfold Url.taken
    split
    · exact some_text
    · intro none_written
      have shorter := spells.length_le
      rw [none_written] at shorter
      exact some_text (List.length_eq_zero_iff.mp (Nat.le_zero.mp shorter))
  rw [routedPath, picked, if_neg (by simpa using some_taken)]

def modulesPath : List UInt8 := encode "/modules/"

def moduleRoute (method : String) (path : List UInt8) : Route :=
  if !methods.contains method then .methodNotAllowed []
  else if method = "GET" then .endpoint (.module path)
  else .methodNotAllowed ["GET"]

section
variable {method target : String} {request : Request} (asked : Request.ofTarget method target = .ok request)
  {written path : List UInt8} (whole : request.url.writtenPath = modulesPath ++ written)
  (spells : Url.Spells written path)
include asked whole spells

theorem decoded_module : request.url.path = modulesPath ++ path := by
  have front : Url.Spells modulesPath modulesPath := Url.spells_self (by decide)
  have own := (Request.of_ofTarget asked).2.unescape_eq
  rw [whole, (front.append spells).unescape_eq] at own
  exact (Except.ok.inj own).symm

theorem route_module (showsMetrics : Bool) :
    route showsMetrics request = moduleRoute method (Url.taken written path) := by
  have decoded := decoded_module asked whole spells
  obtain ⟨rfl, own⟩ := Request.of_ofTarget asked
  have routed : request.routedPath = modulesPath ++ Url.taken written path := by
    rw [Request.routedPath_of_spells own (by rw [decoded]; exact List.cons_ne_nil _ _), whole,
      decoded, Url.taken, Url.taken]
    simp only [Url.isPlain_append (by decide : (Url.escapePath modulesPath).map Url.byte = modulesPath) (by decide)]
    split <;> rfl
  rw [route, routed, modulesPath, Endpoint.ofPath?_modules]
  simp only [moduleRoute, Endpoint.allows, decide_eq_true_eq]

end

theorem answer_of_same_query {server : Server} {metrics : Metrics} {setting : Setting} {request other : Request}
    (query : request.url.query = other.url.query) (target : Route) :
    server.answer metrics setting request target = server.answer metrics setting other target := by
  unfold answer
  rw [query]

theorem serve_of_same_route {server : Server} {metrics : Metrics} {setting : Setting} {request other : Request}
    (method : request.method = other.method) (path : request.url.path = other.url.path)
    (query : request.url.query = other.url.query)
    (routed : route server.showsMetrics request = route server.showsMetrics other) :
    server.serve metrics setting request = server.serve metrics setting other := by
  unfold serve count Metrics.addRequest Metrics.pathLabel
  rw [routed, answer_of_same_query query, method, path]

theorem value_serve_of_endpoint {server : Server} {metrics : Metrics} {setting : Setting}
    {request : Request} {endpoint : Endpoint}
    (matched : route server.showsMetrics request = .endpoint endpoint) :
    ∃ counted, (server.serve metrics setting request).value =
      .ok ((server.answer metrics setting request (.endpoint endpoint)).value, counted) := by
  obtain ⟨known, registered⟩ := of_route_endpoint matched
  have countable : Metrics.Countable (.endpoint endpoint) request :=
    ⟨isValid_of_mem_methods known, isValid_of_mem_patterns registered⟩
  unfold serve count
  dsimp only
  rw [matched]
  split
  · exact ⟨metrics, rfl⟩
  · rw [Metrics.addRequest_of_countable countable]
    exact ⟨_, rfl⟩

theorem serve_get_module (server : Server) (metrics : Metrics) (setting : Setting) {target : String} {request : Request}
    (asked : Request.ofTarget "GET" target = .ok request) {written path : List UInt8}
    (whole : request.url.writtenPath = modulesPath ++ written) (spells : Url.Spells written path) :
    ∃ counted, (server.serve metrics setting request).value =
      .ok ((server.sendModule setting (Url.taken written path) request.url.query).value, counted) :=
  value_serve_of_endpoint (route_module asked whole spells server.showsMetrics)

section
variable {server : Server} {setting : Setting} {path query : List UInt8} {file : String} {hint : Option ModuleFormat}
  (named : localPath server.root path = some file)
  (format : ModuleFormat.ofName (decode (Query.value query "format")) = .ok hint)
include named format

theorem sendModule_missing (missing : (setting.fs.stat file).isOk = false) :
    (server.sendModule setting path query).value = .plain 404 "module not found" := by
  rw [sendModule, named]
  dsimp only
  rw [format]
  dsimp only
  rw [if_pos (by rw [missing]; rfl)]
  rfl

theorem sendModule_loaded (there : (setting.fs.stat file).isOk = true) {result : LoadResult}
    (loaded : (server.chain.load setting ⟨FileUrl.ofPath setting.fs file, hint⟩).value = .ok result) :
    (server.sendModule setting path query).value =
      { status := 200, contentType := "text/javascript; charset=utf-8", format := result.format,
        body := result.source } := by
  rw [sendModule, named]
  dsimp only
  rw [format]
  dsimp only
  rw [if_neg (by rw [there]; exact Bool.false_ne_true), Run.value_bind, loaded]
  rfl

end

theorem ofName_no_query : ModuleFormat.ofName (decode (Query.value [] "format")) = .ok none := by
  have nothing : Query.value [] "format" = [] := by decide
  rw [nothing, decode, decodeChars]
  rfl

def moduleRequest (written path : List UInt8) : Request :=
  ⟨"GET", { path := modulesPath ++ path, writtenPath := modulesPath ++ written }⟩

theorem ofTarget_module {name : String} {path : List UInt8} (spells : Url.Spells (encode name) path)
    (visible : (encode name).any Url.isControl = false) (no_query : Url.byte '?' ∉ encode name) :
    Request.ofTarget "GET" ("/modules/" ++ name) = .ok (moduleRequest (encode name) path) := by
  have bytes : encode ("/modules/" ++ name) = modulesPath ++ encode name := encode_append _ _
  have front : Url.Spells modulesPath modulesPath := Url.spells_self (by decide)
  have clear : modulesPath.any Url.isControl = false := by decide
  rw [moduleRequest, ← bytes]
  refine Request.ofTarget_of_spells "GET" (bytes ▸ front.append spells) (bytes ▸ rfl) ?_ ?_
  · rw [bytes, List.any_append, clear, visible]
    rfl
  · rw [bytes, List.mem_append, not_or]
    exact ⟨by decide, no_query⟩

theorem query_moduleRequest (written path : List UInt8) : (moduleRequest written path).url.query = [] := rfl

/-- Two requests that write the path of one module differently get the same answer if they write it plainly,
or if modules are not asked for by their method anyway. A path that is not written plainly is taken for that
of another module, escapes included. -/
theorem serve_module_by_spelling (server : Server) (metrics : Metrics) (setting : Setting)
    {method target target' : String}
    {request request' : Request} (asked : Request.ofTarget method target = .ok request)
    (asked' : Request.ofTarget method target' = .ok request') {written written' path : List UInt8}
    (whole : request.url.writtenPath = modulesPath ++ written)
    (whole' : request'.url.writtenPath = modulesPath ++ written')
    (spells : Url.Spells written path) (spells' : Url.Spells written' path)
    (query : request.url.query = request'.url.query) :
    (method ≠ "GET" ∨ written = written' ∨ Url.IsPlain written path ∧ Url.IsPlain written' path →
      server.serve metrics setting request = server.serve metrics setting request') ∧
    (Url.taken written path = Url.taken written' path ↔
      written = written' ∨ Url.IsPlain written path ∧ Url.IsPlain written' path) ∧
    (method = "GET" → ∃ counted, (server.serve metrics setting request).value =
      .ok ((server.sendModule setting (Url.taken written path) request.url.query).value, counted)) := by
  have routed := route_module asked whole spells server.showsMetrics
  have routed' := route_module asked' whole' spells' server.showsMetrics
  have same := Url.taken_eq_iff spells spells'
  refine ⟨fun alike => ?_, same, ?_⟩
  · have own : request.method = request'.method :=
      (Request.of_ofTarget asked).1.trans (Request.of_ofTarget asked').1.symm
    have decoded : request.url.path = request'.url.path :=
      (decoded_module asked whole spells).trans (decoded_module asked' whole' spells').symm
    refine serve_of_same_route own decoded query ?_
    rw [routed, routed']
    rcases alike with other | alike
    · simp [moduleRoute, other]
    · rw [same.mpr alike]
  · rintro rfl
    exact serve_get_module server metrics setting asked whole spells

/-- Two scripts with brackets in their names, and a blank in one of them. -/
def bracketedScripts : Setting :=
  ⟨⟨⟨[(["x"], .directory), (["a(b).mjs", "x"], .file [0x31]), (["a(b) c.mjs", "x"], .file [0x31])]⟩, "/x", rfl⟩, false⟩

def scriptServer : Server := { root := "/x", chain := {} }

def scriptAnswer : Response :=
  { status := 200, contentType := "text/javascript; charset=utf-8", format := some .module, body := decode [0x31] }

def LeadsToScript (file : String) : Prop :=
  isValid file = true ∧ bracketedScripts.fs.abs file = file ∧
    Host.loadFormat bracketedScripts.fs none file = .ok .module ∧
    bracketedScripts.fs.read file = .ok [0x31] ∧ (bracketedScripts.fs.stat file).isOk = true

theorem leadsToScript : LeadsToScript "/x/a(b).mjs" ∧ LeadsToScript "/x/a(b) c.mjs" ∧
    (bracketedScripts.fs.stat "/x/a(b)%20c.mjs").isOk = false := by
  unfold LeadsToScript
  decide +kernel

theorem load_script {file : String} (leads : LeadsToScript file) :
    (scriptServer.chain.load bracketedScripts ⟨FileUrl.ofPath bracketedScripts.fs file, none⟩).value =
      .ok { source := decode [0x31], format := some .module } := by
  obtain ⟨valid, seen, format, content, -⟩ := leads
  have readable : Readable (bracketedScripts.fs.abs file) := by
    rw [seen]
    exact readable_of_isValid valid
  have named := FileUrl.toPath_ofPath readable
  rw [seen] at named
  have host : ∀ request, scriptServer.chain.load bracketedScripts request = Host.load bracketedScripts.fs request :=
    fun _ => rfl
  rw [host, Host.load, named]
  dsimp only
  rw [format, content]
  rfl

theorem localPath_scriptServer {name : String} (proper : Path.Proper name) (valid : isValid name = true) :
    localPath scriptServer.root (encode name) = some (Path.ofComponents true ["x", name]) := by
  have relative : Path.ofComponents false [name] = name := Path.ofComponents_relative (List.cons_ne_nil _ _)
  refine (localPath_eq_some_iff (by decide)).mpr ⟨[name], by simpa [Path.AllProper] using proper, ?_⟩
  rw [relative]
  refine ⟨readable_of_isValid valid, isWellFormed_of_isValid valid, ?_, rfl⟩
  exact dropSlash_encode (relative ▸ Path.isAbs_of_proper (by simpa [Path.AllProper] using proper) false)
    (readable_of_isValid valid)

theorem serve_script {target name : String} {written : List UInt8} (spells : Url.Spells written (encode name))
    (asked : Request.ofTarget "GET" target = .ok (moduleRequest written (encode name)))
    (taken : Url.taken written (encode name) = encode name) (proper : Path.Proper name) (valid : isValid name = true)
    (leads : LeadsToScript (Path.ofComponents true ["x", name])) :
    ∃ counted, (scriptServer.serve {} bracketedScripts (moduleRequest written (encode name))).value =
      .ok (scriptAnswer, counted) := by
  obtain ⟨counted, served⟩ := serve_get_module scriptServer {} bracketedScripts asked rfl spells
  rw [taken, query_moduleRequest, sendModule_loaded (localPath_scriptServer proper valid) ofName_no_query leads.2.2.2.2
    (load_script leads)] at served
  exact ⟨counted, served⟩

/-- The script without a blank is found, whether its brackets are written as they are or by their numbers. -/
theorem serve_brackets_either_way :
    Request.ofTarget "GET" ("/modules/" ++ "a(b).mjs") = .ok (moduleRequest (encode "a(b).mjs") (encode "a(b).mjs")) ∧
    Request.ofTarget "GET" ("/modules/" ++ "a%28b%29.mjs") =
    .ok (moduleRequest (encode "a%28b%29.mjs") (encode "a(b).mjs")) ∧
    (∃ counted, (scriptServer.serve {} bracketedScripts (moduleRequest (encode "a(b).mjs") (encode "a(b).mjs"))).value =
      .ok (scriptAnswer, counted)) ∧
    scriptServer.serve {} bracketedScripts (moduleRequest (encode "a(b).mjs") (encode "a(b).mjs")) =
      scriptServer.serve {} bracketedScripts (moduleRequest (encode "a%28b%29.mjs") (encode "a(b).mjs")) := by
  have spells : Url.Spells (encode "a(b).mjs") (encode "a(b).mjs") := Url.spells_self (by decide)
  have spells' : Url.Spells (encode "a%28b%29.mjs") (encode "a(b).mjs") := Url.unescape_eq_ok_iff.mp (by decide +kernel)
  have asked := ofTarget_module spells (by decide) (by decide)
  have asked' := ofTarget_module spells' (by decide) (by decide)
  have plain : Url.IsPlain (encode "a(b).mjs") (encode "a(b).mjs") := .inr (by decide)
  have plain' : Url.IsPlain (encode "a%28b%29.mjs") (encode "a(b).mjs") := .inl (by decide +kernel)
  have taken : Url.taken (encode "a(b).mjs") (encode "a(b).mjs") = encode "a(b).mjs" := by decide +kernel
  have found := serve_script spells asked taken (by decide) (by decide) leadsToScript.1
  have served := serve_module_by_spelling scriptServer {} bracketedScripts asked asked' rfl rfl spells spells' rfl
  exact ⟨asked, asked', found, served.1 (.inr (.inr ⟨plain, plain'⟩))⟩

/-- The name with the blank as it is usually written, and with the brackets as they are. -/
def usualName : String := "a%28b%29%20c.mjs"
def bracketedName : String := "a(b)%20c.mjs"

theorem spells_usualName : Url.Spells (encode usualName) (encode "a(b) c.mjs") :=
  Url.unescape_eq_ok_iff.mp (by decide +kernel)

theorem spells_bracketedName : Url.Spells (encode bracketedName) (encode "a(b) c.mjs") :=
  Url.unescape_eq_ok_iff.mp (by decide +kernel)

/-- The script is found by its usual name. With its brackets as they are, and the blank by its number, it is not. -/
theorem serve_bracketed_name_not_found :
    Request.ofTarget "GET" ("/modules/" ++ usualName) = .ok (moduleRequest (encode usualName) (encode "a(b) c.mjs")) ∧
    Request.ofTarget "GET" ("/modules/" ++ bracketedName) =
    .ok (moduleRequest (encode bracketedName) (encode "a(b) c.mjs")) ∧
    (∃ counted, (scriptServer.serve {} bracketedScripts
    (moduleRequest (encode usualName) (encode "a(b) c.mjs"))).value =
      .ok (scriptAnswer, counted)) ∧
    ∃ counted, (scriptServer.serve {} bracketedScripts
    (moduleRequest (encode bracketedName) (encode "a(b) c.mjs"))).value =
      .ok (.plain 404 "module not found", counted) := by
  have asked := ofTarget_module spells_usualName (by decide) (by decide)
  have asked' := ofTarget_module spells_bracketedName (by decide) (by decide)
  have taken : Url.taken (encode usualName) (encode "a(b) c.mjs") = encode "a(b) c.mjs" := by decide +kernel
  have taken' : Url.taken (encode bracketedName) (encode "a(b) c.mjs") = encode bracketedName := by decide +kernel
  obtain ⟨-, leads, missing⟩ := leadsToScript
  have named' : localPath scriptServer.root (encode bracketedName) = some "/x/a(b)%20c.mjs" :=
    localPath_scriptServer (by decide) (by decide)
  obtain ⟨counted', served'⟩ := serve_get_module scriptServer {} bracketedScripts asked' rfl spells_bracketedName
  rw [taken', query_moduleRequest, sendModule_missing named' ofName_no_query missing] at served'
  exact ⟨asked, asked', serve_script spells_usualName asked taken (by decide) (by decide) leads, counted', served'⟩

end Server
end ScriptLoader
