import ScriptLoader.Json.Access
import ScriptLoader.Proofs.Json.WrittenValues
import ScriptLoader.Proofs.Server.LocalPaths

/-!
Paths that the server hands out. The path in an answer to a resolve request is the path by which the resolved
file is asked for: it is accepted, it names the file, and a request for it is routed to it.
-/

set_option autoImplicit false
namespace ScriptLoader

namespace Text.Utf8

theorem isWellFormed_of_isValid {s : String} (valid : isValid s = true) : isWellFormed (encode s) = true := by
  have plain : encode s = s.toList.flatMap String.utf8EncodeChar := by
    refine List.flatMap_congr fun c mem => ?_
    rw [encodeChar, isValid_iff.mp valid c mem, if_neg Bool.false_ne_true]
  rw [plain]
  exact isWellFormed_written _

end Text.Utf8

namespace Path

theorem rel?_clean (base target : String) : rel? base (clean target) = rel? base target := by
  have parts : targetComponents (clean target) = targetComponents target := by
    simp only [targetComponents, components_clean, isAbs_clean_eq]
  unfold rel?
  rw [clean_clean, isAbs_clean_eq, parts]

theorem startsWith_intercalate (first : String) (others : List String) :
    Text.startsWith (String.intercalate "/" (first :: others)) first = true := by
  rw [Text.startsWith, List.isPrefixOf_iff_prefix]
  cases others with
  | nil => rw [String.intercalate_singleton]
  | cons next rest =>
    rw [String.intercalate_cons_of_ne_nil (List.cons_ne_nil _ _), String.toList_append,
      String.toList_append, List.append_assoc]
    exact List.prefix_append _ _

/-- A path that does not begin with two dots, seen from a directory, goes on from there. -/
theorem names_of_rel? {root path seen : String} (rooted : isAbs root = true) (absolute : isAbs path = true)
    (relative : rel? root path = some seen) (not_up : Text.startsWith seen ".." = false) :
    ∃ names, AllProper names ∧ components path = components root ++ names ∧ seen = ofComponents false names := by
  have proper := proper_of_mem_components absolute
  have target : targetComponents path = components path := by simp [targetComponents, absolute]
  obtain ⟨common, above, below⟩ := exists_common (components root) (components path)
  rw [rel?, clean_of_isAbs rooted, clean_of_isAbs absolute, target,
    if_neg (by simp [rooted, absolute] : ¬ isAbs root ≠ isAbs path)] at relative
  split at relative
  next same =>
    have names := ofComponents_injective (proper_of_mem_components rooted) proper same
    exact ⟨[], fun _ mem => absurd mem List.not_mem_nil,
      by rw [← names, List.append_nil], (Option.some.inj relative).symm⟩
  next other =>
    generalize diverge (components root) (components path) = parts at relative above below
    obtain ⟨up, names⟩ := parts
    dsimp only at relative above below
    split at relative
    · cases relative
    obtain rfl := Option.some.inj relative
    cases up with
    | nil =>
      rw [List.append_nil] at above
      have some_name : names ≠ [] := by
        rintro rfl
        exact other (by rw [above, below, List.append_nil])
      refine ⟨names, fun name mem => proper name (below ▸ List.mem_append_right _ mem), above ▸ below, ?_⟩
      rw [ofComponents_relative some_name]
      rfl
    | cons first others =>
      -- One step up is enough to begin with two dots.
      rw [List.map_cons, List.cons_append, startsWith_intercalate] at not_up
      cases not_up

end Path

namespace Server
open Text.Utf8 ScriptLoader.Path

theorem isValid_relative {path : String} {names : List String} (valid : isValid path = true)
    (some_of : ∀ name ∈ names, name ∈ components path) : isValid (ofComponents false names) = true := by
  by_cases none_left : names = []
  · rw [none_left]
    rfl
  · rw [ofComponents_relative none_left, isValid_iff]
    intro c mem
    rcases mem_intercalate mem with rfl | ⟨name, part, mem⟩
    · rfl
    · exact isValid_iff.mp valid c (mem_of_mem_component (some_of name part) mem)

theorem isWellFormed_relative {names : List String} (wellFormed : ∀ name ∈ names, isWellFormed (encode name) = true) :
    isWellFormed (encode (ofComponents false names)) = true := by
  by_cases none_left : names = []
  · rw [none_left]
    exact isWellFormed_of_isValid rfl
  · rw [ofComponents_relative none_left]
    exact isWellFormed_intercalate wellFormed

theorem dropSlash_encode {path : String} (relative : isAbs path = false) (readable : Readable path) :
    dropSlash (encode path) = encode path := by
  cases bytes : encode path with
  | nil => rfl
  | cons b rest =>
    have no_slash : b ≠ 0x2F := by
      rintro rfl
      -- The slash would be the first character that is read back.
      have chars : (decode (encode path)).toList = '/' :: decodeChars rest := by
        rw [bytes, decode, String.toList_ofList]
        exact decodeChars_sequence (.one (by decide)) (by decide) rest
      rw [readable] at chars
      rw [isAbs, chars] at relative
      cases relative
    exact if_neg no_slash

section
variable {root : String} (rooted : isAbs root = true)
include rooted

/-- The path of a file is handed out if the file is inside the root and its path does not begin like one that
leads out. -/
theorem pathBelow?_eq_some_iff {url path : String} (named : FileUrl.toPath url = .ok path) {q : String} :
    pathBelow? root url = some q ↔ ∃ names, AllProper names ∧ components path = components root ++ names ∧
      q = ofComponents false names ∧ Text.startsWith q ".." = false := by
  have absolute := (FileUrl.of_toPath named).1
  rw [pathBelow?, named]
  dsimp only
  rw [Option.bind_eq_some_iff]
  constructor
  · rintro ⟨seen, relative, kept⟩
    split at kept
    · cases kept
    next not_up =>
      obtain rfl := Option.some.inj kept
      rw [Bool.not_eq_true] at not_up
      obtain ⟨names, proper, inside, seen⟩ := names_of_rel? rooted absolute relative not_up
      exact ⟨names, proper, inside, seen, not_up⟩
  · rintro ⟨names, proper, inside, rfl, not_up⟩
    refine ⟨ofComponents false names, ?_, by rw [not_up, if_neg Bool.false_ne_true]⟩
    rw [← rel?_clean, clean_of_isAbs absolute, inside]
    exact rel?_inside rooted proper

/-- A path that is handed out leads to the file that it was handed out for. -/
theorem localPath_of_pathBelow? {url path q : String} (named : FileUrl.toPath url = .ok path)
    (wellFormed : isWellFormed (encode path) = true) (found : pathBelow? root url = some q) :
    localPath root (encode q) = some (clean path) := by
  obtain ⟨absolute, readable⟩ := FileUrl.of_toPath named
  obtain ⟨names, proper, inside, rfl, -⟩ := (pathBelow?_eq_some_iff rooted named).mp found
  have pieces : ∀ name ∈ names, name ∈ Text.pieces path '/' := by
    intro name mem
    have component : name ∈ components path := inside ▸ List.mem_append_right _ mem
    exact (mem_foldl_push (List.mem_reverse.mp component)).resolve_right List.not_mem_nil
  have readable_names : Readable (ofComponents false names) :=
    readable_ofComponents fun name mem => readable.of_mem_pieces (pieces name mem)
  refine (localPath_eq_some_iff rooted).mpr ⟨names, proper, readable_names, ?_, ?_, ?_⟩
  · exact isWellFormed_relative fun name mem => isWellFormed_of_mem_pieces readable wellFormed (pieces name mem)
  · exact dropSlash_encode (isAbs_of_proper proper false) readable_names
  · rw [clean_of_isAbs absolute, inside]

end

def resolvedMembers (root : String) (result : ResolveResult) : List (String × Json) :=
  [("url", Json.string result.url)] ++
    ((pathBelow? root result.url).map fun path => ("path", Json.string path)).toList ++
    (result.format.map fun format => ("format", Json.string format.name)).toList ++
    [("shortCircuit", .bool result.shortCircuit)]

theorem get_resolvedMembers (root : String) (result : ResolveResult) :
    let body := Json.object ((resolvedMembers root result).map (Json.memberAsRead Json.asRead))
    Json.Access.get body "url" = .string (shown result.url) ∧
      Json.Access.get body "path" = ((pathBelow? root result.url).map fun path => .string (shown path)).getD .null := by
  have names : shown "url" = "url" ∧ shown "path" = "path" ∧ shown "format" = "format" ∧
      shown "shortCircuit" = "shortCircuit" := by decide
  cases below : pathBelow? root result.url <;> cases format : result.format <;>
    simp [resolvedMembers, below, format, Json.memberAsRead, Json.asRead, names, Json.Access.get,
      List.lookup_cons]

/-- An answer of status 200 to a resolve request says what the chain says about the specifier, asked for with
a parent inside the root. -/
theorem resolve_eq_ok {server : Server} {setting : Setting} {query : List UInt8}
    (answered : (server.resolve setting query).value.status = 200) :
    ∃ parent result, localPath server.root (Query.value query "parent") = some parent ∧
      (server.chain.resolve setting
        ⟨decode (Query.value query "specifier"), FileUrl.ofPath setting.fs parent, none⟩).value = .ok result ∧
      (server.resolve setting query).value = .json 200 (resolvedMembers server.root result) := by
  unfold resolve at answered ⊢
  dsimp only at answered ⊢
  split at answered
  · cases answered
  next given =>
  rw [if_neg given]
  cases found : localPath server.root (Query.value query "parent") with
  | none => rw [found] at answered; cases answered
  | some parent =>
    rw [found] at answered
    dsimp only at answered ⊢
    rw [Run.value_bind] at answered ⊢
    cases told : (server.chain.resolve setting
        ⟨decode (Query.value query "specifier"), FileUrl.ofPath setting.fs parent, none⟩).value with
    | error e => rw [told] at answered; cases answered
    | ok result => exact ⟨parent, result, rfl, told, rfl⟩

theorem resolve_of_ok {server : Server} {setting : Setting} {query : List UInt8} {parent : String}
    {result : ResolveResult}
    (given : (Query.value query "specifier").isEmpty = false ∧ (Query.value query "parent").isEmpty = false)
    (inside : localPath server.root (Query.value query "parent") = some parent)
    (found : (server.chain.resolve setting
      ⟨decode (Query.value query "specifier"), FileUrl.ofPath setting.fs parent, none⟩).value = .ok result) :
    (server.resolve setting query).value = .json 200 (resolvedMembers server.root result) := by
  unfold resolve
  dsimp only
  rw [if_neg (by simp [given]), inside]
  dsimp only
  rw [Run.value_bind, found]
  rfl

namespace Request

theorem ofTarget_escapePath (method : String) {path : List UInt8} (rooted : path.head? = some (Url.byte '/')) :
    ofTarget method (String.ofList (Url.escapePath path)) =
      .ok ⟨method, { path := path, writtenPath := (Url.escapePath path).map Url.byte }⟩ := by
  have bytes : encode (String.ofList (Url.escapePath path)) = (Url.escapePath path).map Url.byte :=
    encode_ofList_ascii fun c mem => (Url.of_mem_escapePath mem).1
  have visible : ((Url.escapePath path).map Url.byte).any Url.isControl = false := by
    rw [List.any_map, List.any_eq_false]
    intro c mem
    simp [(Url.of_mem_escapePath mem).2.2.2]
  have starts : ((Url.escapePath path).map Url.byte).head? = some (Url.byte '/') := by
    obtain ⟨rest, rfl⟩ := List.head?_eq_some_iff.mp rooted
    rfl
  have no_query : Url.byte '?' ∉ (Url.escapePath path).map Url.byte := by
    intro mem
    obtain ⟨c, mem, same⟩ := List.mem_map.mp mem
    exact (Url.of_mem_escapePath mem).2.2.1 same
  unfold ofTarget
  dsimp only
  rw [bytes, if_neg (by rw [visible]; exact Bool.false_ne_true), if_pos starts, Url.cut_of_not_mem no_query,
    Url.unescape_escapePath]

theorem routedPath_escapePath (method : String) {path : List UInt8} (rooted : path.head? = some (Url.byte '/')) :
    routedPath ⟨method, { path := path, writtenPath := (Url.escapePath path).map Url.byte }⟩ = path := by
  obtain ⟨rest, rfl⟩ := List.head?_eq_some_iff.mp rooted
  rw [routedPath, isUsuallyWritten, if_pos (decide_eq_true rfl)]
  rfl

end Request

theorem Endpoint.ofPath?_modules (showsMetrics : Bool) (path : List UInt8) :
    ofPath? showsMetrics (encode "/modules/" ++ path) = some (.module path) := by
  have other : ∀ pattern, (encode pattern).take 3 ≠ encode "/mo" → encode "/modules/" ++ path ≠ encode pattern := by
    intro pattern differs same
    exact differs (by rw [← same]; rfl)
  rw [ofPath?, if_neg (other _ (by decide)), if_neg (other _ (by decide)), if_neg (other _ (by decide))]
  dsimp only
  rw [if_pos (List.isPrefixOf_iff_prefix.mpr (List.prefix_append _ _)), List.drop_left]

def moduleTarget (path : String) : String := "/modules/" ++ String.ofList (Url.escapePath (encode path))

theorem route_moduleTarget (showsMetrics : Bool) (path : String) :
    ∃ request, Request.ofTarget "GET" (moduleTarget path) = .ok request ∧
      route showsMetrics request = .endpoint (.module (encode path)) := by
  have target : moduleTarget path = String.ofList (Url.escapePath (encode "/modules/" ++ encode path)) := by
    apply String.toList_inj.mp
    have plain : Url.escapePath (encode "/modules/") = "/modules/".toList := by decide
    simp only [moduleTarget, String.toList_append, String.toList_ofList, Url.escapePath_append, plain]
  rw [target, Request.ofTarget_escapePath "GET" rfl]
  refine ⟨_, rfl, ?_⟩
  rw [route, Request.routedPath_escapePath "GET" rfl, Endpoint.ofPath?_modules]
  rfl

theorem value_answer_of_serve {server : Server} {metrics counted : Metrics} {setting : Setting} {request : Request}
    {response : Response} (answered : (server.serve metrics setting request).value = .ok (response, counted)) :
    (server.answer metrics setting request (route server.showsMetrics request)).value = response := by
  unfold serve at answered
  dsimp only at answered
  generalize server.count metrics request _ _ = outcome at answered
  cases outcome with
  | error => cases answered
  | ok => exact (Prod.mk.inj (Except.ok.inj answered)).1

/-- The path in an answer to a resolve request names the file that the URL beside it names, and a request for
it is routed to it. It is left out only for files that are not inside the root, and for names that begin with
two dots. -/
theorem resolve_path_names_resolved {server : Server} (rooted : isAbs server.root = true)
    (settled : clean server.root = server.root) {metrics counted : Metrics} {setting : Setting} {request : Request}
    {response : Response} (asked : route server.showsMetrics request = .endpoint .resolve)
    (answered : (server.serve metrics setting request).value = .ok (response, counted))
    (found : response.status = 200) :
    ∃ parent result body,
      localPath server.root (Query.value request.url.query "parent") = some parent ∧
      (server.chain.resolve setting
        ⟨decode (Query.value request.url.query "specifier"), FileUrl.ofPath setting.fs parent, none⟩).value =
          .ok result ∧
      Json.parse? .plain response.body = some body ∧ Json.Access.get body "url" = .string (shown result.url) ∧
      ∀ path, FileUrl.toPath result.url = .ok path → isValid path = true →
        (∀ q, Json.Access.get body "path" = .string q →
          localPath server.root (encode q) = some (clean path) ∧
          ∃ next, Request.ofTarget "GET" (moduleTarget q) = .ok next ∧
            route server.showsMetrics next = .endpoint (.module (encode q))) ∧
        (∀ names, AllProper names → clean path = below server.root names →
          Text.startsWith (ofComponents false names) ".." = false →
          Json.Access.get body "path" = .string (ofComponents false names)) := by
  have told := value_answer_of_serve answered
  rw [asked] at told
  have told : (server.resolve setting request.url.query).value = response := told
  obtain ⟨parent, result, inside, resolved, members⟩ := resolve_eq_ok (told ▸ found)
  rw [told] at members
  obtain ⟨url, handed⟩ := get_resolvedMembers server.root result
  refine ⟨parent, result, _, inside, resolved, ?_, url, fun path named valid => ⟨fun q given => ?_, ?_⟩⟩
  · rw [members]
    exact Json.parse?_record _
  · cases out : pathBelow? server.root result.url with
    | none =>
      rw [handed, out] at given
      cases given
    | some own =>
      obtain ⟨names, -, components, own_eq, -⟩ := (pathBelow?_eq_some_iff rooted named).mp out
      have plain : isValid own = true :=
        own_eq ▸ isValid_relative valid fun name mem => components ▸ List.mem_append_right _ mem
      rw [handed, out, Option.map_some, Option.getD_some, shown_of_isValid plain] at given
      obtain rfl := Json.string.inj given
      exact ⟨localPath_of_pathBelow? rooted named (isWellFormed_of_isValid valid) out, route_moduleTarget _ own⟩
  · intro names proper whole not_up
    have components : components path = components server.root ++ names := by
      rw [below_eq rooted settled] at whole
      rw [← components_clean, whole, components_ofComponents (proper_inside rooted proper)]
    have out := (pathBelow?_eq_some_iff rooted named).mpr ⟨names, proper, components, rfl, not_up⟩
    have plain : isValid (ofComponents false names) = true :=
      isValid_relative valid fun name mem => components ▸ List.mem_append_right _ mem
    rw [handed, out, Option.map_some, Option.getD_some, shown_of_isValid plain]

/-- Finds one module, whatever is asked for. -/
def finding : Hooks where
  resolve := fun _ _ => return .finish (.ok { url := FileUrl.ofBytes (encode "/srv/lib//a.ts"), shortCircuit := true })
  load := fun _ request => return .pass request

def libraryServer : Server := { root := "/srv", chain := ⟨[finding]⟩, counts := false }

def libraryRequest : Request :=
  ⟨"GET", { path := encode "/resolve", writtenPath := encode "/resolve",
            query := encode "specifier=./a.ts&parent=lib/b.ts" }⟩

theorem resolve_path_in_library :
    ∃ response body, isAbs libraryServer.root = true ∧ clean libraryServer.root = libraryServer.root ∧
      route libraryServer.showsMetrics libraryRequest = .endpoint .resolve ∧
      (libraryServer.serve {} ⟨⟨.empty, "/v", rfl⟩, false⟩ libraryRequest).value = .ok (response, {}) ∧
      response.status = 200 ∧
      Json.parse? .plain response.body = some body ∧ Json.Access.get body "path" = .string "lib/a.ts" ∧
      localPath libraryServer.root (encode "lib/a.ts") = some "/srv/lib/a.ts" := by
  have rooted : isAbs libraryServer.root = true := by decide
  have settled : clean libraryServer.root = libraryServer.root := by decide
  have asked : route libraryServer.showsMetrics libraryRequest = .endpoint .resolve := by decide
  have parent_eq : Query.value libraryRequest.url.query "parent" = encode "lib/b.ts" := by decide
  obtain ⟨parent, inside⟩ :=
    localPath_of_plain "/srv" (by decide : (encode "lib/b.ts").toByteArray.IsValidUTF8) (by decide)
  have told : (libraryServer.serve {} ⟨⟨.empty, "/v", rfl⟩, false⟩ libraryRequest).value =
      .ok (.json 200
        (resolvedMembers "/srv" { url := FileUrl.ofBytes (encode "/srv/lib//a.ts"), shortCircuit := true }), {}) := by
    have answered : (libraryServer.serve {} ⟨⟨.empty, "/v", rfl⟩, false⟩ libraryRequest).value =
        .ok ((libraryServer.answer {} ⟨⟨.empty, "/v", rfl⟩, false⟩ libraryRequest
          (route libraryServer.showsMetrics libraryRequest)).value, {}) := rfl
    rw [answered, asked, answer, resolve_of_ok (by decide) (parent_eq ▸ inside) rfl]
    rfl
  obtain ⟨_, result, body, -, found, read, -, paths⟩ := resolve_path_names_resolved rooted settled asked told rfl
  obtain rfl : result = { url := FileUrl.ofBytes (encode "/srv/lib//a.ts"), shortCircuit := true } :=
    (Except.ok.inj found).symm
  have named : FileUrl.toPath (FileUrl.ofBytes (encode "/srv/lib//a.ts")) = .ok "/srv/lib//a.ts" := by
    have back : decode (encode "/srv/lib//a.ts") = "/srv/lib//a.ts" := readable_of_isValid (by decide)
    rw [FileUrl.toPath, FileUrl.toBytes_ofBytes (by decide), Except.map, back]
  obtain ⟨leads, handed⟩ := paths _ named (by decide)
  have path := handed ["lib", "a.ts"] (by decide) (by decide) (by decide)
  exact ⟨_, body, rooted, settled, asked, told, rfl, read, path, (leads _ path).1⟩

end Server
end ScriptLoader
