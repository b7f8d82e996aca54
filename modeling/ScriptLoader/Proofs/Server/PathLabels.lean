import ScriptLoader.Proofs.Server.ResolvedPaths

/-!
The values of the path label under which requests are counted. A request that an endpoint answers is counted
under the pattern of the endpoint, and there are few patterns. Any other request is counted under its own
path, so that the values grow with what is asked for.
-/

set_option autoImplicit false
namespace ScriptLoader
open Text.Utf8

namespace Server

theorem Tally.mem_add_iff {labels values : List String} {tally : Tally} :
    values ∈ (tally.add labels).map Prod.fst ↔ values = labels ∨ values ∈ tally.map Prod.fst := by
  induction tally with
  | nil => simp [add]
  | cons entry rest ih =>
    obtain ⟨held, count⟩ := entry
    rw [add]
    split
    next same => simp [same]
    next =>
      split
      · simp
      · rw [List.map_cons, List.mem_cons, ih, List.map_cons, List.mem_cons, or_left_comm]

/-- The patterns of the endpoints. Without counts to be asked for, theirs is not among them. -/
def patterns (showsMetrics : Bool) : List String :=
  [Endpoint.health.pattern, Endpoint.resolve.pattern, (Endpoint.module []).pattern] ++
    if showsMetrics then [Endpoint.metrics.pattern] else []

namespace Endpoint

theorem pattern_mem_of_path {showsMetrics : Bool} {path : List UInt8} {endpoint : Endpoint}
    (found : ofPath? showsMetrics path = some endpoint) : endpoint.pattern ∈ patterns showsMetrics := by
  unfold ofPath? at found
  split at found
  · obtain rfl := Option.some.inj found
    exact List.mem_append_left _ (by decide)
  split at found
  · split at found
    next shown =>
      obtain rfl := Option.some.inj found
      rw [patterns, if_pos shown]
      exact List.mem_append_right _ (by decide)
    · cases found
  split at found
  · obtain rfl := Option.some.inj found
    exact List.mem_append_left _ (by decide)
  dsimp only at found
  split at found
  · obtain rfl := Option.some.inj found
    exact List.mem_append_left _ (by simp [pattern])
  · cases found

end Endpoint

theorem of_route_endpoint {showsMetrics : Bool} {request : Request} {endpoint : Endpoint}
    (matched : route showsMetrics request = .endpoint endpoint) :
    request.method ∈ methods ∧ endpoint.pattern ∈ patterns showsMetrics := by
  unfold route at matched
  split at matched
  · cases matched
  next known =>
    split at matched
    · cases matched
    next found =>
      split at matched
      · obtain rfl := Route.endpoint.inj matched
        exact ⟨by simpa using known, Endpoint.pattern_mem_of_path found⟩
      · cases matched

namespace Metrics

def pathLabels (metrics : Metrics) : List String :=
  metrics.requests.filterMap fun entry => (requestLabels.zip entry.1).lookup "path"

theorem mem_pathLabels {metrics : Metrics} {label : String} :
    label ∈ metrics.pathLabels ↔
      ∃ values ∈ metrics.requests.map Prod.fst, (requestLabels.zip values).lookup "path" = some label := by
  simp [pathLabels, List.mem_filterMap]

/-- Whether the values of a request's labels are well-formed text. -/
def Countable (target : Route) (request : Request) : Prop :=
  isValid request.method = true ∧ isValid (pathLabel target request) = true

theorem find?_stray_eq_none_iff (target : Route) (request : Request) (status : Nat) :
    ([request.method, pathLabel target request, toString status].find? fun label => label.toList.any isStray) = none ↔
      Countable target request := by
  have valid : ∀ text : String, ¬ text.toList.any isStray = true ↔ isValid text = true := fun text => by simp [isValid]
  rw [List.find?_eq_none, List.forall_mem_cons, List.forall_mem_cons, List.forall_mem_singleton, valid, valid, valid,
    Countable, and_iff_left (isValid_toString status)]

theorem addRequest_of_countable {metrics : Metrics} {target : Route} {request : Request}
    (countable : Countable target request) (status : Nat) :
    metrics.addRequest target request status =
      .ok { metrics with
        requests := metrics.requests.add [request.method, pathLabel target request, toString status] } := by
  rw [addRequest, (find?_stray_eq_none_iff target request status).mpr countable]

theorem addRequest_of_not_countable {metrics : Metrics} {target : Route} {request : Request}
    (stray : ¬ Countable target request) (status : Nat) :
    ∃ label, metrics.addRequest target request status = .error label := by
  cases found : [request.method, pathLabel target request, toString status].find? fun label =>
    label.toList.any isStray with
  | none => exact absurd ((find?_stray_eq_none_iff target request status).mp found) stray
  | some label => exact ⟨⟨label⟩, by rw [addRequest, found]⟩

end Metrics

def countsAfterOne (server : Server) (metrics : Metrics) (visit : Setting × Request) : Metrics :=
  match (server.serve metrics visit.1 visit.2).value with
  | .error _ => metrics
  | .ok (_, counted) => counted

def countsAfter (server : Server) (metrics : Metrics) (visits : List (Setting × Request)) : Metrics :=
  visits.foldl server.countsAfterOne metrics

theorem Metrics.requests_addEvent (metrics : Metrics) (event : ProgressEvent) :
    (metrics.addEvent event).requests = metrics.requests := by
  unfold addEvent
  split <;> rfl

theorem requests_foldl {step : Metrics → Happening → Metrics}
    (keeps : ∀ metrics happening, (step metrics happening).requests = metrics.requests)
    (trace : List Happening) (metrics : Metrics) :
    (trace.foldl step metrics).requests = metrics.requests := by
  induction trace generalizing metrics with
  | nil => rfl
  | cons happening rest ih => rw [List.foldl_cons, ih, keeps]

/-- Whether a server counts a request, and the value of the path label under which it does. -/
def CountsUnder (server : Server) (request : Request) (label : String) : Prop :=
  server.counts = true ∧ Metrics.Countable (route server.showsMetrics request) request ∧
    label = Metrics.pathLabel (route server.showsMetrics request) request

/-- A request adds the values of its labels, or leaves the counts of requests as they are. -/
theorem requests_countsAfterOne (server : Server) (metrics : Metrics) (visit : Setting × Request) :
    (∃ (label : String) (status : Nat), server.CountsUnder visit.2 label ∧
      (server.countsAfterOne metrics visit).requests = metrics.requests.add [visit.2.method, label, toString status]) ∨
    (∀ label, ¬ server.CountsUnder visit.2 label) ∧
    (server.countsAfterOne metrics visit).requests = metrics.requests := by
  unfold countsAfterOne serve count
  dsimp only
  generalize server.answer metrics visit.1 visit.2 (route server.showsMetrics visit.2) = run
  by_cases counts : server.counts = true
  · rw [if_neg (by simp [counts])]
    by_cases countable : Metrics.Countable (route server.showsMetrics visit.2) visit.2
    · refine .inl ⟨_, run.value.status, ⟨counts, countable, rfl⟩, ?_⟩
      rw [Metrics.addRequest_of_countable countable]
      refine congrArg (Tally.add _) (requests_foldl (fun metrics happening => ?_) run.trace metrics)
      cases happening with
      | progress event => exact metrics.requests_addEvent event
      | _ => rfl
    · refine .inr ⟨fun label under => countable under.2.1, ?_⟩
      obtain ⟨label, refused⟩ := Metrics.addRequest_of_not_countable countable run.value.status
      rw [refused]
      rfl
  · refine .inr ⟨fun label under => counts under.1, ?_⟩
    rw [if_pos (by simp [counts])]
    rfl

theorem mem_pathLabels_countsAfterOne {server : Server} {metrics : Metrics} {visit : Setting × Request}
    {label : String} :
    label ∈ (server.countsAfterOne metrics visit).pathLabels ↔
      label ∈ metrics.pathLabels ∨ server.CountsUnder visit.2 label := by
  rw [Metrics.mem_pathLabels, Metrics.mem_pathLabels]
  rcases server.requests_countsAfterOne metrics visit with ⟨own, status, under, added⟩ | ⟨uncounted, same⟩
  · have path : ∀ method path status : String, (Metrics.requestLabels.zip [method, path, status]).lookup "path" =
        some path := by
      intro method path status
      simp [Metrics.requestLabels, List.lookup_cons]
    have only : server.CountsUnder visit.2 label ↔ own = label := by
      refine ⟨fun other => under.2.2.trans other.2.2.symm, ?_⟩
      rintro rfl
      exact under
    rw [added, only]
    simp only [Tally.mem_add_iff, or_and_right, exists_or, exists_eq_left, path, Option.some.injEq]
    exact or_comm
  · rw [same]
    exact (or_iff_left (uncounted label)).symm

theorem mem_pathLabels_countsAfter {server : Server} {metrics : Metrics} {visits : List (Setting × Request)}
    {label : String} :
    label ∈ (server.countsAfter metrics visits).pathLabels ↔
      label ∈ metrics.pathLabels ∨ ∃ visit ∈ visits, server.CountsUnder visit.2 label := by
  induction visits generalizing metrics with
  | nil => simp [countsAfter]
  | cons visit later ih =>
    have step : server.countsAfter metrics (visit :: later) =
      server.countsAfter (server.countsAfterOne metrics visit) later := rfl
    rw [step, ih, mem_pathLabels_countsAfterOne, or_assoc, List.exists_mem_cons_iff]

def Matched (server : Server) (request : Request) : Prop :=
  ∃ endpoint, route server.showsMetrics request = .endpoint endpoint

theorem isValid_of_mem_methods {method : String} (known : method ∈ methods) : isValid method = true := by
  have all : methods.all isValid = true := by decide
  exact List.all_eq_true.mp all method known

theorem isValid_of_mem_patterns {showsMetrics : Bool} {pattern : String}
    (registered : pattern ∈ patterns showsMetrics) :
    isValid pattern = true := by
  have all : ∀ showsMetrics, (patterns showsMetrics).all isValid = true := by decide
  exact List.all_eq_true.mp (all showsMetrics) pattern registered

theorem countsUnder_endpoint_iff {server : Server} {request : Request} {endpoint : Endpoint}
    (matched : route server.showsMetrics request = .endpoint endpoint) {label : String} :
    server.CountsUnder request label ↔ server.counts = true ∧ label = endpoint.pattern := by
  obtain ⟨known, registered⟩ := of_route_endpoint matched
  rw [CountsUnder, matched, Metrics.Countable]
  simp [Metrics.pathLabel, isValid_of_mem_methods known, isValid_of_mem_patterns registered]

theorem countsUnder_unmatched_iff {server : Server} {request : Request} (unmatched : ¬ server.Matched request)
    {label : String} :
    server.CountsUnder request label ↔ server.counts = true ∧ label = decode request.url.path ∧
      isValid request.method = true ∧ isValid label = true := by
  have path : Metrics.pathLabel (route server.showsMetrics request) request = decode request.url.path := by
    unfold Metrics.pathLabel
    split
    next endpoint matched => exact absurd ⟨endpoint, matched⟩ unmatched
    next => rfl
  rw [CountsUnder, Metrics.Countable, path]
  constructor
  · rintro ⟨counts, ⟨method, valid⟩, rfl⟩
    exact ⟨counts, rfl, method, valid⟩
  · rintro ⟨counts, rfl, method, valid⟩
    exact ⟨counts, ⟨method, valid⟩, rfl⟩

/-- The values of the path label after any requests: the patterns of the endpoints that answered, and the
paths of the requests that no endpoint answered. -/
theorem pathLabels_patterns_and_unmatched (server : Server) (visits : List (Setting × Request)) (label : String) :
    label ∈ (server.countsAfter {} visits).pathLabels ↔ server.counts = true ∧
      ((label ∈ patterns server.showsMetrics ∧
          ∃ visit ∈ visits, ∃ endpoint, route server.showsMetrics visit.2 = .endpoint endpoint ∧
          label = endpoint.pattern) ∨
        ∃ visit ∈ visits, ¬ server.Matched visit.2 ∧ label = decode visit.2.url.path ∧
          isValid visit.2.method = true ∧ isValid label = true) := by
  rw [mem_pathLabels_countsAfter, or_iff_right (by simp [Metrics.pathLabels])]
  constructor
  · rintro ⟨visit, mem, under⟩
    by_cases matched : server.Matched visit.2
    · obtain ⟨endpoint, answered⟩ := matched
      obtain ⟨counts, rfl⟩ := (countsUnder_endpoint_iff answered).mp under
      exact ⟨counts, .inl ⟨(of_route_endpoint answered).2, visit, mem, endpoint, answered, rfl⟩⟩
    · obtain ⟨counts, path⟩ := (countsUnder_unmatched_iff matched).mp under
      exact ⟨counts, .inr ⟨visit, mem, matched, path⟩⟩
  · rintro ⟨counts, ⟨-, visit, mem, endpoint, answered, rfl⟩ | ⟨visit, mem, unmatched, path⟩⟩
    · exact ⟨visit, mem, (countsUnder_endpoint_iff answered).mpr ⟨counts, rfl⟩⟩
    · exact ⟨visit, mem, (countsUnder_unmatched_iff unmatched).mpr ⟨counts, path⟩⟩

/-- A path that no endpoint has, as long as is wanted. -/
def strangePath (length : Nat) : String := "/a" ++ Text.fill 'a' length

theorem toList_strangePath (length : Nat) : (strangePath length).toList = '/' :: 'a' :: List.replicate length 'a' := by
  simp [strangePath, Text.fill]

theorem isValid_strangePath (length : Nat) : isValid (strangePath length) = true := by
  rw [isValid_iff, toList_strangePath]
  intro c mem
  simp only [List.mem_cons, List.mem_replicate] at mem
  rcases mem with rfl | rfl | ⟨-, rfl⟩ <;> rfl

theorem ofPath?_strangePath (showsMetrics : Bool) (length : Nat) :
    Endpoint.ofPath? showsMetrics (encode (strangePath length)) = none := by
  have front : (encode (strangePath length)).take 2 = encode "/a" := by
    rw [encode, toList_strangePath]
    rfl
  have other : ∀ pattern, (encode pattern).take 2 ≠ encode "/a" → encode (strangePath length) ≠ encode pattern :=
    fun pattern differs same => differs (same ▸ front)
  have no_module : ¬ (encode "/modules/").isPrefixOf (encode (strangePath length)) = true := by
    intro begins
    obtain ⟨rest, whole⟩ := List.isPrefixOf_iff_prefix.mp begins
    rw [← whole] at front
    have same : (encode "/modules/").take 2 = encode "/a" := front
    exact absurd same (by decide)
  rw [Endpoint.ofPath?, if_neg (other _ (by decide)), if_neg (other _ (by decide)), if_neg (other _ (by decide))]
  exact if_neg no_module

def countingServer : Server := { root := "/srv", chain := {} }

def usualRequest (path : List UInt8) : Request :=
  ⟨"GET", { path := path, writtenPath := (Url.escapePath path).map Url.byte }⟩

theorem countsUnder_strangePath (length : Nat) :
    countingServer.CountsUnder (usualRequest (encode (strangePath length))) (strangePath length) := by
  have valid := isValid_strangePath length
  have starts : (encode (strangePath length)).head? = some (Url.byte '/') := by
    rw [encode, toList_strangePath]
    rfl
  have routed : route countingServer.showsMetrics (usualRequest (encode (strangePath length))) = .notFound := by
    rw [route, usualRequest, Request.routedPath_escapePath "GET" starts, ofPath?_strangePath]
    rfl
  refine (countsUnder_unmatched_iff ?_).mpr
    ⟨rfl, (readable_of_isValid valid).symm, isValid_of_mem_methods (.tail _ (.tail _ (.head _))), valid⟩
  rintro ⟨endpoint, matched⟩
  cases routed.symm.trans matched

theorem exists_length_bound (texts : List String) : ∃ length, ∀ text ∈ texts, text.length ≤ length := by
  induction texts with
  | nil => exact ⟨0, by simp⟩
  | cons text rest ih =>
    obtain ⟨length, bound⟩ := ih
    refine ⟨max text.length length, List.forall_mem_cons.mpr ⟨Nat.le_max_left _ _, fun other mem => ?_⟩⟩
    exact Nat.le_trans (bound other mem) (Nat.le_max_right _ _)

/-- No finite list holds all values that clients can bring about, even with requests of the usual method and
form alone. -/
theorem pathLabels_beyond_any_list :
    ¬ ∃ allowed : List String, ∀ visits : List (Setting × Request),
      (∀ visit ∈ visits, ∃ target, Request.ofTarget "GET" target = .ok visit.2) →
        ∀ label ∈ (countingServer.countsAfter {} visits).pathLabels, label ∈ allowed := by
  rintro ⟨allowed, bounded⟩
  -- A path that is longer than every text of the list is none of them.
  obtain ⟨length, bound⟩ := exists_length_bound allowed
  have counted : strangePath length ∈ (countingServer.countsAfter {}
      [(⟨⟨.empty, "/y", rfl⟩, false⟩, usualRequest (encode (strangePath length)))]).pathLabels :=
    mem_pathLabels_countsAfter.mpr (.inr ⟨_, List.mem_singleton_self _, countsUnder_strangePath length⟩)
  have listed : strangePath length ∈ allowed := by
    refine bounded _ (fun visit mem => ?_) _ counted
    rw [List.mem_singleton.mp mem]
    exact ⟨_, Request.ofTarget_escapePath "GET" (by rw [encode, toList_strangePath]; rfl)⟩
  have short := bound _ listed
  rw [← String.length_toList, toList_strangePath] at short
  simp only [List.length_cons, List.length_replicate] at short
  omega

end Server
end ScriptLoader
