import ScriptLoader.Server.Routing
import ScriptLoader.Pipeline.Progress

/-!
Counts of requests and of finished stages. Of a duration only the number of measurements is kept, since
the rest depends on the clock.
-/

set_option autoImplicit false
namespace ScriptLoader.Server

abbrev Tally := List (List String × Nat)

def Tally.add (labels : List String) : Tally → Tally
  | [] => [(labels, 1)]
  | (held, count) :: rest =>
    if labels = held then (held, count + 1) :: rest
    else if labels < held then (labels, 1) :: (held, count) :: rest
    else (held, count) :: add labels rest

/-- A label whose value is not well formed, under which nothing can be counted. -/
structure BadLabel where
  value : String
  deriving DecidableEq, Repr

def BadLabel.message (label : BadLabel) : String := "label value " ++ Text.quoted label.value ++ " is not valid UTF-8"

structure Metrics where
  /-- By method, path and status. -/
  requests : Tally := []
  /-- By stage and status. -/
  stages : Tally := []
  deriving DecidableEq, Repr

namespace Metrics

/-- What stands for the path of a request: the pattern of its endpoint, or the path itself where there is none. -/
def pathLabel (route : Route) (request : Request) : String :=
  match route with
  | .endpoint endpoint => endpoint.pattern
  | _ => Text.Utf8.decode request.url.path

/-- Counts an answered request. The values of its labels must be well-formed text. -/
def addRequest (metrics : Metrics) (route : Route) (request : Request) (status : Nat) :
    Except BadLabel Metrics :=
  let labels := [request.method, pathLabel route request, toString status]
  match labels.find? fun label => label.toList.any Text.Utf8.isStray with
  | some label => .error ⟨label⟩
  | none => .ok { metrics with requests := metrics.requests.add labels }

def addEvent (metrics : Metrics) (event : ProgressEvent) : Metrics :=
  if event.status = .working then metrics
  else { metrics with stages := metrics.stages.add [event.stage.name, event.status.name] }

def escapeLabelChar (c : Char) : String :=
  if c = '\\' then "\\\\" else if c = '"' then "\\\"" else if c = '\n' then "\\n" else String.singleton c

def renderLabel (label : String × String) : String :=
  label.1 ++ "=\"" ++ String.join (label.2.toList.map escapeLabelChar) ++ "\""

/-- A family of counts under one name; nothing when it has no counts. -/
def renderFamily (name help kind sample : String) (labels : List String) (tally : Tally) : List String :=
  if tally.isEmpty then []
  else ["# HELP " ++ name ++ " " ++ help, "# TYPE " ++ name ++ " " ++ kind] ++
    tally.map fun (values, count) =>
      sample ++ "\x7b" ++ String.intercalate "," ((labels.zip values).map renderLabel) ++ "\x7d " ++ toString count

def requestLabels : List String := ["method", "path", "status"]

def lines (metrics : Metrics) : List String :=
  renderFamily "tsload_http_request_duration_seconds" "HTTP request duration in seconds" "histogram"
      "tsload_http_request_duration_seconds_count" requestLabels metrics.requests ++
    renderFamily "tsload_http_requests_total" "Total number of HTTP requests" "counter"
      "tsload_http_requests_total" requestLabels metrics.requests ++
    renderFamily "tsload_pipeline_stage_duration_seconds" "Duration of compile pipeline stages" "histogram"
      "tsload_pipeline_stage_duration_seconds_count" ["stage", "status"] metrics.stages

def render (metrics : Metrics) : String := String.join (metrics.lines.map (· ++ "\n"))

end Metrics
end ScriptLoader.Server
