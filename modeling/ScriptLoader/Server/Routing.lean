import ScriptLoader.Server.Message

/-! What a request asks for, by its method and its path. -/

set_option autoImplicit false
namespace ScriptLoader.Server

inductive Endpoint where
  | health
  | metrics
  | resolve
  | module (path : List UInt8)
  deriving DecidableEq, Repr

namespace Endpoint

def pattern : Endpoint → String
  | .health => "/healthz"
  | .metrics => "/metrics"
  | .resolve => "/resolve"
  | .module _ => "/modules/*"

/-- All endpoints but the metrics answer to one method alone. -/
def allows (endpoint : Endpoint) (method : String) : Bool :=
  match endpoint with
  | .metrics => true
  | _ => method = "GET"

def ofPath? (showsMetrics : Bool) (path : List UInt8) : Option Endpoint :=
  if path = Text.Utf8.encode health.pattern then some health
  else if path = Text.Utf8.encode metrics.pattern then (if showsMetrics then some metrics else none)
  else if path = Text.Utf8.encode resolve.pattern then some resolve
  else
    let above := Text.Utf8.encode "/modules/"
    if above.isPrefixOf path then some (.module (path.drop above.length)) else none

end Endpoint

inductive Route where
  | endpoint (target : Endpoint)
  | notFound
  | methodNotAllowed (allowed : List String)
  deriving DecidableEq, Repr

def methods : List String := ["CONNECT", "DELETE", "GET", "HEAD", "OPTIONS", "PATCH", "POST", "PUT", "TRACE"]

def route (showsMetrics : Bool) (request : Request) : Route :=
  if !methods.contains request.method then .methodNotAllowed []
  else match Endpoint.ofPath? showsMetrics request.routedPath with
    | none => .notFound
    | some endpoint => if endpoint.allows request.method then .endpoint endpoint else .methodNotAllowed ["GET"]

end ScriptLoader.Server
