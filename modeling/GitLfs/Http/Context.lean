import GitLfs.Http.Request
import GitLfs.Http.Response

/-!
# The request context

Every request has an identifier: the one that the client gives, or a fresh one. While the request is
answered, all log records bear it; its start and its end are reported; and the response carries it.
-/

namespace GitLfs.Http

/-- The header that carries the identifier of a request. -/
def requestIdHeader : String := "x-request-id"

/-- Whether a text occurs in another one. -/
def occursIn (word : List Char) : List Char → Bool
  | [] => word.isEmpty
  | c :: rest => word.isPrefixOf (c :: rest) || occursIn word rest

/-- The label of a path in logs, by its look. -/
def endpointLabel (path : String) : String :=
  if "/objects/batch".toList.isSuffixOf path.toList then "batch"
  else if occursIn "/locks".toList path.toList then "locks"
  else "other"

/-- The identifier of a request. -/
def requestIdOf (r : Request) (fresh : String) : String :=
  match r.header? requestIdHeader with
  | some id => if id = "" then fresh else id
  | none => fresh

/-- A record of the gateway about a request. -/
def gatewayRecord (level : Level) (message id endpoint : String) : Record where
  level := level
  logger := Log.logger "gateway"
  message := message
  requestId := id
  endpoint := some endpoint

/-- Makes `id` the identifier of the request that is being answered. -/
def setRequestId {σ : Type} (id : Option String) : Service σ Unit :=
  modify fun p => { p with requestId := id }

/-- Answers a request in its context: `inner` is told the identifier of the request. -/
def inContext {σ : Type} (fresh : String) (r : Request) (inner : String → Service σ Response) :
    Service σ Response := do
  let id := requestIdOf r fresh
  let label := endpointLabel (shownPath r.path)
  let outer := (← get).requestId
  setRequestId (some id)
  Service.record { gatewayRecord .info "request.start" id label with
    path := some (shownPath r.path), method := some r.method }
  match ← Service.attempt (inner id) with
  | .ok response =>
    setRequestId outer
    Service.record { gatewayRecord .info "request.end" id label with
      status := some response.status }
    return response.withHeader requestIdHeader id
  | .error e =>
    Service.record (gatewayRecord .error "request.exception" id label)
    setRequestId outer
    throw e

end GitLfs.Http
