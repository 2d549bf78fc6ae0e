import GitLfs.Http.Body
import GitLfs.Http.Context
import GitLfs.Http.Route
import GitLfs.Lock.Request
import GitLfs.Storage.Exchange

/-!
# The gateway

A gateway answers HTTP requests about batches and locks. A handler first finds out who asks, then
reads what the address and the body say, and only then turns to the service.

The pages on which a server documents its own endpoints are not part of the gateway.
-/

namespace GitLfs.Http

/-- The services of a gateway and where they are mounted. -/
structure Gateway (σ : Type) where
  batchMount : Mount
  lockMount : Mount
  /-- The version that the health endpoint tells. -/
  version : String
  /-- The start of the addresses that clients are sent to. -/
  origin : String
  exchange : Exchange σ
  locking : Locking σ

namespace Gateway

variable {σ : Type}

/-- Who makes a request. -/
def principal (r : Request) : Service σ (Option String) :=
  match r.principal with
  | .ok user => pure user
  | .error e => Service.refuse e

/-- The repository of a request to an endpoint. -/
def repository (r : Request) (endpoint : String) : Option String :=
  some (repositoryPath r.path endpoint)

/-- Answers a batch request. -/
def handleBatch (g : Gateway σ) (r : Request) : Service σ Response := do
  let user ← principal r
  let request ← Service.ofExcept (parseBody BatchRequest.decode false r.body)
  let answer ← g.exchange.batch request user (repository r batchPath) r.authorization?
  Service.ofExcept (Response.success 200 answer.encode)

/-- Answers a request for locks. -/
def handleListLocks (g : Gateway σ) (r : Request) : Service σ Response := do
  let user ← principal r
  let query ← Service.ofExcept (LockQuery.ofQuery r.query)
  let page ← g.locking.list query user (repository r locksPath)
  Service.ofExcept (Response.success 200 page.encode)

/-- Refuses a request for locks with more path than there should be. -/
def handleListBelow (tail : String) : Service σ Response :=
  Service.refuse (.internal ("Invalid path info in the GET request: /" ++ tail))

/-- Answers a request to lock a path. -/
def handleCreateLock (g : Gateway σ) (r : Request) : Service σ Response := do
  let user ← principal r
  let request ← Service.ofExcept (parseBody CreateRequest.decode false r.body)
  let answer ← g.locking.create request user (repository r locksPath)
  Service.ofExcept (Response.success 201 answer.encode)

/-- Answers a request for the locks that matter before a push. -/
def handleVerifyLocks (g : Gateway σ) (r : Request) : Service σ Response := do
  let user ← principal r
  let request ← Service.ofExcept (parseBody VerifyRequest.decode true r.body)
  let page ← g.locking.listToVerify request user (repository r verifyPath)
  Service.ofExcept (Response.success 200 page.encode)

/-- Answers a request to release a lock. -/
def handleReleaseLock (g : Gateway σ) (r : Request) (tail : String) : Service σ Response := do
  let user ← principal r
  let id ← match Lock.idOfUnlockPath tail with
    | .ok id => pure id
    | .error e => Service.refuse e
  let request ← Service.ofExcept (parseBody ReleaseRequest.decode true r.body)
  let answer ← g.locking.release id request user (repository r (locksPath ++ "/" ++ tail))
  Service.ofExcept (Response.success 200 answer.encode)

/-- The response that tells that the gateway is up. -/
def healthResponse (g : Gateway σ) : Response :=
  Response.json 200 (.object [("status", .text "ok"), ("version", .text g.version)]) []

/-- The response of an endpoint. -/
def handle (g : Gateway σ) (r : Request) (tail : String) : Endpoint → Service σ Response
  | .batch => answering "batch.routes" (g.handleBatch r)
  | .listLocks => answering "locks.routes" (g.handleListLocks r)
  | .listBelow => answering "locks.routes" (handleListBelow tail)
  | .createLock => answering "locks.routes" (g.handleCreateLock r)
  | .verifyLocks => answering "locks.routes" (g.handleVerifyLocks r)
  | .releaseLock => answering "locks.routes" (g.handleReleaseLock r tail)
  | .health => return g.healthResponse

/-- What becomes of a request. -/
def routing (g : Gateway σ) (r : Request) : Routing :=
  route (routes g.batchMount g.lockMount) r.method r.path

/-- The response to a request, outside of its context. -/
def dispatch (g : Gateway σ) (r : Request) : Service σ Response :=
  match g.routing r with
  | .found endpoint tail => g.handle r tail endpoint
  | .methodNotAllowed allowed =>
    return Response.message 405 "Method Not Allowed" [("allow", allowed)]
  | .redirect path => return Response.redirect (location g.origin path r.query)
  | .notFound => return Response.message 404 "Not Found" []

/-- Answers a request; `fresh` is its identifier if it brings none. -/
def serve (g : Gateway σ) (fresh : String) (r : Request) : Service σ Response := do
  match ← Service.attempt (inContext fresh r fun _ => g.dispatch r) with
  | .ok response => return response
  | .error _ => return Response.lastResort

end Gateway

end GitLfs.Http
