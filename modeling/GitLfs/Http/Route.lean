import GitLfs.Http.Pattern
import GitLfs.Http.Request

/-!
# Routing

The endpoints for batches and for locks lie below two mounts. The routes are tried in a fixed order:
the first whose path and method fit is taken. When only the path of a route fits, the method is
refused; when a route fits after slashes at the end of the path are added or removed, the client is
sent there.
-/

namespace GitLfs.Http

/-- The path below which endpoints lie. -/
abbrev Mount := Pattern

/-- What handles a request. -/
inductive Endpoint where
  | batch
  | listLocks
  /-- A request for locks with more path than there should be. -/
  | listBelow
  | createLock
  | verifyLocks
  | releaseLock
  | health
  deriving DecidableEq, Repr, Inhabited

/-- A path pattern, the method that goes with it, and what handles such requests. -/
structure Route where
  endpoint : Endpoint
  method : String
  pattern : Pattern
  deriving DecidableEq, Repr, Inhabited

namespace Route

/-- The name of the parameter that stands for the end of a path. -/
def tailName : String := "tail"

/-- The end of a path that fits a route; it is empty when the route has no parameter for it. -/
def tail? (r : Route) (path : String) : Option String :=
  (r.pattern.fit? path.toList).map fun found => (found.lookup tailName).getD ""

end Route

/-- The path of the batch endpoint below its mount. -/
def batchPath : String := "/objects/batch"

/-- The path of all locks below their mount. -/
def locksPath : String := "/locks"

/-- The paths below that of all locks. -/
def belowLocksPath : String := locksPath ++ "/\x7btail:path\x7d"

/-- The path of the locks that matter before a push. -/
def verifyPath : String := locksPath ++ "/verify"

/-- The path of the health endpoint, which lies below no mount. -/
def healthPath : String := "/health"

/-- The routes, in the order in which they are tried. -/
def routes (batchMount lockMount : Mount) : List Route :=
  let batches (path : String) : Pattern := batchMount ++ Pattern.ofText path
  let locks (path : String) : Pattern := lockMount ++ Pattern.ofText path
  [⟨.batch, "POST", batches batchPath⟩,
    ⟨.listLocks, "GET", locks locksPath⟩,
    ⟨.listBelow, "GET", locks belowLocksPath⟩,
    ⟨.createLock, "POST", locks locksPath⟩,
    ⟨.verifyLocks, "POST", locks verifyPath⟩,
    ⟨.releaseLock, "POST", locks belowLocksPath⟩,
    ⟨.health, "GET", Pattern.ofText healthPath⟩]

/-- What becomes of a request. -/
inductive Routing where
  | found (endpoint : Endpoint) (tail : String)
  | methodNotAllowed (allowed : String)
  | redirect (path : String)
  | notFound
  deriving DecidableEq, Repr, Inhabited

/-- A path without the slashes at its end, or with one if it had none. -/
def toggleSlash (path : String) : String :=
  if ['/'].isSuffixOf path.toList then String.ofList (Text.trimEnd (· = '/') path.toList)
  else path ++ "/"

/-- What becomes of a request with a method and a path. -/
def route (routes : List Route) (method path : String) : Routing :=
  match routes.findSome? fun r =>
      if r.method = method then (r.tail? path).map fun tail => (r.endpoint, tail) else none with
  | some (endpoint, tail) => .found endpoint tail
  | none =>
    match routes.find? fun r => (r.tail? path).isSome with
    | some r => .methodNotAllowed r.method
    | none =>
      if path ≠ "/" ∧ routes.any fun r => (r.tail? (toggleSlash path)).isSome then
        .redirect (toggleSlash path)
      else .notFound

/-- The character stands for itself in the address that a client is sent to. -/
def isAddressChar (c : Char) : Bool :=
  c.isAlphanum || "_.-~:/%#?=@[]!$&'()*+,;".toList.contains c

/-- The address that a client is sent to. -/
def location (origin path query : String) : String :=
  let address := origin ++ addressPath path ++ (if query = "" then "" else "?" ++ query)
  String.ofList (Text.Percent.encode isAddressChar address.toList)

end GitLfs.Http
