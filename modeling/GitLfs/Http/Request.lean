import GitLfs.Access.Principal

/-!
# HTTP requests

A request as the server hands it over: the path with its escapes decoded, the query as it came, and
the name that the transport has established, if any.
-/

namespace GitLfs.Http

/-- A request. -/
structure Request where
  method : String
  path : String
  query : String
  headers : List (String × String)
  body : List UInt8
  user : Option Principal.TransportUser
  deriving DecidableEq, Repr, Inhabited

namespace Request

/-- The name of a header in small letters. -/
def lowered (name : String) : String := String.ofList (name.toList.map Char.toLower)

/-- The first header with a name, which is given in small letters. -/
def header? (r : Request) (name : String) : Option String :=
  (r.headers.find? (lowered ·.1 = name)).map Prod.snd

/-- The Authorization header. -/
def authorization? (r : Request) : Option String := r.header? "authorization"

/-- Who makes the request. -/
def principal (r : Request) : Except Refusal (Option String) :=
  Principal.resolve (Principal.ofTransport r.user) r.authorization?

end Request

/-- The path in the address of a request: what would end the path there is escaped. -/
def addressPath (path : String) : String :=
  String.ofList (path.toList.flatMap fun c =>
    if c = '?' then "%3F".toList
    else if c = '#' then "%23".toList
    else if c = '\\' then "%5C".toList
    else [c])

/-- The path of a request as logs and collaborators see it: a slash stands in front of it, unless it
is empty, and tabs and line breaks are lost. -/
def shownPath (path : String) : String :=
  let address := (addressPath path).toList
  let rooted := match address with
    | [] => []
    | '/' :: _ => address
    | _ => '/' :: address
  String.ofList (rooted.filter fun c => c ≠ '\t' ∧ c ≠ '\n' ∧ c ≠ '\r')

/-- The part of a path in front of an endpoint: the path of the repository. A path that does not end
in the endpoint is left as it is. -/
def repositoryPath (path endpoint : String) : String :=
  let shown := (shownPath path).toList
  if endpoint.toList.isSuffixOf shown then
    String.ofList (shown.take (shown.length - endpoint.toList.length))
  else shownPath path

end GitLfs.Http
