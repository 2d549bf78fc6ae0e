import GitLfs.Json.Writer
import GitLfs.Service

/-!
# HTTP responses

A response with a body is JSON of the media type of the protocol. One function turns a failure into
a response and a log event; where it fails itself, all that is left is the last resort.
-/

namespace GitLfs.Http

/-- The media type of every JSON body. -/
def mediaType : String := "application/vnd.git-lfs+json; charset=utf-8"

/-- What a response carries. -/
inductive Body where
  | empty
  | json (v : Json.Value)
  | plain (s : String)
  deriving Repr, Inhabited

/-- The characters of a body. -/
def Body.text : Body → String
  | empty => ""
  | json v => Json.render v
  | plain s => s

/-- A response. -/
structure Response where
  status : Nat
  headers : List (String × String)
  body : Body
  deriving Repr, Inhabited

namespace Response

/-- A response with a JSON body. -/
def json (status : Nat) (body : Json.Value) (headers : List (String × String)) : Response :=
  ⟨status, ("content-type", mediaType) :: headers, .json body⟩

/-- A response that carries a message. Fields without a value are left out. -/
def carrying (status : Nat) (message : Json.Value) : Response :=
  json status message.withoutNulls []

/-- The response to a request that succeeded, which may have too long a number to carry. -/
def success (status : Nat) (message : Json.Value) : Except Failure Response :=
  if Json.isWritable message.withoutNulls then .ok (carrying status message)
  else .error (.defect .unwritableInteger)

/-- A response that only says what is wrong. -/
def message (status : Nat) (text : String) (headers : List (String × String)) : Response :=
  json status (ErrorBody.encode ⟨text⟩) headers

/-- A response that sends the client to another address. -/
def redirect (location : String) : Response := ⟨307, [("location", location)], .empty⟩

/-- The response to a request that failed, unless the failure cannot be told. -/
def ofFailure (e : Failure) : Except Failure Response :=
  match e.answer with
  | .ok (status, body) => .ok (json status body [])
  | .error d => .error (.defect d)

/-- The response of the server when the gateway has none. -/
def lastResort : Response :=
  ⟨500, [("content-type", "text/plain; charset=utf-8")], .plain "Internal Server Error"⟩

/-- The characters of the body. -/
def text (r : Response) : String := r.body.text

/-- The value of a header, whose name is given in small letters. -/
def header? (r : Response) (name : String) : Option String :=
  (r.headers.find? (·.1 = name)).map Prod.snd

/-- The response with a header set. -/
def withHeader (r : Response) (name value : String) : Response :=
  { r with headers := r.headers.filter (·.1 ≠ name) ++ [(name, value)] }

end Response

/-- The level and the message of the log event about a failed request. -/
def failureEvent : Failure → Level × String
  | .defect d => (.error, Log.message "request.unclassified_error" [("error", d.name)])
  | .refusal r =>
    if r.kind = .internal then
      (.error, Log.message "request.internal_error" [("message", r.message.shown)])
    else
      (.info, Log.message "request.rejected"
        [("kind", r.kind.name), ("message", r.message.shown)])

/-- The response of a handler; a failure is reported under the handler's logger. Only a failure to
tell one gets out. -/
def answering {σ : Type} (logger : String) (x : Service σ Response) : Service σ Response := do
  match ← Service.attempt x with
  | .ok r => return r
  | .error e =>
    let (level, text) := failureEvent e
    Service.report level logger text
    Service.ofExcept (Response.ofFailure e)

end GitLfs.Http
