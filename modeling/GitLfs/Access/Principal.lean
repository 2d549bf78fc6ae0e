import GitLfs.Failure
import GitLfs.Text.Base64
import GitLfs.Text.Blank
import GitLfs.Text.Lower
import GitLfs.Text.Utf8

/-!
# Who makes a request

The name that the transport has established counts as it is. Otherwise the name is read from Basic
credentials; a request without credentials is anonymous.
-/

namespace GitLfs.Principal

/-- The user that the server in front of the gateway has established for a request. -/
structure TransportUser where
  isAuthenticated : Bool
  displayName : Option String
  deriving DecidableEq, Repr, Inhabited

/-- The name of a transport user who is authenticated and has one. -/
def ofTransport (user : Option TransportUser) : Option String :=
  match user with
  | some ⟨true, some name⟩ => if name = "" then none else some name
  | _ => none

/-- The first word of a text without blanks at its start, and the rest without blanks around it. -/
def schemeAndRest (s : List Char) : List Char × List Char :=
  (s.takeWhile (!Text.isSeparator ·),
    Text.trim Text.isSeparator (s.dropWhile (!Text.isSeparator ·)))

/-- The text that Basic credentials stand for. The padding of the base64 text may be missing. -/
def decodeCredentials (credentials : List Char) : Option (List Char) :=
  if credentials = [] then none
  else (Text.Base64.decode? (Text.Base64.padded credentials)).bind Text.Utf8.decode?

/-- The user name that an Authorization header gives: none when it is blank, and what stands before
the first colon of the decoded credentials otherwise. The scheme is compared by its small form. -/
def ofAuthorization (header : Option String) : Except Refusal (Option String) :=
  let s := Text.trim Text.isSeparator (header.getD "").toList
  if s = [] then .ok none
  else
    let (scheme, credentials) := schemeAndRest s
    if Text.lower scheme ≠ "basic".toList then
      .error (.validation ("Only 'Basic' authentication is allowed, not " ++ String.ofList scheme))
    else match decodeCredentials credentials with
      | none => .error (.validation ("Not in valid Base64 scheme: " ++ String.ofList credentials))
      | some decoded => .ok (some (String.ofList (decoded.takeWhile (· ≠ ':'))))

/-- The name that counts: the one that the transport has established, or the one in the header. -/
def resolve (transport header : Option String) : Except Refusal (Option String) :=
  match transport with
  | some name => if name = "" then ofAuthorization header else .ok (some name)
  | none => ofAuthorization header

end GitLfs.Principal
