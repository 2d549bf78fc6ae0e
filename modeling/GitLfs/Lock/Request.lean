import GitLfs.Lock.Locking
import GitLfs.Text.Form

/-!
# Lock requests in addresses

The queries of a request for locks, and the rest of the address of a request to release one.
-/

namespace GitLfs

namespace LockQuery

/-- The text is an optional sign and at least one digit. -/
def isInteger (s : List Char) : Bool :=
  let digits := (Number.Decimal.signed s).2
  digits ≠ [] && digits.all Char.isDigit

/-- The limit that a query gives: zero when it is missing or empty. -/
def readLimit (raw : Option String) : Except Failure Int :=
  match raw.getD "" with
  | "" => .ok 0
  | text =>
    if isInteger text.toList then
      let (negative, digits) := Number.Decimal.signed text.toList
      if digits.length > Number.Decimal.maxDigits then
        .error (.defect (.oversizedInteger digits.length))
      else
        let n : Int := Number.Decimal.valueOf digits
        .ok (if negative then -n else n)
    else
      .error (.refusal (.validation ("Invalid limit parameter in the GET request: " ++ text)))

/-- The request for locks that a query stands for. -/
def ofQuery (query : String) : Except Failure LockQuery := do
  let pairs := Text.Form.pairs query
  let limit ← readLimit (Text.Form.first? pairs "limit")
  return {
    path := Text.Form.first? pairs "path"
    id := Text.Form.first? pairs "id"
    cursor := Text.Form.first? pairs "cursor"
    limit
    refspec := Text.Form.first? pairs "refspec" }

end LockQuery

namespace Lock

/-- The identifier in the rest of the address of a request to release a lock: it stands in front of
`/unlock`, has no slash, and is not empty. Slashes at the end do not matter. -/
def idOfUnlockPath (tail : String) : Except Refusal String :=
  match Text.pieces '/' (Text.trimEnd (· = '/') tail.toList) with
  | [id, action] =>
    if id ≠ [] ∧ action = "unlock".toList then .ok (String.ofList id)
    else .error (.internal ("Invalid delete-lock endpoint: /" ++ tail))
  | _ => .error (.internal ("Invalid delete-lock endpoint: /" ++ tail))

end Lock

end GitLfs
