import GitLfs.Failure
import GitLfs.Json.Reader

/-!
# Request bodies

A body is read as JSON and checked. Whatever is wrong with it, the client is told the first fault.
Where a body may be left out, one that is empty or `null` stands for a request without any field.
-/

namespace GitLfs.Http

/-- The bytes of a body without the blanks at its ends. -/
def trimBody (bytes : List UInt8) : List UInt8 :=
  let blank (b : UInt8) : Bool := Text.isAsciiBlank (Char.ofNat b.toNat)
  ((bytes.dropWhile blank).reverse.dropWhile blank).reverse

/-- The four bytes of `null`. -/
def nullBytes : List UInt8 := [0x6E, 0x75, 0x6C, 0x6C]

/-- A body that cannot be used. -/
def invalidBody (reason : String) : Failure :=
  .refusal (.validation ("Invalid request: " ++ reason))

/-- The request that a body stands for. -/
def parseBody {α : Type} (decode : Decoder α) (allowEmpty : Bool) (bytes : List UInt8) :
    Except Failure α :=
  let trimmed := trimBody bytes
  if trimmed = [] ∧ !allowEmpty then .error (.refusal (.validation "Request body is required"))
  else if allowEmpty ∧ (trimmed = [] ∨ trimmed = nullBytes) then
    Failure.ofChecked (decode (.object []))
  else match Json.readBytes .strict bytes with
    | none => .error (invalidBody "Invalid JSON")
    | some v =>
      match decode v with
      | .passed a => .ok a
      | .failed first _ => .error (invalidBody (first.describe .json))

end GitLfs.Http
