import GitLfs.Text.Percent
import GitLfs.Text.Pieces

/-!
# Form-encoded queries

Names and values between `&`, each with percent-escapes and with `+` for a space.
-/

namespace GitLfs.Text.Form

/-- The names and values of a query, in order. Empty pieces are skipped, and a piece without `=` has
an empty value. -/
def pairs (query : String) : List (String × String) :=
  ((pieces '&' query.toList).filter (· ≠ [])).map fun piece =>
    let (name, value) := (cutAt? '=' piece).getD (piece, [])
    (String.ofList (Percent.decodeForm name), String.ofList (Percent.decodeForm value))

/-- The first value with a name, unless it is empty. -/
def first? (pairs : List (String × String)) (name : String) : Option String :=
  match pairs.find? (·.1 = name) with
  | some (_, value) => if value = "" then none else some value
  | none => none

end GitLfs.Text.Form
