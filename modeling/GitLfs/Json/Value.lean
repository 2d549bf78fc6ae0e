/-!
# JSON values

The values that request bodies, settings and answers are made of. An object keeps its members in the
order in which they were written.
-/

namespace GitLfs.Json

/-- A number as it was written. -/
inductive Number where
  /-- An integer: neither a fraction nor an exponent. -/
  | integer (n : Int)
  /-- A fraction or an exponent was written: `mantissa * 10 ^ exponent`, and its sign. -/
  | decimal (negative : Bool) (mantissa : Nat) (exponent : Int)
  /-- The literal for a result that is no number. -/
  | notANumber
  /-- The literal for an infinite number. -/
  | infinite (negative : Bool)
  deriving DecidableEq, Repr, Inhabited

/-- A JSON value. -/
inductive Value where
  | null
  | boolean (b : Bool)
  | number (n : Number)
  | text (s : String)
  | list (items : List Value)
  | object (members : List (String × Value))
  deriving Repr, Inhabited

namespace Value

/-- An integer as a value. -/
def integer (n : Int) : Value := .number (.integer n)

/-- A value that may be absent, written as `null` then. -/
def optional {α : Type} (write : α → Value) : Option α → Value
  | none => .null
  | some a => write a

mutual

/-- The value without those members of its objects that are `null`, at any depth. -/
def withoutNulls : Value → Value
  | .list items => .list (listWithoutNulls items)
  | .object members => .object (membersWithoutNulls members)
  | v => v

/-- `withoutNulls` on the items of a list, which keeps items that are `null`. -/
def listWithoutNulls : List Value → List Value
  | [] => []
  | v :: rest => withoutNulls v :: listWithoutNulls rest

/-- `withoutNulls` on the members of an object. -/
def membersWithoutNulls : List (String × Value) → List (String × Value)
  | [] => []
  | (_, .null) :: rest => membersWithoutNulls rest
  | (k, v) :: rest => (k, withoutNulls v) :: membersWithoutNulls rest

end

/-- The last member of an object with a name. -/
def member? (members : List (String × Value)) (name : String) : Option Value :=
  (members.reverse.find? (·.1 = name)).map Prod.snd

end Value

end GitLfs.Json
