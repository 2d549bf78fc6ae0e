import GitLfs.Json.Value
import GitLfs.Number.Decimal
import GitLfs.Text.Quoted

/-!
# Writing JSON

The compact form: no blanks, members in their order, characters outside ASCII as they are. A
quotation mark, a backslash and the controls are escaped, the last with their short escape where
there is one. A value is written when its integers are short.
-/

namespace GitLfs.Json

/-- How one character stands inside a written text. -/
def escapeChar (c : Char) : List Char :=
  if c = '"' then ['\\', '"']
  else if c = '\\' then ['\\', '\\']
  else if c = '\x08' then ['\\', 'b']
  else if c = '\x0c' then ['\\', 'f']
  else if c = '\n' then ['\\', 'n']
  else if c = '\r' then ['\\', 'r']
  else if c = '\t' then ['\\', 't']
  else if c.toNat < 0x20 then '\\' :: 'u' :: Text.Quoted.hex 4 c.toNat
  else [c]

/-- A text between quotation marks. -/
def writeText (s : String) : List Char :=
  '"' :: s.toList.flatMap escapeChar ++ ['"']

/-- A number; one with a fraction is written as its mantissa and its exponent. -/
def writeNumber : Number → List Char
  | .integer n => Number.Decimal.write n
  | .decimal negative mantissa exponent =>
    (if negative then ['-'] else []) ++ Number.Decimal.digits mantissa ++
      'e' :: Number.Decimal.write exponent
  | .notANumber => "NaN".toList
  | .infinite false => "Infinity".toList
  | .infinite true => "-Infinity".toList

mutual

/-- The characters of a value. -/
def write : Value → List Char
  | .null => "null".toList
  | .boolean true => "true".toList
  | .boolean false => "false".toList
  | .number n => writeNumber n
  | .text s => writeText s
  | .list items => '[' :: writeItems items
  | .object members => '{' :: writeMembers members

/-- The items of a list and its closing bracket. -/
def writeItems : List Value → List Char
  | [] => [']']
  | [v] => write v ++ [']']
  | v :: rest => write v ++ ',' :: writeItems rest

/-- The members of an object and its closing brace. -/
def writeMembers : List (String × Value) → List Char
  | [] => ['}']
  | [(k, v)] => writeText k ++ ':' :: write v ++ ['}']
  | (k, v) :: rest => writeText k ++ ':' :: write v ++ ',' :: writeMembers rest

end

mutual

/-- No integer in the value has more digits than may be written. -/
def isWritable : Value → Bool
  | .number (.integer n) => decide (Number.Decimal.Short n)
  | .list items => areWritable items
  | .object members => membersAreWritable members
  | _ => true

/-- `isWritable` for all items of a list. -/
def areWritable : List Value → Bool
  | [] => true
  | v :: rest => isWritable v && areWritable rest

/-- `isWritable` for all members of an object. -/
def membersAreWritable : List (String × Value) → Bool
  | [] => true
  | (_, v) :: rest => isWritable v && membersAreWritable rest

end

/-- The compact text of a value. -/
def render (v : Value) : String := String.ofList (write v)

end GitLfs.Json
