import GitLfs.Json.Value
import GitLfs.Number.Decimal
import GitLfs.Number.Floating
import GitLfs.Text.Quoted

/-!
# Values in messages

A value that is put into a message stands as it is, or with its texts quoted, or quoted in ASCII
alone; or it is asked for as an integer, as a floating-point number or as a character.
-/

namespace GitLfs.Log.Argument

open Json (Value)
open Number (Floating)

/-- The floating-point number that a number with a fraction or an exponent is. -/
def floating? : Json.Number → Option Floating
  | .integer _ => none
  | .decimal negative mantissa exponent => some (Floating.ofDecimal negative mantissa exponent)
  | .notANumber => some .notANumber
  | .infinite negative => some (.infinite negative)

/-- A number in a message. -/
def number : Json.Number → String
  | .integer n => Number.Decimal.text n
  | n => ((floating? n).map Floating.text).getD ""

mutual

/-- A value with its texts quoted. -/
def quoted : Value → String
  | .null => "None"
  | .boolean true => "True"
  | .boolean false => "False"
  | .number n => number n
  | .text s => Text.Quoted.text s
  | .list items => "[" ++ String.intercalate ", " (quotedItems items) ++ "]"
  | .object members => "\x7b" ++ String.intercalate ", " (quotedMembers members) ++ "\x7d"

/-- The items of a list with their texts quoted. -/
def quotedItems : List Value → List String
  | [] => []
  | v :: rest => quoted v :: quotedItems rest

/-- The members of an object with their texts quoted. -/
def quotedMembers : List (String × Value) → List String
  | [] => []
  | (k, v) :: rest => (Text.Quoted.text k ++ ": " ++ quoted v) :: quotedMembers rest

end

/-- A value with its texts quoted and all characters outside ASCII escaped. -/
def quotedAscii (v : Value) : String := Text.Quoted.ascii (quoted v)

/-- A value as it is; a text stands for itself. -/
def plain : Value → String
  | .text s => s
  | v => quoted v

/-- The integer that a value is. -/
def integer? : Value → Option Int
  | .number (.integer n) => some n
  | .boolean b => some (if b then 1 else 0)
  | _ => none

/-- The integer that is left of a value without its decimals. -/
def truncated? (v : Value) : Option Int :=
  match v with
  | .number n =>
    match floating? n with
    | some f => f.truncated?
    | none => integer? v
  | _ => integer? v

/-- The floating-point number that a value is, or that is nearest to the integer that it is. -/
def real? (v : Value) : Option Floating :=
  match v with
  | .number n =>
    match floating? n with
    | some f => some f
    | none => (integer? v).bind Floating.ofInteger?
  | _ => (integer? v).bind Floating.ofInteger?

/-- The character that a value is. -/
def character? : Value → Option Char
  | .text s =>
    match s.toList with
    | [c] => some c
    | _ => none
  | v =>
    match integer? v with
    | some (.ofNat n) => if n.isValidChar then some (Char.ofNat n) else none
    | _ => none

end GitLfs.Log.Argument
