import GitLfs.Check.Checked
import GitLfs.Json.Value
import GitLfs.Number.Binary
import GitLfs.OrderedMap
import GitLfs.Time.Format

/-!
# Checks of JSON values

Each check turns a value into data of the library or says what is wrong with it. Integers and
booleans are taken liberally: from texts, from each other and from numbers without a fraction. Of
members with one name the last counts, and members that nobody asks for are ignored.
-/

namespace GitLfs

/-- A check of a JSON value. -/
abbrev Decoder (α : Type) := Json.Value → Checked α

namespace Decoder

open Json (Value)

variable {α : Type}

/-- A text. -/
def text : Decoder String
  | .text s => .passed s
  | _ => .fail .notText

/-- A text that passes only when it is not empty. -/
def nonEmpty (s : String) : Checked String :=
  if s = "" then .fail .emptyText else .passed s

/-- A text of at least one character. -/
def someText : Decoder String := fun v => (text v).andThen nonEmpty

/-- A text of at least one character after the blanks at its ends are dropped. -/
def trimmedText : Decoder String := fun v =>
  (text v).andThen fun s => nonEmpty (Text.trimmed Text.isBlank s)

/-- The first magnitude that does not fit into 63 bits. -/
def wordLimit : Nat := 1 <<< 63

/-- The integers that fit into 63 bits and a sign. -/
def isWord (n : Int) : Bool := -wordLimit ≤ n && n < wordLimit

/-- The integer that a number with a fraction or an exponent is, when it is rounded to binary. -/
def integerOfDecimal (negative : Bool) (mantissa : Nat) (exponent : Int) : Checked Int :=
  match Number.Binary.ofDecimal mantissa exponent with
  | none => .fail .infiniteInteger
  | some x =>
    match x.integer? with
    | none => .fail .fractionalInteger
    | some m =>
      if wordLimit ≤ m then .fail .oversizedInteger
      else .passed (if negative then -(m : Int) else m)

/-- An integer, or what can be taken for one. -/
def integer : Decoder Int
  | .boolean b => .passed (if b then 1 else 0)
  | .number (.integer n) => .passed n
  | .number (.decimal negative mantissa exponent) => integerOfDecimal negative mantissa exponent
  | .number _ => .fail .infiniteInteger
  | .text s =>
    match Number.Decimal.readFree s.toList with
    | .value n => .passed n
    | .tooLong => .fail .oversizedInteger
    | .unreadable => .fail .unreadableInteger
  | _ => .fail .notAnInteger

/-- An integer that is not below zero. -/
def natural : Decoder Nat := fun v =>
  (integer v).andThen fun n => if n < 0 then .fail .negative else .passed n.toNat

/-- The words for the two truth values, in small letters. -/
def booleanWords : List (String × Bool) :=
  [("0", false), ("off", false), ("f", false), ("false", false), ("n", false), ("no", false),
    ("1", true), ("on", true), ("t", true), ("true", true), ("y", true), ("yes", true)]

/-- The truth value of one of the integers 0 and 1. -/
def booleanOfInteger (n : Int) : Checked Bool :=
  if n = 0 then .passed false
  else if n = 1 then .passed true
  else if isWord n then .fail .unreadableBoolean
  else .fail .notABoolean

/-- A truth value, or what can be taken for one. -/
def boolean : Decoder Bool
  | .boolean b => .passed b
  | .number (.integer n) => booleanOfInteger n
  | .number (.decimal negative mantissa exponent) =>
    match integerOfDecimal negative mantissa exponent with
    | .passed n => booleanOfInteger n
    | .failed _ _ => .fail .notABoolean
  | .text s =>
    match booleanWords.find? (·.1 = String.ofList (s.toList.map Char.toLower)) with
    | some (_, b) => .passed b
    | none => .fail .unreadableBoolean
  | _ => .fail .notABoolean

/-- A date and time that may have been found; the cause tells why it has not. -/
def found (cause : Cause) : Option DateTime → Checked DateTime
  | some t => .passed t
  | none => .fail cause

/-- A date and time, or a count of seconds or milliseconds. -/
def dateTime : Decoder DateTime
  | .text s => found .unreadableDateTime (DateTime.read? s)
  | .number (.integer n) => found .dateTimeOutOfRange (DateTime.ofCount? n)
  | .number (.decimal negative mantissa exponent) =>
    found .dateTimeOutOfRange (DateTime.ofDecimalCount? negative mantissa exponent)
  | .number _ => .fail .dateTimeOutOfRange
  | _ => .fail .notADateTime

/-- A value that may be `null`. -/
def nullable (d : Decoder α) : Decoder (Option α)
  | .null => .passed none
  | v => some <$> d v

/-- A list of values. -/
def list (d : Decoder α) : Decoder (List α)
  | .list vs => Checked.items d 0 vs
  | _ => .fail .notAList

/-- The checks of the entries of a map, in order. -/
def entries (d : Decoder α) : List (String × Value) → Checked (List (String × α))
  | [] => .passed []
  | (k, v) :: rest =>
    (fun a more => (k, a) :: more) <$> (d v).under (.member k) <*> entries d rest

/-- A map from texts to values. Every member is checked, one with a name that comes again too. -/
def map (d : Decoder α) : Decoder (OrderedMap String α)
  | .object members => OrderedMap.ofList <$> entries d members
  | _ => .fail .notAMap

/-- The members of an object, which is said to be a `model` where something else stands. -/
def record (model : String) (build : List (String × Value) → Checked α) : Decoder α
  | .object members => build members
  | _ => .fail (.notARecord model)

/-- A member that has to be there. -/
def required (members : List (String × Value)) (name : String) (d : Decoder α) : Checked α :=
  match Value.member? members name with
  | none => (Checked.fail .missing).under (.member name)
  | some v => (d v).under (.member name)

/-- A member that may be left out, and what stands for it then. -/
def optional (members : List (String × Value)) (name : String) (default : α) (d : Decoder α) :
    Checked α :=
  match Value.member? members name with
  | none => .passed default
  | some v => (d v).under (.member name)

end Decoder

end GitLfs
