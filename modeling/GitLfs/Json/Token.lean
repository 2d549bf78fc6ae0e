import GitLfs.Json.Dialect
import GitLfs.Json.Value
import GitLfs.Number.Decimal
import GitLfs.Text.Percent

/-!
# The tokens of JSON

A JSON text is a row of tokens with blanks between them. Beside the grammar of RFC 8259 the three
literals for results that are no finite number are read as numbers. A control inside a text and an
integer of more than `Decimal.maxDigits` digits are refused. An escape for half of a surrogate pair,
a fraction with so many digits in front of its point, and whether a minus sign counts as a digit are
for the dialect to decide.
-/

namespace GitLfs.Json

/-- The smallest parts of a JSON text that mean something. -/
inductive Token where
  | openList
  | closeList
  | openObject
  | closeObject
  | comma
  | colon
  | text (s : String)
  | literal (v : Value)
  deriving Repr, Inhabited

namespace Token

/-- The blanks that may stand between tokens. -/
def isBlank (c : Char) : Bool := c = ' ' ∨ c = '\t' ∨ c = '\n' ∨ c = '\r'

/-- The number that four hexadecimal digits stand for. -/
def hexValue? (a b c d : Char) : Option Nat := do
  let x ← Text.Percent.hexValue? a
  let y ← Text.Percent.hexValue? b
  let z ← Text.Percent.hexValue? c
  let w ← Text.Percent.hexValue? d
  return ((x * 16 + y) * 16 + z) * 16 + w

/-- The character of an escape of two characters. -/
def shortEscape? : Char → Option Char
  | '"' => some '"'
  | '\\' => some '\\'
  | '/' => some '/'
  | 'b' => some '\x08'
  | 'f' => some '\x0c'
  | 'n' => some '\n'
  | 'r' => some '\r'
  | 't' => some '\t'
  | _ => none

/-- The code unit is the first half of a surrogate pair. -/
def isHighHalf (n : Nat) : Bool := 0xD800 ≤ n && n < 0xDC00

/-- The code unit is the second half of a surrogate pair. -/
def isLowHalf (n : Nat) : Bool := 0xDC00 ≤ n && n < 0xE000

/-- What a text is written of: characters, and code units of UTF-16 that are escaped by number. -/
inductive Piece where
  | char (c : Char)
  | unit (n : Nat)
  deriving DecidableEq, Repr, Inhabited

/-- A piece in front of a text that has been read. -/
def push (p : Piece) : List Piece × List Char → List Piece × List Char
  | (s, rest) => (p :: s, rest)

/-- The text up to its closing quotation mark, and what follows the mark. -/
def textBody : List Char → Option (List Piece × List Char)
  | [] => none
  | c :: rest =>
    if c = '"' then some ([], rest)
    else if c = '\\' then
      match rest with
      | 'u' :: c1 :: c2 :: c3 :: c4 :: rest1 =>
        match hexValue? c1 c2 c3 c4 with
        | none => none
        | some n => (textBody rest1).map (push (.unit n))
      | e :: rest1 =>
        match shortEscape? e with
        | none => none
        | some x => (textBody rest1).map (push (.char x))
      | [] => none
    else if c.toNat < 0x20 then none
    else (textBody rest).map (push (.char c))

/-- The character that stands for half of a surrogate pair without the other half. -/
def loneHalf : Char := '\uFFFD'

/-- The character that two halves of a surrogate pair stand for. -/
def pair (high low : Nat) : Char :=
  Char.ofNat (0x10000 + (high - 0xD800) * 0x400 + (low - 0xDC00))

/-- The character that a code unit stands for on its own. -/
def single? (d : Dialect) (n : Nat) : Option Char :=
  if isHighHalf n || isLowHalf n then if d.loneHalves then some loneHalf else none
  else some (Char.ofNat n)

/-- The characters that pieces stand for: two halves that stand side by side make one. -/
def joined (d : Dialect) : List Piece → Option (List Char)
  | [] => some []
  | .char c :: rest => (joined d rest).map (c :: ·)
  | .unit n :: .unit m :: rest =>
    if isHighHalf n && isLowHalf m then (joined d rest).map (pair n m :: ·)
    else (single? d n).bind fun c => (joined d (.unit m :: rest)).map (c :: ·)
  | .unit n :: rest => (single? d n).bind fun c => (joined d rest).map (c :: ·)

/-- The text behind an opening quotation mark, and what follows the closing one. -/
def text? (d : Dialect) (s : List Char) : Option (String × List Char) := do
  let (pieces, rest) ← textBody s
  let chars ← joined d pieces
  return (String.ofList chars, rest)

/-- The digits in front of a text, and what follows them. -/
def spanDigits (s : List Char) : List Char × List Char :=
  (s.takeWhile Char.isDigit, s.dropWhile Char.isDigit)

/-- The digits after a decimal point, if there is one; a point needs a digit after it. -/
def fraction (s : List Char) : Option (Option (List Char) × List Char) :=
  match s with
  | '.' :: rest =>
    match spanDigits rest with
    | ([], _) => none
    | (ds, rest') => some (some ds, rest')
  | _ => some (none, s)

/-- The exponent, if there is one; its letter needs a digit after it. -/
def exponent (s : List Char) : Option (Option Int × List Char) :=
  match s with
  | [] => some (none, [])
  | c :: rest =>
    if c = 'e' ∨ c = 'E' then
      let (negative, unsigned) := Number.Decimal.signed rest
      match spanDigits unsigned with
      | ([], _) => none
      | (ds, rest') =>
        let n : Int := Number.Decimal.valueOf ds
        some (some (if negative then -n else n), rest')
    else some (none, s)

/-- A number without its sign. -/
def unsignedNumber (d : Dialect) (negative : Bool) (s : List Char) :
    Option (Number × List Char) := do
  let (whole, rest) ← match s with
    | '0' :: rest => some (['0'], rest)
    | _ => match spanDigits s with
      | ([], _) => none
      | found => some found
  let (decimals, rest) ← fraction rest
  let (power, rest) ← exponent rest
  let sign := if negative && d.signCounts then 1 else 0
  let tooLong : Bool := Number.Decimal.maxDigits < sign + whole.length
  match decimals, power with
  | none, none =>
    if tooLong then none
    else
      let n : Int := Number.Decimal.valueOf whole
      return (.integer (if negative then -n else n), rest)
  | _, _ =>
    if tooLong && !d.longFractions then none
    else
      let after := decimals.getD []
      return (.decimal negative (Number.Decimal.valueOf (whole ++ after))
        (power.getD 0 - after.length), rest)

/-- What follows a word at the start of a text. -/
def afterWord? : List Char → List Char → Option (List Char)
  | [], s => some s
  | w :: word, c :: s => if w = c then afterWord? word s else none
  | _ :: _, [] => none

/-- The words that stand for a value. -/
def words : List (List Char × Value) :=
  [("null".toList, .null), ("true".toList, .boolean true), ("false".toList, .boolean false),
    ("NaN".toList, .number .notANumber), ("Infinity".toList, .number (.infinite false)),
    ("-Infinity".toList, .number (.infinite true))]

/-- The token at the start of a text that starts with no blank, and what follows it. -/
def next (d : Dialect) (s : List Char) : Option (Token × List Char) :=
  match s with
  | '[' :: rest => some (.openList, rest)
  | ']' :: rest => some (.closeList, rest)
  | '\x7b' :: rest => some (.openObject, rest)
  | '\x7d' :: rest => some (.closeObject, rest)
  | ',' :: rest => some (.comma, rest)
  | ':' :: rest => some (.colon, rest)
  | '"' :: rest => (text? d rest).map fun (t, rest') => (.text t, rest')
  | _ =>
    match words.findSome? fun (word, v) => (afterWord? word s).map fun rest => (v, rest) with
    | some (v, rest) => some (.literal v, rest)
    | none =>
      let (negative, unsigned) := match s with
        | '-' :: rest => (true, rest)
        | _ => (false, s)
      (unsignedNumber d negative unsigned).map fun (n, rest) => (.literal (.number n), rest)

/-- The tokens of a text, of which at most `fuel` characters are looked at. -/
def listWithin (d : Dialect) : Nat → List Char → Option (List Token)
  | _, [] => some []
  | 0, _ :: _ => none
  | fuel + 1, c :: rest =>
    if isBlank c then listWithin d fuel rest
    else match next d (c :: rest) with
      | none => none
      | some (t, rest') => (listWithin d fuel rest').map (t :: ·)

/-- The tokens of a text. Every token takes at least one character, so the length is fuel enough. -/
def list? (d : Dialect) (s : List Char) : Option (List Token) := listWithin d s.length s

end Token

end GitLfs.Json
