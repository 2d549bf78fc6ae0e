import GitLfs.Text.Blank

/-!
# Integers in decimal

Reading and writing integers as decimal text. A written integer has no more than `maxDigits` digits;
a longer one is refused as too long, which is told apart from text that is no integer at all.
-/

namespace GitLfs.Number.Decimal

/-- The most digits that a written integer may have. -/
def maxDigits : Nat := 4300

/-- The number that a row of decimal digits stands for. -/
def valueOf (digits : List Char) : Nat :=
  digits.foldl (fun n c => n * 10 + (c.toNat - 48)) 0

/-- The digits of a number, without leading zeros. -/
def digits (n : Nat) : List Char :=
  Nat.toDigits 10 n

/-- An integer written with a minus sign when it is negative. -/
def write : Int → List Char
  | .ofNat n => digits n
  | .negSucc n => '-' :: digits (n + 1)

/-- `write` as a string. -/
def text (n : Int) : String :=
  String.ofList (write n)

/-- An integer that has no more digits than may be written. -/
def Short (n : Int) : Prop := (digits n.natAbs).length ≤ maxDigits

instance (n : Int) : Decidable (Short n) := inferInstanceAs (Decidable (_ ≤ _))

/-- What a text says as an integer. -/
inductive Reading where
  /-- The text stands for this integer. -/
  | value (n : Int)
  /-- The text has the form of an integer with more than `maxDigits` digits. -/
  | tooLong
  /-- The text does not have the form of an integer. -/
  | unreadable
  deriving DecidableEq, Repr

/-- The sign of a text and what follows it. -/
def signed : List Char → Bool × List Char
  | '-' :: rest => (true, rest)
  | '+' :: rest => (false, rest)
  | s => (false, s)

/-- Behind zeros and underscores that follow a character: what starts with another digit or with a
minus sign, or else the last of these characters and a decimal point behind it. -/
def afterZeros (last : Char) : List Char → Option (List Char)
  | [] => some [last]
  | c :: rest =>
    if c = '0' ∨ c = '_' then afterZeros c rest
    else if c.isDigit ∨ c = '-' then some (c :: rest)
    else if c = '.' then some (last :: c :: rest)
    else none

/-- A text that starts with a digit, without zeros in front of its first other digit. -/
def withoutLeadingZeros : List Char → Option (List Char)
  | '0' :: rest => afterZeros '0' rest
  | c :: rest => if c.isDigit then some (c :: rest) else none
  | [] => none

/-- A text without a decimal point that only zeros follow. -/
def withoutZeroDecimals (s : List Char) : List Char :=
  match s.dropWhile (· ≠ '.') with
  | _ :: zeros => if zeros ≠ [] ∧ zeros.all (· = '0') then s.takeWhile (· ≠ '.') else s
  | [] => s

/-- Two underscores follow one another. -/
def hasDoubleUnderscore : List Char → Bool
  | '_' :: '_' :: _ => true
  | _ :: rest => hasDoubleUnderscore rest
  | [] => false

/-- A text without its underscores, if these stand alone and inside of it. -/
def withoutUnderscores (s : List Char) : List Char :=
  if s.head? = some '_' ∨ s.getLast? = some '_' ∨ hasDoubleUnderscore s then s
  else s.filter (· ≠ '_')

/-- Reads an integer in its plain form: an optional minus sign, and then a lone zero or digits of
which the first is none. Too many digits are noticed first, whatever follows them; the sign is not
counted among them. -/
def readPlain (s : List Char) : Reading :=
  let (negative, unsigned) := match s with
    | '-' :: rest => (true, rest)
    | s => (false, s)
  let ds := unsigned.takeWhile Char.isDigit
  let isZero := ds.head? = some '0'
  if ds.length > maxDigits ∧ !isZero then .tooLong
  else if ds = [] ∨ ds.length < unsigned.length ∨ (isZero ∧ 1 < ds.length) then .unreadable
  else if negative then .value (-(valueOf ds : Int))
  else .value (valueOf ds)

/-- The plain form of an integer in its free form, if it has a sign and a digit in front. -/
def plain? (s : List Char) : Option (List Char) :=
  let unsigned (s : List Char) : Option (List Char) :=
    (withoutLeadingZeros s).map fun s => withoutUnderscores (withoutZeroDecimals s)
  match s with
  | '-' :: rest => (unsigned rest).map ('-' :: ·)
  | '+' :: rest => unsigned rest
  | s => unsigned s

/-- Reads an integer in its free form: blanks around it, a sign, leading zeros, underscores between
digits and a decimal point with zeros after it are allowed. Among leading zeros any number of
underscores may stand, and a minus sign may follow them. -/
def readFree (s : List Char) : Reading :=
  match plain? (Text.trim Text.isBlank s) with
  | some s => readPlain s
  | none => .unreadable

end GitLfs.Number.Decimal
