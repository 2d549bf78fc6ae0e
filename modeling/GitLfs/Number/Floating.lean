import GitLfs.Number.Digits

/-!
# Floating-point numbers in writing

A floating-point number has a sign and a magnitude, or it is infinite, or it is no number. Its sign
is written apart from its body. A body has a given number of decimals, or stands in scientific
notation with one digit in front of the point, or in the shorter of the two; `text` shows the fewest
digits that read back.
-/

namespace GitLfs.Number

/-- A floating-point number. -/
inductive Floating where
  | finite (negative : Bool) (magnitude : Binary)
  | infinite (negative : Bool)
  | notANumber
  deriving DecidableEq, Repr, Inhabited

namespace Floating

/-- The number nearest to `mantissa * 10 ^ exponent` with a sign; beyond the range it is infinite.
-/
def ofDecimal (negative : Bool) (mantissa : Nat) (exponent : Int) : Floating :=
  match Binary.ofDecimal mantissa exponent with
  | some x => finite negative x
  | none => infinite negative

/-- The number nearest to an integer, if that is within the range. -/
def ofInteger? (n : Int) : Option Floating :=
  (Binary.ofDecimal n.natAbs 0).map (finite (n < 0))

/-- A minus sign stands in front of the number. -/
def isNegative : Floating → Bool
  | finite negative _ => negative
  | infinite negative => negative
  | notANumber => false

/-- The integer that is left of a number without its decimals. -/
def truncated? : Floating → Option Int
  | finite negative x => some (if negative then -(x.whole : Int) else x.whole)
  | _ => none

/-- Digits in front of the decimal point and behind it; without any behind it the point is written
only where it always is. -/
def pointed (always : Bool) (whole decimals : List Char) : List Char :=
  if decimals.isEmpty && !always then whole else whole ++ '.' :: decimals

/-- Positional notation. -/
def positional (always : Bool) (d : Digits) : List Char :=
  pointed always d.split.1 d.split.2

/-- A power of ten: the letter, the sign and at least two digits. -/
def power (e : Int) : List Char :=
  let digits := Nat.toDigits 10 e.natAbs
  'e' :: (if e < 0 then '-' else '+') :: (List.replicate (2 - digits.length) '0' ++ digits)

/-- Scientific notation: one digit in front of the point. -/
def scientific (always : Bool) (d : Digits) : List Char :=
  pointed always (d.written.take 1) (d.written.drop 1) ++ power d.leading

/-- How the body of a number is written. -/
inductive Style where
  /-- So many decimals. -/
  | fixed (decimals : Nat)
  /-- Scientific, with so many decimals. -/
  | scientific (decimals : Nat)
  /-- So many significant digits: positional, unless the number is below 0.0001 or has more digits
  in front of the point. -/
  | general (digits : Nat)
  deriving DecidableEq, Repr

/-- A magnitude in a style. `full` keeps the point always, and zeros at the end of the general
style. -/
def magnitude (full : Bool) (x : Binary) : Style → List Char
  | .fixed decimals => positional full (Digits.fixed x decimals)
  | .scientific decimals => scientific full (Digits.significant x (decimals + 1))
  | .general digits =>
    let count := max digits 1
    let d := Digits.significant x count
    let kept := if full then d else d.trimmed count
    if d.leading < -4 ∨ (count : Int) ≤ d.leading then scientific full kept
    else positional full kept

/-- The body of a number in a style. -/
def body (full : Bool) (s : Style) : Floating → List Char
  | finite _ x => magnitude full x s
  | infinite _ => "inf".toList
  | notANumber => "nan".toList

/-- A magnitude by the fewest digits that read back: positional with at least one decimal from
0.0001 up to 10^16, scientific beyond. -/
def shortest (x : Binary) : List Char :=
  let d := Digits.shortest x
  if d.leading < -4 ∨ 16 ≤ d.leading then scientific false d
  else
    let (whole, decimals) := d.split
    pointed true whole (if decimals.isEmpty then ['0'] else decimals)

/-- A number with its sign, by the fewest digits that read back. -/
def text (f : Floating) : String :=
  String.ofList ((if f.isNegative then ['-'] else []) ++
    match f with
    | finite _ x => shortest x
    | infinite _ => "inf".toList
    | notANumber => "nan".toList)

end Floating

end GitLfs.Number
