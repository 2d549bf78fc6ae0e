import GitLfs.Number.Binary
import GitLfs.Number.Decimal
import GitLfs.Time.DateTime

/-!
# The written form of dates and times

`YYYY-MM-DDTHH:MM:SS`, six digits of the second's fraction where there is one, and the offset:
nothing when none is known, `Z` for zero, `+HH:MM` or `-HH:MM` otherwise. An offset is rounded to
seconds first, and the seconds that are left over a whole number of minutes are not written.

Reading is more liberal. The date may stand alone; a space, an underscore or a small `t` may stand
in front of the time; seconds and fraction may be missing; a comma may start the fraction, of which
digits after the sixth are dropped; and a number counts the seconds since the start of 1970, or the
milliseconds when its magnitude is above 2·10^10. A count with a fraction is rounded to binary and
then, at the next integer below it, to microseconds.
-/

namespace GitLfs.DateTime

/-- The last `width` decimal digits of a number. -/
def padded : Nat → Nat → List Char
  | 0, _ => []
  | width + 1, n => padded width (n / 10) ++ [Char.ofNat (48 + n % 10)]

/-- The magnitude of an offset in seconds, to the nearest; half a second counts as one. -/
def offsetSeconds (o : Int) : Nat := (o.natAbs + 500000) / 1000000

/-- The written offset. -/
def writeOffset : Option Int → List Char
  | none => []
  | some o =>
    let seconds := offsetSeconds o
    if seconds = 0 then ['Z']
    else
      (if o < 0 then '-' else '+') ::
        padded 2 (seconds / 3600) ++ ':' :: padded 2 (seconds / 60 % 60)

/-- The characters of a date and time. -/
def write (t : DateTime) : List Char :=
  padded 4 t.year ++ '-' :: padded 2 t.month ++ '-' :: padded 2 t.day ++
    'T' :: padded 2 t.hour ++ ':' :: padded 2 t.minute ++ ':' :: padded 2 t.second ++
    (if t.microsecond = 0 then [] else '.' :: padded 6 t.microsecond) ++ writeOffset t.offset

/-- The written form of a date and time. -/
def text (t : DateTime) : String := String.ofList (write t)

/-- A number of exactly `width` digits in front of a text, and what follows it. -/
def fixed (width : Nat) (s : List Char) : Option (Nat × List Char) :=
  let ds := s.take width
  if ds.length = width ∧ ds.all Char.isDigit then
    some (Number.Decimal.valueOf ds, s.drop width)
  else none

/-- What follows a character that has to stand in front of a text. -/
def after (c : Char) : List Char → Option (List Char)
  | d :: rest => if d = c then some rest else none
  | [] => none

/-- The microseconds that the digits after the decimal mark stand for. -/
def microsOf (digits : List Char) : Nat :=
  Number.Decimal.valueOf ((digits ++ List.replicate 6 '0').take 6)

/-- The seconds and their fraction, where they are written. -/
def readSeconds (s : List Char) : Option (Nat × Nat × List Char) :=
  match s with
  | ':' :: rest => do
    let (second, rest) ← fixed 2 rest
    match rest with
    | c :: rest' =>
      if c = '.' ∨ c = ',' then
        let digits := rest'.takeWhile Char.isDigit
        if digits = [] then none
        else some (second, microsOf digits, rest'.dropWhile Char.isDigit)
      else some (second, 0, rest)
    | [] => some (second, 0, [])
  | _ => some (0, 0, s)

/-- The offset that ends a text, where one is written. -/
def readOffset (s : List Char) : Option (Option Int) :=
  match s with
  | [] => some none
  | c :: rest =>
    if c = 'Z' ∨ c = 'z' then if rest = [] then some (some 0) else none
    else do
      let sign : Int ←
        if c = '+' then some 1 else if c = '-' ∨ c = '\u2212' then some (-1) else none
      let (hours, rest) ← fixed 2 rest
      let (minutes, rest) ← fixed 2 ((after ':' rest).getD rest)
      if rest = [] ∧ minutes ≤ 59 then
        some (some (sign * (hours * 60 + minutes : Nat) * microsPerMinute))
      else none

/-- A date, alone or with a time of day. -/
def readCalendar (s : List Char) : Option DateTime := do
  let (year, rest) ← fixed 4 s
  let (month, rest) ← fixed 2 (← after '-' rest)
  let (day, rest) ← fixed 2 (← after '-' rest)
  match rest with
  | [] => ofParts? year month day 0 0 0 0 none
  | c :: rest =>
    if c = 'T' ∨ c = 't' ∨ c = ' ' ∨ c = '_' then
      let (hour, rest) ← fixed 2 rest
      let (minute, rest) ← fixed 2 (← after ':' rest)
      let (second, microsecond, rest) ← readSeconds rest
      let offset ← readOffset rest
      ofParts? year month day hour minute second microsecond offset
    else none

/-- Above this magnitude a count is taken as milliseconds. -/
def millisecondsAbove : Nat := 20000000000

/-- The time that a whole count of seconds or milliseconds stands for. -/
def ofCount? (count : Int) : Option DateTime :=
  ofEpoch? (if count.natAbs > millisecondsAbove then count * 1000 else count * 1000000) 0

/-- The greatest integer that is not above a count, and how far the count is above it. -/
def floor (negative : Bool) (count : Number.Binary) : Int × Number.Binary :=
  let den := count.fraction.2
  if !negative then (count.whole, Number.Binary.roundQuotient count.beyond den)
  else if count.beyond = 0 then (-(count.whole : Int), ⟨0, 0⟩)
  else (-(count.whole : Int) - 1, Number.Binary.roundQuotient (den - count.beyond) den)

/-- A part of a unit of so many microseconds, rounded to microseconds; a half goes up. The product
of the two is a magnitude itself. -/
def microsIn (unit : Nat) (part : Number.Binary) : Nat :=
  let (n, d) := (Number.Binary.roundQuotient (part.fraction.1 * unit) part.fraction.2).fraction
  (2 * n + d) / (2 * d)

/-- The time that a count with a fraction or an exponent stands for, when it is rounded to binary.
-/
def ofDecimalCount? (negative : Bool) (mantissa : Nat) (exponent : Int) : Option DateTime := do
  let count ← Number.Binary.ofDecimal mantissa exponent
  let (n, d) := count.fraction
  let unit := if n > millisecondsAbove * d then 1000 else 1000000
  let (whole, part) := floor negative count
  ofEpoch? (whole * unit + microsIn unit part) 0

/-- The power of ten behind the letter `e`, if a text is one from its start to its end; without the
letter it is zero. -/
def readPower? : List Char → Option Int
  | [] => some 0
  | c :: rest =>
    if c = 'e' ∨ c = 'E' then
      let (negative, digits) := Number.Decimal.signed rest
      if digits ≠ [] ∧ digits.all Char.isDigit then
        let n : Int := Number.Decimal.valueOf digits
        some (if negative then -n else n)
      else none
    else none

/-- The greatest whole part of a count with a decimal point. -/
def greatestWhole : Nat := (1 <<< 63) - 1

/-- A count of seconds or milliseconds in decimal. Only one with a decimal point may have an
exponent, and it needs a digit on one side of the point. -/
def readCount (s : List Char) : Option DateTime :=
  let (negative, unsigned) := Number.Decimal.signed s
  let whole := unsigned.takeWhile Char.isDigit
  match unsigned.dropWhile Char.isDigit with
  | [] =>
    let n : Int := Number.Decimal.valueOf whole
    if whole = [] then none else ofCount? (if negative then -n else n)
  | c :: rest => do
    let decimals := rest.takeWhile Char.isDigit
    let power ← readPower? (rest.dropWhile Char.isDigit)
    if c = '.' ∧ whole ++ decimals ≠ [] ∧ Number.Decimal.valueOf whole ≤ greatestWhole then
      ofDecimalCount? negative (Number.Decimal.valueOf (whole ++ decimals))
        (power - (decimals.length : Int))
    else none

/-- The date and time that a text stands for. -/
def read? (s : String) : Option DateTime :=
  (readCalendar s.toList).orElse fun _ => readCount s.toList

end GitLfs.DateTime
