import GitLfs.Number.Binary

/-!
# Decimal digits of a magnitude

A magnitude is written with a given number of significant digits, with a given number of decimal
places, or with the fewest significant digits that are rounded to it again. A row of digits is a
number and the power of ten of its last digit.
-/

namespace GitLfs.Number

/-- A row of decimal digits: `value * 10 ^ place`. -/
structure Digits where
  value : Nat
  place : Int
  deriving DecidableEq, Repr, Inhabited

namespace Digits

/-- `num / den * 10 ^ e` as a fraction of natural numbers. -/
def shifted (num den : Nat) (e : Int) : Nat × Nat :=
  if 0 ≤ e then (num * Nat.pow 10 e.toNat, den) else (num, den * Nat.pow 10 (-e).toNat)

/-- The power of ten of the first digit of `num / den`, which is not zero. -/
def firstPlace (num den : Nat) : Int :=
  let guess := ((Nat.toDigits 10 num).length : Int) - (Nat.toDigits 10 den).length
  let (n, d) := shifted num den (-guess)
  if n < d then guess - 1 else guess

/-- `num / den` rounded to a multiple of a power of ten. -/
def atPlace (num den : Nat) (place : Int) : Digits :=
  let (n, d) := shifted num den (-place)
  ⟨Binary.roundDiv n d, place⟩

/-- The magnitude with so many digits behind the decimal point. -/
def fixed (x : Binary) (places : Nat) : Digits :=
  atPlace x.fraction.1 x.fraction.2 (-(places : Int))

/-- The magnitude with so many significant digits, of which there is at least one. Zero is written
with a zero for each. -/
def significant (x : Binary) (count : Nat) : Digits :=
  let (num, den) := x.fraction
  if num = 0 then ⟨0, 1 - (count : Int)⟩
  else
    let rounded := atPlace num den (firstPlace num den + 1 - count)
    if rounded.value = Nat.pow 10 count then ⟨rounded.value / 10, rounded.place + 1⟩ else rounded

/-- The digits stand for a number that is rounded to the magnitude. -/
def readsBack (x : Binary) (d : Digits) : Bool :=
  match Binary.ofDecimal d.value d.place with
  | some y => x.same y
  | none => false

/-- The nearer of the two neighbours of a magnitude among the multiples of a power of ten that reads
back, if one does. -/
def neighbour? (x : Binary) (place : Int) : Option Digits :=
  let nearest := atPlace x.fraction.1 x.fraction.2 place
  let (n, d) := shifted x.fraction.1 x.fraction.2 (-place)
  let other : Digits := ⟨if nearest.value = n / d then n / d + 1 else n / d, place⟩
  if readsBack x nearest then some nearest
  else if readsBack x other then some other
  else none

/-- The digits without zeros at their end, of which there are at most `fuel`. -/
def trimmed : Nat → Digits → Digits
  | 0, d => d
  | fuel + 1, d =>
    if d.value = 0 then ⟨0, 0⟩
    else if d.value % 10 = 0 then trimmed fuel ⟨d.value / 10, d.place + 1⟩ else d

/-- The most significant digits that may be needed to tell a magnitude from all others. -/
def enough : Nat := 17

/-- The fewest significant digits that read back, and of these the nearest to the magnitude. -/
def shortest (x : Binary) : Digits :=
  let (num, den) := x.fraction
  if num = 0 then ⟨0, 0⟩
  else
    let first := firstPlace num den
    let found := (List.range enough).findSome? fun n : Nat => neighbour? x (first - (n : Int))
    trimmed enough (found.getD (significant x enough))

/-- The digits from the first to the last; zero has one for each place from the units on. -/
def written (d : Digits) : List Char :=
  if d.value = 0 then List.replicate (1 - d.place).toNat '0' else Nat.toDigits 10 d.value

/-- The power of ten of the first digit. -/
def leading (d : Digits) : Int := d.place + d.written.length - 1

/-- The digits in front of the decimal point, of which there is at least one, and those behind it.
-/
def split (d : Digits) : List Char × List Char :=
  let written := Nat.toDigits 10 d.value
  if 0 ≤ d.place then
    (if d.value = 0 then ['0'] else written ++ List.replicate d.place.toNat '0', [])
  else
    let places := (-d.place).toNat
    let filled := List.replicate (places + 1 - written.length) '0' ++ written
    (filled.take (filled.length - places), filled.drop (filled.length - places))

end Digits

end GitLfs.Number
