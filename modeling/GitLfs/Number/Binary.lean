/-!
# Binary floating point

A magnitude is a number with 53 significant binary digits and an exponent of at least -1074. A
quotient is rounded to the nearest magnitude; one half-way between two goes to that with an even
last digit. Beyond 2^1024 it is out of range.
-/

namespace GitLfs.Number

/-- A binary magnitude: `significand * 2 ^ exponent`. -/
structure Binary where
  significand : Nat
  exponent : Int
  deriving DecidableEq, Repr, Inhabited

namespace Binary

/-- The nearest integer to a quotient, an exact half going to the even neighbour. -/
def roundDiv (num den : Nat) : Nat :=
  let q := num / den
  let r := num % den
  if 2 * r < den then q
  else if den < 2 * r then q + 1
  else if q % 2 = 0 then q else q + 1

/-- `num / den * 2 ^ e` as a fraction of natural numbers. -/
def scaled (num den : Nat) (e : Int) : Nat × Nat :=
  if 0 ≤ e then (num <<< e.toNat, den) else (num, den <<< (-e).toNat)

/-- The exponent of the last binary digit that is kept of `num / den`. -/
def lastPlace (num den : Nat) : Int :=
  let guess := (num.log2 : Int) - den.log2 - 52
  let (n, d) := scaled num den (-guess)
  max (if n < d <<< 52 then guess - 1 else guess) (-1074)

/-- The magnitude nearest to `num / den`. -/
def roundQuotient (num den : Nat) : Binary :=
  let e := lastPlace num den
  let (n, d) := scaled num den (-e)
  ⟨roundDiv n d, e⟩

/-- A magnitude as a fraction of natural numbers. -/
def fraction (x : Binary) : Nat × Nat := scaled x.significand 1 x.exponent

/-- Two magnitudes are the same number. -/
def same (x y : Binary) : Bool :=
  x.fraction.1 * y.fraction.2 = y.fraction.1 * x.fraction.2

/-- The magnitude nearest to `mantissa * 10 ^ exponent`; `none` when it is out of range. -/
def ofDecimal (mantissa : Nat) (exponent : Int) : Option Binary :=
  if mantissa = 0 then some ⟨0, 0⟩
  else
    let places := exponent + (Nat.toDigits 10 mantissa).length
    if places > 310 then none
    else if places < -330 then some ⟨0, 0⟩
    else
      let x :=
        if 0 ≤ exponent then roundQuotient (mantissa * Nat.pow 10 exponent.toNat) 1
        else roundQuotient mantissa (Nat.pow 10 (-exponent).toNat)
      if 0 ≤ x.exponent ∧ 1 <<< 1024 ≤ x.significand <<< x.exponent.toNat then none else some x

/-- The greatest integer that is not above a magnitude. -/
def whole (x : Binary) : Nat := x.fraction.1 / x.fraction.2

/-- What a magnitude has beyond its whole part: a numerator to the denominator of `fraction`. -/
def beyond (x : Binary) : Nat := x.fraction.1 % x.fraction.2

/-- The integer that a magnitude is, if it is one. -/
def integer? (x : Binary) : Option Nat :=
  if x.beyond = 0 then some x.whole else none

end Binary

end GitLfs.Number
