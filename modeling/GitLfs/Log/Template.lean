import GitLfs.Log.Argument

/-!
# Message templates

A message with places for values. A place starts with a percent sign and ends with a letter that
says how its value is shown: `s` as it is, `r` with its texts quoted and `a` in ASCII alone; `d`,
`x` and `o` as an integer in the bases 10, 16 and 8; `f`, `e` and `g` as a floating-point number in
positional, scientific and general notation; `c` as a character. Between the two may stand the name
of the value in brackets, flags, the least width, and behind a point the most characters of a text,
the least digits of an integer, or the digits of a floating-point number. Two percent signs are one.

A width or a number of digits that is written as a star is taken from the values. A lone object
gives its members to the places that name them.
-/

namespace GitLfs.Log.Template

open Json (Value)
open Number (Floating)
open Argument

/-! ## Laying values out -/

/-- How a value is laid out in its place. -/
structure Layout where
  /-- The least width. -/
  columns : Nat
  /-- The most characters of a text, the least digits of an integer, the digits of a
  floating-point number. -/
  places : Option Nat
  /-- Blanks to reach the width stand at the end. -/
  atEnd : Bool
  /-- Zeros stand between the sign and the digits to reach the width. -/
  withZeros : Bool
  /-- A number without a minus sign has a plus sign. -/
  withPlus : Bool
  /-- A number without a minus sign has a blank for a sign. -/
  withBlank : Bool
  /-- The base of an integer is told in front of it, where it is not ten; a floating-point number
  keeps its point and its zeros. -/
  inFull : Bool
  deriving DecidableEq, Repr, Inhabited

/-- A text filled up to a width. -/
def fill (l : Layout) (s : List Char) : List Char :=
  let blanks := List.replicate (l.columns - s.length) ' '
  if l.atEnd then s ++ blanks else blanks ++ s

/-- A text in its place. -/
def layText (l : Layout) (s : String) : List Char :=
  fill l (match l.places with
    | some n => s.toList.take n
    | none => s.toList)

/-- A number in its place: its sign, a mark in front of its digits, and the digits. -/
def laySigned (l : Layout) (negative : Bool) (mark digits : List Char) : List Char :=
  let sign :=
    if negative then ['-'] else if l.withPlus then ['+'] else if l.withBlank then [' '] else []
  let front := sign ++ mark
  if l.withZeros ∧ !l.atEnd then
    front ++ List.replicate (l.columns - (front.length + digits.length)) '0' ++ digits
  else fill l (front ++ digits)

/-- The digits of a number in the base that a letter stands for. -/
def digits (letter : Char) (n : Nat) : List Char :=
  if letter = 'x' then Nat.toDigits 16 n
  else if letter = 'X' then (Nat.toDigits 16 n).map Char.toUpper
  else if letter = 'o' then Nat.toDigits 8 n
  else Number.Decimal.digits n

/-- The mark of the base that a letter stands for; ten has none. -/
def baseMark (letter : Char) : List Char :=
  if "xXo".toList.contains letter then ['0', letter] else []

/-- An integer in its place. -/
def layInteger (l : Layout) (letter : Char) (n : Int) : List Char :=
  let written := digits letter n.natAbs
  laySigned l (n < 0) (if l.inFull then baseMark letter else [])
    (List.replicate (l.places.getD 0 - written.length) '0' ++ written)

/-- The digits of a floating-point number when a place does not tell. -/
def usualPlaces : Nat := 6

/-- The style that a letter stands for. -/
def style? (letter : Char) (places : Nat) : Option Floating.Style :=
  match letter.toLower with
  | 'f' => some (.fixed places)
  | 'e' => some (.scientific places)
  | 'g' => some (.general places)
  | _ => none

/-- A floating-point number in its place; a capital letter asks for capital letters. -/
def layReal? (l : Layout) (letter : Char) (f : Floating) : Option (List Char) :=
  (style? letter (l.places.getD usualPlaces)).map fun n =>
    let body := f.body l.inFull n
    laySigned l f.isNegative [] (if letter.isUpper then body.map Char.toUpper else body)

/-- A value in its place, laid out as the letter says; `none` when the two do not fit together. -/
def lay? (l : Layout) (letter : Char) (v : Value) : Option (List Char) :=
  if letter = 's' then some (layText l (plain v))
  else if letter = 'r' then some (layText l (quoted v))
  else if letter = 'a' then some (layText l (quotedAscii v))
  else if letter = 'c' then (character? v).map fun c => fill l [c]
  else if "diu".toList.contains letter then (truncated? v).map (layInteger l letter)
  else if "xXo".toList.contains letter then (integer? v).map (layInteger l letter)
  else if "fFeEgG".toList.contains letter then (real? v).bind (layReal? l letter)
  else none

/-! ## Places -/

/-- A number in a place: written there, or taken from the values. -/
inductive Size where
  | written (n : Nat)
  | taken
  deriving DecidableEq, Repr

/-- A place of a template. -/
structure Place where
  name : Option String
  flags : List Char
  columns : Option Size
  places : Option Size
  letter : Char
  deriving DecidableEq, Repr

/-- The characters up to the bracket that closes `depth` others and the one in front of them, and
what follows it. -/
def bracketed : Nat → List Char → Option (List Char × List Char)
  | _, [] => none
  | depth, c :: rest =>
    let more (depth : Nat) := (bracketed depth rest).map fun (name, rest') => (c :: name, rest')
    if c = '(' then more (depth + 1)
    else if c = ')' then
      match depth with
      | 0 => some ([], rest)
      | depth + 1 => more depth
    else more depth

/-- The name in brackets at the start of a place, if there is one, and what follows it. -/
def readName (s : List Char) : Option (Option String × List Char) :=
  match s with
  | '(' :: rest => (bracketed 0 rest).map fun (name, rest') => (some (String.ofList name), rest')
  | _ => some (none, s)

/-- The size at the start of a text, if there is one, and what follows it. -/
def readSize (s : List Char) : Option Size × List Char :=
  match s with
  | '*' :: rest => (some .taken, rest)
  | _ =>
    match s.takeWhile Char.isDigit with
    | [] => (none, s)
    | digits => (some (.written (Number.Decimal.valueOf digits)), s.dropWhile Char.isDigit)

/-- The size behind a point, if there is one, and what follows it. A point alone means zero. -/
def readPlaces (s : List Char) : Option Size × List Char :=
  match s with
  | '.' :: rest =>
    let (size, rest') := readSize rest
    (some (size.getD (.written 0)), rest')
  | _ => (none, s)

/-- The place behind a percent sign, and what follows it. In front of the letter there may be one
more that tells the size of a number, and is passed over. -/
def readPlace (s : List Char) : Option (Place × List Char) := do
  let isFlag (c : Char) : Bool := "-0+ #".toList.contains c
  let (name, s) ← readName s
  let flags := s.takeWhile isFlag
  let (columns, s) := readSize (s.dropWhile isFlag)
  let (places, s) := readPlaces s
  let s := match s with
    | c :: rest => if "hlL".toList.contains c then rest else s
    | [] => s
  match s with
  | letter :: rest => some (⟨name, flags, columns, places, letter⟩, rest)
  | [] => none

/-! ## Filling places -/

/-- The values for the places of a template. -/
structure Values where
  /-- The values for the places without a name that are still to come. -/
  queue : List Value
  /-- The values for places with a name, where there are any. -/
  named : List (String × Value)

namespace Values

/-- The values for a place with a name, if it has one: its own value is the only one. -/
def forName? (values : Values) : Option String → Option Values
  | none => some values
  | some name => (Value.member? values.named name).map fun v => { values with queue := [v] }

/-- The next value, and the values after it. -/
def next? (values : Values) : Option (Value × Values) :=
  match values.queue with
  | v :: queue => some (v, { values with queue })
  | [] => none

/-- The greatest size of a place. -/
def maxSize : Nat := 2147483647

/-- A size, if there is one, and the values after it. -/
def size? (values : Values) : Option Size → Option (Option Int × Values)
  | none => some (none, values)
  | some (.written n) => if n ≤ maxSize then some (some n, values) else none
  | some .taken => do
    let (v, values) ← values.next?
    let n ← integer? v
    if n.natAbs ≤ maxSize then some (some n, values) else none

end Values

namespace Place

/-- The layout of a place. A negative width puts blanks at the end; a negative number of digits is
none. -/
def layout (p : Place) (columns places : Option Int) : Layout where
  columns := (columns.getD 0).natAbs
  places := places.map Int.toNat
  atEnd := p.flags.contains '-' || columns.getD 0 < 0
  withZeros := p.flags.contains '0'
  withPlus := p.flags.contains '+'
  withBlank := p.flags.contains ' '
  inFull := p.flags.contains '#'

/-- The place with a value in it, and the values after it. -/
def filled? (p : Place) (values : Values) : Option (List Char × Values) := do
  let values ← values.forName? p.name
  let (columns, values) ← values.size? p.columns
  let (places, values) ← values.size? p.places
  let (v, values) ← values.next?
  let s ← lay? (p.layout columns places) p.letter v
  return (s, values)

end Place

/-- The template with its places filled, of which at most `fuel` characters are looked at; `none`
when places and values do not fit together. -/
def fillWithin : Nat → List Char → Values → Option (List Char)
  | _, [], values => if values.queue.isEmpty ∨ !values.named.isEmpty then some [] else none
  | 0, _ :: _, _ => none
  | fuel + 1, '%' :: '%' :: rest, values => (fillWithin fuel rest values).map ('%' :: ·)
  | fuel + 1, '%' :: rest, values => do
    let (place, rest') ← readPlace rest
    let (s, values) ← place.filled? values
    (fillWithin fuel rest' values).map (s ++ ·)
  | fuel + 1, c :: rest, values => (fillWithin fuel rest values).map (c :: ·)

/-- The names that values give: those of the members of a lone object. -/
def namesOf : List Value → List (String × Value)
  | [.object members] => members
  | _ => []

/-- The template with its places filled. Without values a template is a plain message. -/
def apply (template : String) (values : List Value) : Option String :=
  match values with
  | [] => some template
  | _ => (fillWithin template.length template.toList ⟨values, namesOf values⟩).map String.ofList

end GitLfs.Log.Template
