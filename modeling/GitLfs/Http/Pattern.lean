import GitLfs.Text.Percent

/-!
# Path patterns

A path pattern is a text in which parameters stand between braces, as in `{name}` or
`{name:kind}`. A parameter stands for a text of its kind. Braces around anything else stand for
themselves.

A pattern may fit a path in more than one way. Then the first parameter has the longest text that
leaves the others one, and so on from the left.

`fit?_chars`: a pattern without parameters fits itself alone, with or without a line break behind it.
-/

namespace GitLfs.Http

/-- What a parameter may stand for. -/
inductive ParameterKind where
  /-- One or more characters other than a slash. -/
  | segment
  /-- Any characters but line breaks. -/
  | path
  /-- One or more digits. -/
  | integer
  /-- One or more digits, which a point and more digits may follow. -/
  | decimal
  /-- Hexadecimal digits in groups of 8, 4, 4, 4 and 12, with or without hyphens between them. -/
  | identifier
  /-- There is no kind with this name. -/
  | unknown (name : String)
  deriving DecidableEq, Repr, Inhabited

namespace ParameterKind

/-- The kind with a name. -/
def ofName (name : String) : ParameterKind :=
  if name = "str" then segment
  else if name = "path" then path
  else if name = "int" then integer
  else if name = "float" then decimal
  else if name = "uuid" then identifier
  else unknown name

/-- The kind is one that there is. -/
def isKnown : ParameterKind → Bool
  | unknown _ => false
  | _ => true

/-- The number of characters in front of the first one that is not in a class. -/
def run (p : Char → Bool) (s : List Char) : Nat := (s.takeWhile p).length

/-- The numbers from `n` down to one. -/
def downTo1 (n : Nat) : List Nat := (List.range n).reverse.map (· + 1)

/-- The lengths that a number with decimals may have at the start of a text, longer ones first. -/
def decimalLengths (s : List Char) : List Nat :=
  let whole := run Char.isDigit s
  let withPoint := match whole, s.drop whole with
    | _ + 1, '.' :: rest => (downTo1 (run Char.isDigit rest)).map (whole + 1 + ·)
    | _, _ => []
  withPoint ++ downTo1 whole

/-- The length of groups of hexadecimal digits at the start of a text, if they are there; a hyphen
may stand in front of each but the first. -/
def groupsLength? (first : Bool) : List Nat → List Char → Option Nat
  | [], _ => some 0
  | size :: sizes, s =>
    let hyphen := match first, s with
      | false, '-' :: _ => 1
      | _, _ => 0
    let group := (s.drop hyphen).take size
    if group.length = size ∧ group.all fun c => (Text.Percent.hexValue? c).isSome then
      (groupsLength? false sizes (s.drop (hyphen + size))).map (hyphen + size + ·)
    else none

/-- The lengths of the texts of a kind at the start of a text, longer ones first. -/
def lengths (s : List Char) : ParameterKind → List Nat
  | segment => downTo1 (run (· ≠ '/') s)
  | path => downTo1 (run (· ≠ '\n') s) ++ [0]
  | integer => downTo1 (run Char.isDigit s)
  | decimal => decimalLengths s
  | identifier => (groupsLength? true [8, 4, 4, 4, 12] s).toList
  | unknown _ => []

end ParameterKind

/-- A part of a path pattern. -/
inductive Part where
  | char (c : Char)
  | parameter (name : String) (kind : ParameterKind)
  deriving DecidableEq, Repr, Inhabited

namespace Part

/-- The name of a parameter. -/
def name? : Part → Option String
  | char _ => none
  | parameter name _ => some name

/-- The part is no parameter of a kind that there is not. -/
def isKnown : Part → Bool
  | char _ => true
  | parameter _ kind => kind.isKnown

end Part

/-- A path pattern. -/
abbrev Pattern := List Part

namespace Pattern

/-- The character may stand in the name of a parameter or of a kind. -/
def isNameChar (c : Char) : Bool := c.isAlphanum || c = '_'

/-- The name at the start of a text, if there is one, and what follows it. -/
def readName? (s : List Char) : Option (String × List Char) :=
  match s.takeWhile isNameChar with
  | first :: rest =>
    if first.isDigit then none else some (String.ofList (first :: rest), s.dropWhile isNameChar)
  | [] => none

/-- The parameter behind an opening brace, if there is one, and what follows its closing brace. -/
def readParameter? (s : List Char) : Option (Part × List Char) := do
  let (name, s) ← readName? s
  match s with
  | '\x7d' :: rest => some (.parameter name .segment, rest)
  | ':' :: s =>
    let (kind, s) ← readName? s
    match s with
    | '\x7d' :: rest => some (.parameter name (.ofName kind), rest)
    | _ => none
  | _ => none

/-- The pattern of a text, of which at most `fuel` characters are looked at. -/
def ofCharsWithin : Nat → List Char → Pattern
  | _, [] => []
  | 0, _ :: _ => []
  | fuel + 1, c :: rest =>
    if c = '\x7b' then
      match readParameter? rest with
      | some (parameter, rest') => parameter :: ofCharsWithin fuel rest'
      | none => .char c :: ofCharsWithin fuel rest
    else .char c :: ofCharsWithin fuel rest

/-- The pattern that a text describes. -/
def ofText (s : String) : Pattern := ofCharsWithin s.length s.toList

/-- The texts of the parameters by name, if the pattern fits a path. A line break may end the path.
-/
def fit? : Pattern → List Char → Option (List (String × String))
  | [], s => if s = [] ∨ s = ['\n'] then some [] else none
  | .char c :: parts, s =>
    match s with
    | d :: rest => if c = d then fit? parts rest else none
    | [] => none
  | .parameter name kind :: parts, s =>
    (kind.lengths s).findSome? fun n =>
      (fit? parts (s.drop n)).map ((name, String.ofList (s.take n)) :: ·)

theorem fit?_chars (s path : List Char) :
    fit? (s.map .char) path = if path = s ∨ path = s ++ ['\n'] then some [] else none := by
  induction s generalizing path with
  | nil => simp [fit?]
  | cons c s ih =>
    match path with
    | [] => simp [fit?]
    | d :: rest =>
      by_cases h : c = d
      · subst h
        simp [fit?, ih]
      · have h' : d ≠ c := fun e => h e.symm
        simp [fit?, h, h']

/-- All parameters are of kinds that there are. -/
def isKnown (p : Pattern) : Bool := p.all Part.isKnown

/-- The names that more than one parameter has, in order. -/
def repeatedNames (p : Pattern) : List String :=
  let names := p.filterMap Part.name?
  (names.eraseDups.filter fun name => 1 < names.count name).mergeSort fun a b => !(b < a)

end Pattern

end GitLfs.Http
