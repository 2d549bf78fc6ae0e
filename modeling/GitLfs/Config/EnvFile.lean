import GitLfs.OrderedMap
import GitLfs.Text.Blank

/-!
# Files of variables

A file of variables has a line `NAME=VALUE` for each of them. The word `export` may stand in front
of a name. A value may stand between quotation marks, and then go over many lines; a number sign
behind a blank starts a comment. A name may stand alone, and then has no value. What has another
form is left out up to the end of its line.

A value may refer to variables, as in `${NAME}` or `${NAME:-default}`: to those in front of it in
the file, or else to those of the environment.

`not_mem_withLineFeeds`: a file is read as if all of its lines ended with a line feed alone.
-/

namespace GitLfs.EnvFile

/-- A blank within a line. -/
def isInlineBlank (c : Char) : Bool := Text.isSeparator c && c != '\n'

/-- A text without the blanks of its line at its start. -/
def afterBlanks (s : List Char) : List Char := s.dropWhile isInlineBlank

/-- What stands in front of the end of a line, and the rest from there on. -/
def spanLine (s : List Char) : List Char × List Char :=
  (s.takeWhile (· ≠ '\n'), s.dropWhile (· ≠ '\n'))

/-- The text behind the line at its start. -/
def afterLine (s : List Char) : List Char := (spanLine s).2.drop 1

/-- A text in which every line ends with a line feed alone. -/
def withLineFeeds : List Char → List Char
  | '\r' :: '\n' :: rest => '\n' :: withLineFeeds rest
  | '\r' :: rest => '\n' :: withLineFeeds rest
  | c :: rest => c :: withLineFeeds rest
  | [] => []

theorem not_mem_withLineFeeds (s : List Char) : '\r' ∉ withLineFeeds s := by
  fun_induction withLineFeeds s with
  | case1 rest ih => simp [ih]
  | case2 rest _ ih => simp [ih]
  | case3 c rest _ h ih =>
    have hc : '\r' ≠ c := fun e => h e.symm
    simp [hc, ih]
  | case4 => simp

/-- A text without the mark of the byte order at its start. -/
def withoutMark : List Char → List Char
  | '\uFEFF' :: rest => rest
  | s => s

/-! ## The parts of a line -/

/-! Reading a part of a line gives what it says and the text behind it, or else it fails and gives
the text from there on. -/

/-- A text without the word `export` and the blanks behind it. -/
def withoutExport (s : List Char) : List Char :=
  if "export".toList.isPrefixOf s then
    match s.drop 6 with
    | c :: rest => if isInlineBlank c then afterBlanks rest else s
    | [] => s
  else s

/-- A character that ends a name. -/
def endsName (c : Char) : Bool := c = '=' || c = '#' || Text.isSeparator c

/-- The name at the start of a text; a comment has none. -/
def readName (s : List Char) : Except (List Char) (Option (List Char) × List Char) :=
  match s with
  | '#' :: _ => .ok (none, s)
  | '\'' :: rest =>
    match rest.takeWhile (· ≠ '\''), rest.dropWhile (· ≠ '\'') with
    | c :: name, _ :: rest' => .ok (some (c :: name), rest')
    | _, _ => .error s
  | _ =>
    match s.takeWhile (!endsName ·) with
    | [] => .error s
    | name => .ok (some name, s.dropWhile (!endsName ·))

/-- What stands behind an opening quotation mark up to the closing one, and the text behind that.
A mark behind a backslash closes nothing, unless no other mark follows. -/
def quotedBody (mark : Char) (escaped : Bool) : List Char → Option (List Char × List Char)
  | [] => none
  | c :: rest =>
    if c = mark then
      if escaped then
        match quotedBody mark false rest with
        | some (body, rest') => some (c :: body, rest')
        | none => some ([], rest)
      else some ([], rest)
    else (quotedBody mark (c = '\\') rest).map fun (body, rest') => (c :: body, rest')

/-- The character that an escape between quotation marks stands for. -/
def escape? (mark c : Char) : Option Char :=
  if c = '\\' ∨ c = '\'' then some c
  else if mark = '\'' then none
  else match c with
    | '"' => some '"'
    | 'a' => some '\x07'
    | 'b' => some '\x08'
    | 'f' => some '\x0c'
    | 'n' => some '\n'
    | 'r' => some '\r'
    | 't' => some '\t'
    | 'v' => some '\x0b'
    | _ => none

/-- A text with its escapes resolved; a backslash that starts none stands for itself. -/
def unescaped (mark : Char) : List Char → List Char
  | '\\' :: c :: rest =>
    match escape? mark c with
    | some x => x :: unescaped mark rest
    | none => '\\' :: unescaped mark (c :: rest)
  | c :: rest => c :: unescaped mark rest
  | [] => []

/-- The rest of a line in front of its comment: `seen` tells that a blank stands in front of it. -/
def withoutComment (seen : Bool) : List Char → List Char
  | [] => []
  | c :: rest =>
    if seen ∧ c = '#' then [] else c :: withoutComment (Text.isSeparator c) rest

/-- The value behind an equals sign. -/
def readValue (s : List Char) : Except (List Char) (List Char × List Char) :=
  let quoted (mark : Char) (rest : List Char) : Except (List Char) (List Char × List Char) :=
    match quotedBody mark false rest with
    | some (body, rest') => .ok (unescaped mark body, rest')
    | none => .error s
  match afterBlanks s with
  | '\'' :: rest => quoted '\'' rest
  | '"' :: rest => quoted '"' rest
  | _ =>
    let (line, rest) := spanLine s
    .ok (Text.trim Text.isSeparator (withoutComment false line), rest)

/-- The text behind the end of a line, which may have a comment in front of it. -/
def readEnd (s : List Char) : Except (List Char) (List Char) :=
  match afterBlanks s with
  | [] => .ok []
  | '\n' :: rest => .ok rest
  | '#' :: rest => .ok (afterLine rest)
  | rest => .error rest

/-- A name with what is assigned to it, if anything is. -/
abbrev Binding : Type := List Char × Option (List Char)

/-- The binding at the start of a text, behind blanks and empty lines; a comment has none. -/
def readBinding (s : List Char) : Except (List Char) (Option Binding × List Char) :=
  match s.dropWhile Text.isSeparator with
  | [] => .ok (none, [])
  | s => do
    let (name, s) ← readName (withoutExport s)
    let (value, s) ← match afterBlanks s with
      | '=' :: rest => (readValue rest).map fun (value, s) => (some value, s)
      | s => .ok (none, s)
    let s ← readEnd s
    return (name.map fun name => (name, value), s)

/-- The bindings of a text, of which at most `fuel` lines are looked at. -/
def bindingsWithin : Nat → List Char → List Binding
  | _, [] => []
  | 0, _ => []
  | fuel + 1, s =>
    match readBinding s with
    | .ok (some b, rest) => b :: bindingsWithin fuel rest
    | .ok (none, rest) => bindingsWithin fuel rest
    | .error rest => bindingsWithin fuel (afterLine rest)

/-- The bindings of a file. Each takes at least one character, so the length is fuel enough. -/
def bindings (s : List Char) : List Binding :=
  let s := withLineFeeds (withoutMark s)
  bindingsWithin s.length s

/-! ## References -/

/-- A reference behind its opening bracket: the name, the default and the text behind it. -/
def reference? (s : List Char) : Option (List Char × List Char × List Char) :=
  let endsReference (c : Char) : Bool := c = '\x7d' || c = ':'
  let name := s.takeWhile (!endsReference ·)
  match s.dropWhile (!endsReference ·) with
  | '\x7d' :: rest => some (name, [], rest)
  | ':' :: '-' :: rest =>
    match rest.dropWhile (· ≠ '\x7d') with
    | _ :: rest' => some (name, rest.takeWhile (· ≠ '\x7d'), rest')
    | [] => none
  | _ => none

/-- A value with its references resolved, of which at most `fuel` characters are looked at. -/
def expandedWithin (known : String → Option String) : Nat → List Char → List Char
  | _, [] => []
  | 0, s => s
  | fuel + 1, '$' :: '\x7b' :: rest =>
    match reference? rest with
    | some (name, otherwise, rest') =>
      (match known (String.ofList name) with
      | some text => text.toList
      | none => otherwise) ++ expandedWithin known fuel rest'
    | none => '$' :: expandedWithin known fuel ('\x7b' :: rest)
  | fuel + 1, c :: rest => c :: expandedWithin known fuel rest

/-- A value with its references resolved: an unknown variable gives the default. -/
def expanded (known : String → Option String) (s : List Char) : String :=
  String.ofList (expandedWithin known s.length s)

/-- The variables of a file under their names. The last value of a name counts. -/
abbrev Variables : Type := OrderedMap String (Option String)

/-- The text of a variable: of the file, where a name without a value is empty, or else of the
environment. -/
def text? (environment : List (String × String)) (found : Variables) (name : String) :
    Option String :=
  match found.get? name with
  | some value => some (value.getD "")
  | none => environment.lookup name

/-- The variables of a file. -/
def read (environment : List (String × String)) (file : String) : Variables :=
  (bindings file.toList).foldl
    (fun found (name, value) =>
      found.insert (String.ofList name) (value.map (expanded (text? environment found)))) ∅

end GitLfs.EnvFile
