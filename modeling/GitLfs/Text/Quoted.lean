import GitLfs.Text.Printable

/-!
# Quoted text

Texts shown inside a message: between quotation marks, with escapes for the mark itself, for the
backslash and for every character without a printed form.
-/

namespace GitLfs.Text.Quoted

/-- A lower-case hexadecimal digit. -/
def hexDigit (v : Nat) : Char :=
  if v < 10 then Char.ofNat (v + 48) else Char.ofNat (v + 87)

/-- The last `width` hexadecimal digits of a number. -/
def hex : Nat → Nat → List Char
  | 0, _ => []
  | width + 1, n => hex width (n / 16) ++ [hexDigit (n % 16)]

/-- Single quotes, unless the text holds a single quote and no double quote. -/
def mark (s : List Char) : Char :=
  if '\'' ∈ s ∧ '"' ∉ s then '"' else '\''

/-- A character by its number. -/
def escapeNumber (c : Char) : List Char :=
  if c.toNat < 0x100 then '\\' :: 'x' :: hex 2 c.toNat
  else if c.toNat < 0x10000 then '\\' :: 'u' :: hex 4 c.toNat
  else '\\' :: 'U' :: hex 8 c.toNat

/-- How one character stands between marks. -/
def escape (delimiter c : Char) : List Char :=
  if c = delimiter ∨ c = '\\' then ['\\', c]
  else if c = '\n' then ['\\', 'n']
  else if c = '\r' then ['\\', 'r']
  else if c = '\t' then ['\\', 't']
  else if isPrintable c then [c]
  else escapeNumber c

/-- The text between its marks. -/
def text (s : String) : String :=
  let delimiter := mark s.toList
  String.ofList (delimiter :: s.toList.flatMap (escape delimiter) ++ [delimiter])

/-- A text with its characters outside ASCII escaped. -/
def ascii (s : String) : String :=
  String.ofList (s.toList.flatMap fun c => if c.toNat < 0x80 then [c] else escapeNumber c)

/-- Several texts, in square brackets and with commas between them. -/
def list (texts : List String) : String :=
  "[" ++ String.intercalate ", " (texts.map text) ++ "]"

end GitLfs.Text.Quoted
