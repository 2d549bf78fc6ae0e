import GitLfs.Json.Token
import GitLfs.Text.Utf8

/-!
# Reading JSON

A machine takes the tokens of a text one by one. It keeps the containers that are open, the
innermost first, and what may come next. Where a dialect limits how deep containers may be nested,
one that is deeper by one must be empty.
-/

namespace GitLfs.Json

/-- A container whose end has not come yet, with what it holds so far, the last first. -/
inductive OpenContainer where
  | list (items : List Value)
  | object (members : List (String × Value)) (pending : String)
  deriving Repr, Inhabited

/-- What may come next. -/
inductive Awaiting where
  /-- A value. -/
  | value
  /-- A value, or the end of the list that has just been opened. -/
  | firstItem
  /-- A name, or the end of the object that has just been opened. -/
  | firstName
  /-- A name, after a comma. -/
  | name
  /-- The colon after a name. -/
  | colon
  /-- A comma, or the end of the innermost container. -/
  | separator
  deriving DecidableEq, Repr, Inhabited

/-- How far reading has come. -/
inductive Reading where
  /-- Containers are open, or nothing has been read. -/
  | within (open' : List OpenContainer) (awaiting : Awaiting)
  /-- One whole value has been read. -/
  | finished (v : Value)
  deriving Repr, Inhabited

namespace Reading

/-- Before the first token. -/
def start : Reading := .within [] .value

/-- A whole value goes into the innermost container, or it is the result. -/
def accept (d : Dialect) (containers : List OpenContainer) (v : Value) : Option Reading :=
  if d.tooDeep containers.length then none
  else match containers with
    | [] => some (.finished v)
    | .list items :: outer => some (.within (.list (v :: items) :: outer) .separator)
    | .object members pending :: outer =>
      some (.within (.object ((pending, v) :: members) "" :: outer) .separator)

/-- A container is opened, unless it would be nested too deep. -/
def enter (d : Dialect) (containers : List OpenContainer) (c : OpenContainer)
    (awaiting : Awaiting) : Option Reading :=
  if d.tooDeep containers.length then none else some (.within (c :: containers) awaiting)

/-- The innermost container ends, if it is a list. -/
def closeList (d : Dialect) : List OpenContainer → Option Reading
  | .list items :: outer => accept d outer (.list items.reverse)
  | _ => none

/-- The innermost container ends, if it is an object. -/
def closeObject (d : Dialect) : List OpenContainer → Option Reading
  | .object members _ :: outer => accept d outer (.object members.reverse)
  | _ => none

/-- A name in the innermost container. -/
def nameMember (name : String) : List OpenContainer → Option Reading
  | .object members _ :: outer => some (.within (.object members name :: outer) .colon)
  | _ => none

/-- A comma in the innermost container. -/
def continue? (containers : List OpenContainer) : Option Reading :=
  match containers with
  | .list _ :: _ => some (.within containers .value)
  | .object _ _ :: _ => some (.within containers .name)
  | [] => none

/-- One token more; `none` when it may not come here. -/
def step (d : Dialect) : Reading → Token → Option Reading
  | .within cs .value, .literal v => accept d cs v
  | .within cs .value, .text s => accept d cs (.text s)
  | .within cs .value, .openList => enter d cs (.list []) .firstItem
  | .within cs .value, .openObject => enter d cs (.object [] "") .firstName
  | .within cs .firstItem, .literal v => accept d cs v
  | .within cs .firstItem, .text s => accept d cs (.text s)
  | .within cs .firstItem, .openList => enter d cs (.list []) .firstItem
  | .within cs .firstItem, .openObject => enter d cs (.object [] "") .firstName
  | .within cs .firstItem, .closeList => closeList d cs
  | .within cs .firstName, .text s => nameMember s cs
  | .within cs .firstName, .closeObject => closeObject d cs
  | .within cs .name, .text s => nameMember s cs
  | .within cs .colon, .colon => some (.within cs .value)
  | .within cs .separator, .comma => continue? cs
  | .within cs .separator, .closeList => closeList d cs
  | .within cs .separator, .closeObject => closeObject d cs
  | _, _ => none

/-- The value, when a whole one has been read. -/
def result? : Reading → Option Value
  | .finished v => some v
  | .within _ _ => none

end Reading

/-- The value that a text stands for, if it is JSON in a dialect from its start to its end. -/
def readChars (d : Dialect) (s : List Char) : Option Value := do
  let tokens ← Token.list? d s
  let reading ← tokens.foldlM (Reading.step d) Reading.start
  reading.result?

/-- The value that bytes stand for, read as UTF-8. -/
def readBytes (d : Dialect) (bytes : List UInt8) : Option Value :=
  (Text.Utf8.decode? bytes).bind (readChars d)

end GitLfs.Json
