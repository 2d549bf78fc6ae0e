import GitLfs.Config.Basic
import GitLfs.Config.EnvFile
import GitLfs.Json.Reader
import GitLfs.Text.Upper

/-!
# Where settings come from

Settings are given by name, by variables of the environment and by a file of variables, in this
order of precedence. Names are compared in small letters; variables have a prefix. A variable for a
list is JSON text, and one that says `null` gives nothing.
-/

namespace GitLfs.Config

open Json (Value)

/-- How the text of a variable gives a setting. -/
inductive Form where
  /-- The text is the value. -/
  | plain
  /-- The text has to be JSON. -/
  | json
  /-- The text is JSON if it can be read as such, and the value itself otherwise. -/
  | jsonOrPlain
  deriving DecidableEq, Repr

/-- The settings and the form of their variables. -/
def forms : List (String × Form) :=
  [("APP_NAME", .plain), ("APP_VERSION", .plain), ("BATCH_PREFIX", .plain),
    ("LOCKS_PREFIX", .plain), ("BACKEND", .plain), ("PUBLIC_URL", .plain),
    ("ACTION_EXPIRES_IN", .plain), ("LOCK_PAGE_SIZE", .plain), ("LOCK_ADMINISTRATORS", .json),
    ("GIT_REPO_PATH", .plain), ("WRITERS", .jsonOrPlain), ("READERS", .jsonOrPlain),
    ("ANONYMOUS_READ", .plain), ("LOG_LEVEL", .plain)]

/-- The start of the names of variables. -/
def variableStart : String := "LFS_"

/-- The small letter of a character. The Kelvin sign is the one character outside ASCII whose small
letter is in ASCII, as all letters of the names of settings are. -/
def smallLetter (c : Char) : Char := if c = '\u212A' then 'k' else c.toLower

/-- A name in small letters, in which names are compared. -/
def small (name : String) : String := String.ofList (name.toList.map smallLetter)

/-- The first value that is given under a name. -/
def first? {α : Type} (given : List (String × α)) (name : String) : Option α :=
  (given.find? fun (other, _) => small other = small name).map Prod.snd

/-- The last value that is given under a name. -/
def last? {α : Type} (given : List (String × α)) (name : String) : Option α :=
  first? given.reverse name

/-- What the text of a variable gives. -/
def valueOf (form : Form) (text : String) : Except SetupFailure (Option Value) :=
  match form with
  | .plain => .ok (some (.text text))
  | .json =>
    match Json.readChars .lenient text.toList with
    | none => .error .unreadableSetting
    | some .null => .ok none
    | some v => .ok (some v)
  | .jsonOrPlain =>
    match Json.readChars .lenient text.toList with
    | none => .ok (some (.text text))
    | some .null => .ok none
    | some v => .ok (some v)

/-- The settings that variables give. -/
def ofVariables (assigned : List (String × Option String)) :
    List (String × Form) → Except SetupFailure (List (String × Value))
  | [] => .ok []
  | (name, form) :: rest => do
    let value ← match (last? assigned (variableStart ++ name)).join with
      | none => .ok none
      | some text => valueOf form text
    let others ← ofVariables assigned rest
    return match value with
      | none => others
      | some v => (name, v) :: others

/-- The settings that are given by name. -/
def ofNames (named : List (String × Value)) : List (String × Value) :=
  forms.filterMap fun (name, _) => (first? named name).map fun v => (name, v)

/-- The settings that are given by name, by the environment and by a file of variables. -/
def load (named : List (String × Value)) (environment : List (String × String))
    (file : String) : Except SetupFailure Config := do
  let fromEnvironment ← ofVariables (environment.map fun (name, text) => (name, some text)) forms
  let fromFile ← ofVariables (EnvFile.read environment file).entries forms
  -- of members with one name the last counts
  match decode (.object (fromFile ++ fromEnvironment ++ ofNames named)) with
  | .passed c => .ok c
  | .failed first others => .error (.invalidSettings first others)

end GitLfs.Config
