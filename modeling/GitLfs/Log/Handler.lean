import GitLfs.Config.Basic
import GitLfs.Log
import GitLfs.Text.Upper

/-!
# Writing log records

The logger tree has a level and at most one handler, which writes a line for each record that the
level lets through.
-/

namespace GitLfs.Log

/-- The level of the logger tree and how many handlers it has. -/
structure Logging where
  level : Level
  handlers : Nat
  deriving DecidableEq, Repr, Inhabited

namespace Logging

/-- Neither a level nor a handler. -/
def unset : Logging := ⟨.notSet, 0⟩

/-- The level with a name in any case. -/
def levelNamed (name : String) : Except SetupFailure Level :=
  match Level.ofName? (Text.upper name) with
  | some l => .ok l
  | none => .error (.unknownLevel (Text.upper name))

/-- Sets the level and sees to it that there is a handler. -/
def configure (l : Logging) (name : String) : Except SetupFailure Logging := do
  let level ← levelNamed name
  return ⟨level, max l.handlers 1⟩

/-- The logger belongs to the tree. -/
def covers (logger : String) : Bool :=
  logger = root || (root ++ ".").toList.isPrefixOf logger.toList

/-- The line that a handler writes for an event. -/
def line (requestId : String) (e : Event) : String :=
  e.level.name ++ " " ++ e.logger ++ " [" ++ requestId ++ "] " ++ e.message ++ "\n"

/-- What each handler writes for an event: the identifier is the one that the event brings, or else
that of the request during which it happens. -/
def write (l : Logging) (own context : Option String) (e : Event) : List String :=
  let written :=
    if covers e.logger ∧ l.level.admits e.level then line (own.getD (stamp context)) e else ""
  List.replicate l.handlers written

end Logging

end GitLfs.Log
