import GitLfs.Access.Gate
import GitLfs.Storage.Store

/-!
# Scripted collaborators

Collaborators whose answers are laid down in advance: for rehearsing how a service deals with
refusals and defects. They have no state.
-/

namespace GitLfs

open Json (Value)

/-- A policy that fails in a way of its own, or lets everybody through. -/
structure ScriptedPolicy where
  read : Option Failure
  write : Option Failure
  deriving DecidableEq, Repr

namespace ScriptedPolicy

/-- Success, unless a failure is laid down. -/
def decide {σ : Type} : Option Failure → Query σ Unit
  | none => pure ()
  | some e => throw e

/-- The access policy that fails as it is laid down. -/
def policy {σ : Type} (p : ScriptedPolicy) : AccessPolicy σ where
  mayRead _ _ := decide p.read
  mayWrite _ _ := decide p.write

end ScriptedPolicy

/-- The members of an action that is laid down. -/
abbrev ScriptedAction : Type := List (String × Value)

namespace ScriptedAction

/-- The action for an object for which none is laid down. -/
def standard (oid : String) : ScriptedAction := [("href", .text ("https://store.example/" ++ oid))]

/-- The action with a header for the size, unless it has a member for headers already. -/
def sized (a : ScriptedAction) (size : Nat) : ScriptedAction :=
  if a.any (·.1 = "header") then a
  else a ++ [("header", .object [("X-Size", .text (Number.Decimal.text size))])]

/-- The action; its members are checked when it is asked for. -/
def ask {σ : Type} (a : ScriptedAction) : Query σ Action :=
  Query.ofExcept (Failure.ofChecked (Action.decode (.object a)))

end ScriptedAction

/-- A store with sizes and failures that are laid down; its actions have a base address of their own
unless they are laid down too. -/
structure ScriptedStore where
  /-- What is answered about the size of an object. -/
  sizes : List (String × Option Int)
  failures : List (String × Failure)
  /-- Clients have to do something after an upload. -/
  verifies : Bool
  download : Option ScriptedAction
  upload : Option ScriptedAction
  verify : Option ScriptedAction

namespace ScriptedStore

/-- The object store that answers as it is laid down. -/
def store {σ : Type} (s : ScriptedStore) : ObjectStore σ where
  size oid :=
    match s.failures.lookup oid with
    | some e => throw e
    | none => return (s.sizes.lookup oid).getD (some (-1))
  downloadAction oid := (s.download.getD (.standard oid)).ask
  uploadAction oid size := ((s.upload.getD (.standard oid)).sized size).ask
  verifyAction oid :=
    if s.verifies then some <$> (s.verify.getD (.standard oid)).ask else pure none

end ScriptedStore

end GitLfs
