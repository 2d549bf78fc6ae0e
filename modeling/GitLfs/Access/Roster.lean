import GitLfs.Access.Gate

/-!
# Rosters

An access policy that goes by lists of names and takes no notice of the ref. Writers may always
read.
-/

namespace GitLfs

/-- The names of those who may write and of those who may read. -/
structure Roster where
  writers : List String
  /-- Without this list every user with a name may read. -/
  readers : Option (List String)
  /-- Whoever has no name may read. -/
  anonymousRead : Bool
  deriving DecidableEq, Repr, Inhabited

namespace Roster

/-- Whether a user may read. -/
def mayRead (r : Roster) (user : Option String) : Except Refusal Unit :=
  match user with
  | none =>
    if r.anonymousRead then .ok () else .error (.unauthorized "Authentication required")
  | some name =>
    match r.readers with
    | none => .ok ()
    | some readers =>
      if name ∈ readers ∨ name ∈ r.writers then .ok ()
      else .error (.plain .repositoryNotFound "Repository not found")

/-- Whether a user may write. -/
def mayWrite (r : Roster) (user : Option String) : Except Refusal Unit :=
  match user with
  | none => .error (.unauthorized "Authentication required")
  | some name =>
    match r.mayRead user with
    | .error e => .error e
    | .ok () =>
      if name ∈ r.writers then .ok ()
      else .error (.plain .repositoryReadOnly ("User " ++ name ++ " has read-only access"))

/-- A decision as an answer of a collaborator. -/
def decide {σ : Type} : Except Refusal Unit → Query σ Unit
  | .ok () => pure ()
  | .error e => Query.refuse e

/-- The policy that goes by a roster. -/
def policy {σ : Type} (r : Roster) : AccessPolicy σ where
  mayRead _ user := decide (r.mayRead user)
  mayWrite _ user := decide (r.mayWrite user)

end Roster

end GitLfs
