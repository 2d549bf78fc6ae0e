import GitLfs.Git.Path
import GitLfs.Lock.Keeper
import GitLfs.Lock.Page
import GitLfs.Lock.Table

/-!
# The lock registry

A lock keeper that keeps its locks in a table in memory. Identifiers and times come from outside:
the `n`th lock that is about to be made gets the `n`th of each. Where a git repository is given,
only paths that are present in it can be locked.
-/

namespace GitLfs

/-- The rules of a lock registry. -/
structure Registry where
  /-- Those who may release any lock. -/
  administrators : List String
  /-- The most locks on a page. -/
  pageSize : Int
  newId : Nat → String
  /-- The time at which the clock is read for the `n`th time, while it has not run out. -/
  now : Nat → Option DateTime
  repository : Option Git.Repository

/-- What a lock registry keeps. -/
structure RegistryState where
  table : LockTable
  /-- How many identifiers have been drawn. -/
  drawn : Nat
  deriving DecidableEq, Repr, Inhabited

namespace RegistryState

/-- No locks, and no identifier drawn. -/
def empty : RegistryState := ⟨LockTable.empty, 0⟩

end RegistryState

namespace Registry

/-- The user may release any lock. -/
def isAdministrator (r : Registry) (user : Option String) : Bool :=
  match user with
  | some name => name ∈ r.administrators
  | none => false

/-- Refuses a path that is not present in the git repository at a ref. -/
def requirePath (r : Registry) (path : String) (ref : Option String) : Query RegistryState Unit :=
  match r.repository with
  | none => pure ()
  | some repository => do
    if ← repository.hasPath (ref.map .ofText) path then pure ()
    else Query.refuse (.validation
      ("Path " ++ path ++ " does not exist at " ++ Git.Repository.revisionOr ref))

/-- Draws an identifier and a time for a lock on a path that is free, and adds the lock. -/
def add (r : Registry) (path owner : String) : Query RegistryState Lock := do
  let s ← Query.state
  Query.setState { s with drawn := s.drawn + 1 }
  match r.now s.drawn with
  | none => Query.defect .clockOverrun
  | some time =>
    let lock ← Query.ofExcept (Failure.ofChecked (Lock.make (r.newId s.drawn) path time owner))
    Query.setState ⟨s.table.add lock, s.drawn + 1⟩
    return lock

/-- Locks a path for a user. -/
def create (r : Registry) (path : String) (ref user : Option String) : Query RegistryState Lock :=
  match user.getD "" with
  | "" => Query.refuse (.unauthorized "Authentication required to create a lock")
  | owner => do
    r.requirePath path ref
    let s ← Query.state
    match s.table.byPath.get? path with
    | none => r.add path owner
    | some id =>
      match s.table.locks.get? id with
      | some lock => Query.refuse (.lockConflict "already created lock" lock)
      | none => Query.defect .brokenIndex

/-- A page of a listing, as an answer. -/
def answerPage (r : Registry) (locks : List Lock) (cursor : Option String) (limit : Int) :
    Query RegistryState LockPage :=
  match Paging.page r.pageSize locks cursor limit with
  | .ok page => pure page
  | .error e => Query.refuse e

/-- A page of the locks with a path and an identifier, where these are given. -/
def list (r : Registry) (path id cursor : Option String) (limit : Int) :
    Query RegistryState LockPage := do
  let s ← Query.state
  r.answerPage (s.table.active.filter fun l =>
    path.all (l.path = ·) && id.all (l.id = ·)) cursor limit

/-- A page of all locks. -/
def listToVerify (r : Registry) (cursor : Option String) (limit : Int) :
    Query RegistryState LockPage := do
  let s ← Query.state
  r.answerPage s.table.active cursor limit

/-- Releases a lock: its owner may, and with force anybody may. -/
def delete (id : String) (user : Option String) (force : Bool) : Query RegistryState Lock := do
  let s ← Query.state
  match s.table.locks.get? id with
  | none =>
    Query.refuse (.lockDenied ("Lock " ++ id ++ " does not exist"))
  | some lock =>
    if !force ∧ lock.ownerName ≠ user then
      Query.refuse (.lockUnauthorized "delete" lock.path)
    else
      Query.setState { s with table := s.table.dropLock id }
      if lock.path ∈ s.table.byPath.keys then
        Query.setState { s with table := (s.table.dropLock id).dropPath lock.path }
        return lock
      else Query.defect .brokenIndex

/-- The registry as a lock keeper. -/
def keeper (r : Registry) : LockKeeper RegistryState where
  create := r.create
  list path id cursor limit _ := r.list path id cursor limit
  listToVerify _ _ cursor limit := r.listToVerify cursor limit
  delete id _ user force := delete id user force
  isAdministrator user := pure (r.isAdministrator user)

end Registry

namespace LockKeeper

variable {σ τ : Type}

/-- A lock keeper whose state is a part of a larger one. -/
def focus (part : σ → τ) (update : τ → σ → σ) (k : LockKeeper τ) : LockKeeper σ where
  create path ref user := (k.create path ref user).focus part update
  list path id cursor limit ref := (k.list path id cursor limit ref).focus part update
  listToVerify ref user cursor limit := (k.listToVerify ref user cursor limit).focus part update
  delete id ref user force := (k.delete id ref user force).focus part update
  isAdministrator user := (k.isAdministrator user).focus part update

end LockKeeper

end GitLfs
