import GitLfs.Access.Gate
import GitLfs.Lock.Keeper

/-!
# The locking service

Every operation passes the access gate first, then finds the lock keeper of the repository, and then
makes one call on it that lists or changes locks.
-/

namespace GitLfs

/-- What a request for a list of locks asks for. -/
structure LockQuery where
  path : Option String
  id : Option String
  cursor : Option String
  limit : Int
  refspec : Option String
  deriving DecidableEq, Repr, Inhabited

/-- The locking service of some repositories. -/
structure Locking (σ : Type) where
  policies : PolicySource σ
  keepers : Source σ (Option String) (LockKeeper σ)

namespace Locking

variable {σ : Type}

/-- What a client is told when there is no lock keeper for a repository. -/
def unavailableMessage : String := "LFS file locking service unavailable"

/-- The lock keeper of the repository at a path. -/
def keeper (s : Locking σ) (path : Option String) : Service σ (LockKeeper σ) := do
  match ← s.keepers.resolve .keeperFor path with
  | some keeper => return keeper
  | none => Service.refuse (.plain .serviceUnavailable unavailableMessage)

/-- Locks a path. -/
def create (s : Locking σ) (r : CreateRequest) (user path : Option String) :
    Service σ LockAnswer := do
  let ref := Ref.name? r.ref
  Gate.pass s.policies path .createLock ref user
  let keeper ← s.keeper path
  Service.report .debug "locks" (Log.message "locks.create"
    [("path", r.path), ("ref", Log.shown ref), ("user", Log.shown user)])
  let lock ← Service.ask (.createLock r.path ref user) (keeper.create r.path ref user)
  Service.report .info "locks" (Log.message "locks.created"
    [("id", lock.id), ("path", lock.path), ("user", Log.shown user)])
  return ⟨lock⟩

/-- Lists locks. -/
def list (s : Locking σ) (q : LockQuery) (user path : Option String) : Service σ LockPage := do
  Gate.pass s.policies path .listLocks q.refspec user
  let keeper ← s.keeper path
  Service.report .debug "locks" (Log.message "locks.list"
    [("path", Log.shown q.path), ("id", Log.shown q.id), ("cursor", Log.shown q.cursor),
      ("limit", Log.shownInt q.limit), ("refspec", Log.shown q.refspec)])
  Service.ask (.listLocks q.path q.id q.cursor q.limit q.refspec)
    (keeper.list q.path q.id q.cursor q.limit q.refspec)

/-- The locks of a page, those of a user apart from the others. Nobody owns anything without a name.
-/
def split (page : LockPage) (user : Option String) : VerifyPage :=
  let mine (l : Lock) : Bool := user.isSome && l.ownerName = user
  ⟨page.locks.filter mine, page.locks.filter (!mine ·), page.nextCursor⟩

/-- Lists the locks that matter before a push. -/
def listToVerify (s : Locking σ) (r : VerifyRequest) (user path : Option String) :
    Service σ VerifyPage := do
  let ref := Ref.name? r.ref
  Gate.pass s.policies path .listLocksToVerify ref user
  let keeper ← s.keeper path
  Service.report .debug "locks" (Log.message "locks.verify"
    [("cursor", Log.shown r.cursor), ("limit", Log.shownInt r.limit), ("ref", Log.shown ref),
      ("user", Log.shown user)])
  let page ← Service.ask (.locksToVerify ref user r.cursor r.limit)
    (keeper.listToVerify ref user r.cursor r.limit)
  return split page user

/-- Releases a lock. Force counts only for those whom the lock keeper knows as administrators. -/
def release (s : Locking σ) (id : String) (r : ReleaseRequest) (user path : Option String) :
    Service σ LockAnswer := do
  let ref := Ref.name? r.ref
  Gate.pass s.policies path .deleteLock ref user
  let keeper ← s.keeper path
  let force ←
    if r.force then Service.ask (.isAdministrator user) (keeper.isAdministrator user)
    else pure false
  Service.report .debug "locks" (Log.message "locks.delete"
    [("id", id), ("ref", Log.shown ref), ("user", Log.shown user), ("force", Log.shownBool force)])
  let lock ← Service.ask (.deleteLock id ref user force) (keeper.delete id ref user force)
  Service.report .info "locks" (Log.message "locks.deleted"
    [("id", lock.id), ("path", lock.path), ("user", Log.shown user),
      ("force", Log.shownBool force)])
  return ⟨lock⟩

end Locking

end GitLfs
