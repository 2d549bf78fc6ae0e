import GitLfs.Message.Locking
import GitLfs.Service

/-!
# Lock keepers

A lock keeper owns the locks of a repository.
-/

namespace GitLfs

/-- Keeps the locks of a repository. Creating a lock fails with a conflict when the path is locked;
deleting one fails when it does not exist or is not the user's. -/
structure LockKeeper (σ : Type) where
  create : (path : String) → (ref user : Option String) → Query σ Lock
  list : (path id cursor : Option String) → (limit : Int) → (ref : Option String) → Query σ LockPage
  /-- The locks that matter before a push to the ref. -/
  listToVerify : (ref user cursor : Option String) → (limit : Int) → Query σ LockPage
  delete : (id : String) → (ref user : Option String) → (force : Bool) → Query σ Lock
  isAdministrator : (user : Option String) → Query σ Bool

end GitLfs
