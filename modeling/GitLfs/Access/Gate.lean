import GitLfs.Service

/-!
# The access gate

Every operation needs the right to read, the right to write, or no right at all. A policy decides
about the two rights; without a policy everybody may do everything.
-/

namespace GitLfs

/-- What the gate is asked about. -/
inductive Operation where
  | download
  | upload
  | verify
  | listLocks
  | createLock
  | deleteLock
  | listLocksToVerify
  deriving DecidableEq, Repr, Inhabited

namespace Operation

/-- The name of an operation in logs. -/
def name : Operation → String
  | download => "download"
  | upload => "upload"
  | verify => "verify"
  | listLocks => "list_locks"
  | createLock => "create_lock"
  | deleteLock => "delete_lock"
  | listLocksToVerify => "list_locks_to_verify"

/-- All operations. -/
def all : List Operation :=
  [download, upload, verify, listLocks, createLock, deleteLock, listLocksToVerify]

/-- The operation with a name. -/
def ofName? (name : String) : Option Operation := all.find? (·.name = name)

/-- The operation of a batch. -/
def ofBatch : BatchOperation → Operation
  | .download => download
  | .upload => upload
  | .verify => verify

end Operation

/-- A right on a repository. -/
inductive Access where
  | read
  | write
  deriving DecidableEq, Repr, Inhabited

/-- The right that an operation needs. Verifying a batch needs none; listing locks before a push
needs the right to push. -/
def Operation.requiredAccess : Operation → Option Access
  | download => some .read
  | upload => some .write
  | verify => none
  | listLocks => some .read
  | createLock => some .write
  | deleteLock => some .write
  | listLocksToVerify => some .write

/-- Decides who may read and who may write a repository; it fails when somebody may not. -/
structure AccessPolicy (σ : Type) where
  /-- The user may read at the ref. -/
  mayRead : (ref user : Option String) → Query σ Unit
  /-- The user may write at the ref. -/
  mayWrite : (ref user : Option String) → Query σ Unit

namespace Gate

variable {σ : Type}

/-- The message about a check that is made. -/
def checkMessage (right : String) (op : Operation) (ref user : Option String) : String :=
  Log.message ("access.check " ++ right)
    [("op", op.name), ("ref", Log.shown ref), ("user", Log.shown user)]

/-- Asks the policy, if there is one, for the right that an operation needs, if it needs one. -/
def check (policy : Option (AccessPolicy σ)) (op : Operation) (ref user : Option String) :
    Service σ Unit :=
  match policy, op.requiredAccess with
  | some policy, some .read => do
    Service.report .debug "auth" (checkMessage "read" op ref user)
    Service.ask (.mayRead ref user) (policy.mayRead ref user)
  | some policy, some .write => do
    Service.report .debug "auth" (checkMessage "write" op ref user)
    Service.ask (.mayWrite ref user) (policy.mayWrite ref user)
  | _, _ => pure ()

end Gate

/-- Where the policy for the repository at a path is found. -/
abbrev PolicySource (σ : Type) := Source σ (Option String) (AccessPolicy σ)

namespace Gate

variable {σ : Type}

/-- Finds the policy for the repository at a path and asks it. -/
def pass (policies : PolicySource σ) (path : Option String) (op : Operation)
    (ref user : Option String) : Service σ Unit := do
  let policy ← policies.resolve .policyFor path
  check policy op ref user

end Gate

end GitLfs
