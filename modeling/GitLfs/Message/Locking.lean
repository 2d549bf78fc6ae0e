import GitLfs.Message.Lock

/-!
# Requests and answers about locks
-/

namespace GitLfs

open Json (Value)

/-- A request to lock a path. -/
structure CreateRequest where
  path : String
  ref : Option Ref
  deriving DecidableEq, Repr, Inhabited

namespace CreateRequest

/-- Reads a request to lock a path, which is not blank. -/
def decode : Decoder CreateRequest := Decoder.record "CreateLockRequest" fun members =>
  CreateRequest.mk <$> Decoder.required members "path" Decoder.trimmedText
    <*> Decoder.optional members "ref" none (Decoder.nullable Ref.decode)

/-- Writes a request to lock a path. -/
def encode (r : CreateRequest) : Value :=
  .object [("path", .text r.path), ("ref", Value.optional Ref.encode r.ref)]

end CreateRequest

/-- A request for the locks that matter before a push. No limit, or one that is not above zero,
leaves the size of a page to the server. -/
structure VerifyRequest where
  ref : Option Ref
  cursor : Option String
  limit : Int
  deriving DecidableEq, Repr, Inhabited

namespace VerifyRequest

/-- Reads a request for the locks that matter before a push. -/
def decode : Decoder VerifyRequest := Decoder.record "ListLocksToVerifyRequest" fun members =>
  VerifyRequest.mk <$> Decoder.optional members "ref" none (Decoder.nullable Ref.decode)
    <*> Decoder.optional members "cursor" none (Decoder.nullable Decoder.text)
    <*> Decoder.optional members "limit" 0 Decoder.integer

/-- Writes a request for the locks that matter before a push. -/
def encode (r : VerifyRequest) : Value :=
  .object [("ref", Value.optional Ref.encode r.ref),
    ("cursor", Value.optional .text r.cursor), ("limit", Value.integer r.limit)]

end VerifyRequest

/-- A request to release a lock, with force when it may be somebody else's. -/
structure ReleaseRequest where
  force : Bool
  ref : Option Ref
  deriving DecidableEq, Repr, Inhabited

namespace ReleaseRequest

/-- Reads a request to release a lock. -/
def decode : Decoder ReleaseRequest := Decoder.record "DeleteLockRequest" fun members =>
  ReleaseRequest.mk <$> Decoder.optional members "force" false Decoder.boolean
    <*> Decoder.optional members "ref" none (Decoder.nullable Ref.decode)

/-- Writes a request to release a lock. -/
def encode (r : ReleaseRequest) : Value :=
  .object [("force", .boolean r.force), ("ref", Value.optional Ref.encode r.ref)]

end ReleaseRequest

/-- Some of the locks, and the cursor of the first one that is left out. -/
structure LockPage where
  locks : List Lock
  nextCursor : Option String
  deriving DecidableEq, Repr

namespace LockPage

/-- Reads a page of locks. -/
def decode : Decoder LockPage := Decoder.record "LockList" fun members =>
  LockPage.mk <$> Decoder.optional members "locks" [] (Decoder.list Lock.decode)
    <*> Decoder.optional members "next_cursor" none (Decoder.nullable Decoder.text)

/-- Writes a page of locks. -/
def encode (p : LockPage) : Value :=
  .object [("locks", .list (p.locks.map Lock.encode)),
    ("next_cursor", Value.optional .text p.nextCursor)]

end LockPage

/-- A page of locks, with those of the one who asks apart from the others. -/
structure VerifyPage where
  ours : List Lock
  theirs : List Lock
  nextCursor : Option String
  deriving DecidableEq, Repr

namespace VerifyPage

/-- Reads the two halves of a page of locks. -/
def decode : Decoder VerifyPage := Decoder.record "LocksToVerify" fun members =>
  VerifyPage.mk <$> Decoder.optional members "ours" [] (Decoder.list Lock.decode)
    <*> Decoder.optional members "theirs" [] (Decoder.list Lock.decode)
    <*> Decoder.optional members "next_cursor" none (Decoder.nullable Decoder.text)

/-- Writes the two halves of a page of locks. -/
def encode (p : VerifyPage) : Value :=
  .object [("ours", .list (p.ours.map Lock.encode)), ("theirs", .list (p.theirs.map Lock.encode)),
    ("next_cursor", Value.optional .text p.nextCursor)]

end VerifyPage

/-- The answer to a request that created or released a lock. -/
structure LockAnswer where
  lock : Lock
  deriving DecidableEq, Repr

namespace LockAnswer

/-- Reads the answer about one lock. -/
def decode : Decoder LockAnswer := Decoder.record "LockResponse" fun members =>
  LockAnswer.mk <$> Decoder.required members "lock" Lock.decode

/-- Writes the answer about one lock. -/
def encode (a : LockAnswer) : Value :=
  .object [("lock", a.lock.encode)]

end LockAnswer

end GitLfs
