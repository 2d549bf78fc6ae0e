import GitLfs.Check.Decode

/-!
# Refs and locks

A ref names the line of development that objects and locks belong to; a lock says who has reserved a
path and since when. `encode` writes every field of a message, `null` for one without a value.
-/

namespace GitLfs

open Json (Value)

/-- The ref that a request is about, fully qualified. -/
structure Ref where
  name : Option String
  deriving DecidableEq, Repr, Inhabited

namespace Ref

/-- Reads a ref; it may have no name. -/
def decode : Decoder Ref := Decoder.record "LfsRef" fun members =>
  Ref.mk <$> Decoder.optional members "name" none (Decoder.nullable Decoder.text)

/-- Writes a ref. -/
def encode (r : Ref) : Value :=
  .object [("name", Value.optional .text r.name)]

/-- The name of a ref that may be left out and may have no name. -/
def name? (r : Option Ref) : Option String := r.bind Ref.name

end Ref

/-- Who holds a lock. -/
structure LockOwner where
  name : String
  deriving DecidableEq, Repr, Inhabited

namespace LockOwner

/-- Reads an owner, who has a name. -/
def decode : Decoder LockOwner := Decoder.record "LockOwner" fun members =>
  LockOwner.mk <$> Decoder.required members "name" Decoder.text

/-- Writes an owner. -/
def encode (o : LockOwner) : Value :=
  .object [("name", .text o.name)]

end LockOwner

/-- A path that is reserved, by whom and since when. -/
structure Lock where
  id : String
  path : String
  lockedAt : DateTime
  owner : Option LockOwner
  deriving DecidableEq, Repr

namespace Lock

/-- The name of the owner, if the lock has one. -/
def ownerName (l : Lock) : Option String := l.owner.map LockOwner.name

/-- Reads a lock, whose identifier and path are not empty. -/
def decode : Decoder Lock := Decoder.record "Lock" fun members =>
  Lock.mk <$> Decoder.required members "id" Decoder.someText
    <*> Decoder.required members "path" Decoder.someText
    <*> Decoder.required members "locked_at" Decoder.dateTime
    <*> Decoder.optional members "owner" none (Decoder.nullable LockOwner.decode)

/-- Writes a lock. -/
def encode (l : Lock) : Value :=
  .object [("id", .text l.id), ("path", .text l.path), ("locked_at", .text l.lockedAt.text),
    ("owner", Value.optional LockOwner.encode l.owner)]

/-- A lock with an identifier and a path that are not empty. -/
def make (id path : String) (lockedAt : DateTime) (owner : String) : Checked Lock :=
  (fun i p => Lock.mk i p lockedAt (some ⟨owner⟩))
    <$> (Decoder.nonEmpty id).under (.member "id")
    <*> (Decoder.nonEmpty path).under (.member "path")

end Lock

/-- The body of an answer that says what went wrong. -/
structure ErrorBody where
  message : String
  deriving DecidableEq, Repr, Inhabited

namespace ErrorBody

/-- Reads the body of an answer that says what went wrong. -/
def decode : Decoder ErrorBody := Decoder.record "ErrorBody" fun members =>
  ErrorBody.mk <$> Decoder.required members "message" Decoder.text

/-- Writes the body of an answer that says what went wrong. -/
def encode (b : ErrorBody) : Value :=
  .object [("message", .text b.message)]

end ErrorBody

/-- The body of an answer that says that a path is locked already. -/
structure ConflictBody where
  message : String
  lock : Lock
  deriving DecidableEq, Repr

namespace ConflictBody

/-- Reads the body of an answer about a conflict. -/
def decode : Decoder ConflictBody := Decoder.record "LockExistsErrorBody" fun members =>
  ConflictBody.mk <$> Decoder.required members "message" Decoder.text
    <*> Decoder.required members "lock" Lock.decode

/-- Writes the body of an answer about a conflict. -/
def encode (b : ConflictBody) : Value :=
  .object [("message", .text b.message), ("lock", b.lock.encode)]

end ConflictBody

end GitLfs
