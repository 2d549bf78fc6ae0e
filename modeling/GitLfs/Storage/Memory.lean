import GitLfs.Storage.Store

/-!
# A size table as an object store

A store that only remembers sizes. The addresses it gives lie below one base address; who serves
them is not its business.
-/

namespace GitLfs

/-- The settings of a store that keeps a size table. -/
structure MemoryStore where
  /-- Without a slash at its end. -/
  baseUrl : String
  /-- How many seconds an action can be used. -/
  expiresIn : Int
  requireVerify : Bool
  deriving DecidableEq, Repr, Inhabited

/-- The sizes that have been put under object identifiers. -/
abbrev SizeTable := OrderedMap String Int

namespace MemoryStore

/-- A store below a base address, of which slashes at the end do not matter. -/
def make (baseUrl : String) (expiresIn : Int) (requireVerify : Bool) : MemoryStore :=
  ⟨String.ofList (Text.trimEnd (· = '/') baseUrl.toList), expiresIn, requireVerify⟩

/-- Remembers a size. -/
def put (sizes : SizeTable) (oid : String) (size : Int) : SizeTable := sizes.insert oid size

/-- Forgets a size. -/
def remove (sizes : SizeTable) (oid : String) : SizeTable := sizes.erase oid

/-- The size that is remembered; -1 when there is none. -/
def size (sizes : SizeTable) (oid : String) : Int := (sizes.get? oid).getD (-1)

/-- Where an object lies. -/
def href (s : MemoryStore) (oid : String) : String := s.baseUrl ++ "/objects/" ++ oid

/-- How a client fetches an object. -/
def downloadAction (s : MemoryStore) (oid : String) : Action :=
  ⟨s.href oid, none, some s.expiresIn, none⟩

/-- How a client sends an object. -/
def uploadAction (s : MemoryStore) (oid : String) : Action :=
  ⟨s.href oid, some (OrderedMap.ofList [("Content-Type", "application/octet-stream")]),
    some s.expiresIn, none⟩

/-- How a client confirms an upload, where that is asked for. -/
def verifyAction (s : MemoryStore) : Option Action :=
  if s.requireVerify then some ⟨s.href "verify", none, some s.expiresIn, none⟩ else none

/-- The object store. -/
def store (s : MemoryStore) : ObjectStore SizeTable where
  size oid := do return some (size (← Query.state) oid)
  downloadAction oid := return s.downloadAction oid
  uploadAction oid _ := return s.uploadAction oid
  verifyAction _ := return s.verifyAction

end MemoryStore

namespace ObjectStore

variable {σ τ : Type}

/-- An object store whose state is a part of a larger one. -/
def focus (part : σ → τ) (update : τ → σ → σ) (s : ObjectStore τ) : ObjectStore σ where
  size oid := (s.size oid).focus part update
  downloadAction oid := (s.downloadAction oid).focus part update
  uploadAction oid size := (s.uploadAction oid size).focus part update
  verifyAction oid := (s.verifyAction oid).focus part update

end ObjectStore

end GitLfs
