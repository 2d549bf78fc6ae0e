import GitLfs.Service

/-!
# Object stores

An object store knows the sizes of the objects that it holds and where clients move them. The
gateway never sees the bytes.
-/

namespace GitLfs

/-- Holds the large objects of a repository. -/
structure ObjectStore (σ : Type) where
  /-- The size of an object; none, or one below zero, when the store does not hold it. -/
  size : (oid : String) → Query σ (Option Int)
  downloadAction : (oid : String) → Query σ Action
  uploadAction : (oid : String) → (size : Nat) → Query σ Action
  /-- What the client does after an upload, if anything. -/
  verifyAction : (oid : String) → Query σ (Option Action)

/-- Where the store for a batch request on the repository at a path is found; the credentials of the
request are shown to a look-up as they came. -/
abbrev StoreSource (σ : Type) :=
  Source σ (BatchRequest × Option String × Option String) (ObjectStore σ)

end GitLfs
