import GitLfs.Service
import GitLfs.Text.Pieces

/-!
# Git repositories

A repository holds objects under their identifiers, and refs. Objects name each other by identifier,
and any of them may be missing from the repository. Any text may be an identifier: nothing here depends
on how one is made from the object.
-/

namespace GitLfs.Git

/-- The name of an object: forty characters that nothing but the object determines. -/
abbrev ObjectId := String

/-- One name in a tree. -/
structure Entry where
  name : String
  /-- The entry is a link to a commit of another repository. -/
  isSubmodule : Bool
  id : ObjectId
  deriving DecidableEq, Repr, Inhabited

/-- What a repository stores. -/
inductive Object where
  | commit (tree : ObjectId)
  | tag (target : ObjectId)
  | tree (entries : List Entry)
  | blob
  deriving DecidableEq, Repr, Inhabited

namespace Object

/-- The name of a kind of object. -/
def kind : Object → String
  | commit _ => "commit"
  | tag _ => "tag"
  | tree _ => "tree"
  | blob => "blob"

end Object

/-- What a ref leads to. -/
inductive RefTarget where
  | object (id : ObjectId)
  | symbolic (name : String)
  deriving DecidableEq, Repr, Inhabited

/-- Objects and refs. -/
structure Repository where
  objects : List (ObjectId × Object)
  refs : List (String × RefTarget)
  /-- Refs are kept in files. In the name of a file a run of slashes counts as one slash. -/
  refsInFiles : Bool
  deriving DecidableEq, Repr, Inhabited

/-- A text with one slash for each run of slashes: `after` tells that one stands in front of it. -/
def withoutRuns (after : Bool) : List Char → List Char
  | [] => []
  | c :: rest =>
    if after ∧ c = '/' then withoutRuns true rest else c :: withoutRuns (c = '/') rest

namespace Repository

/-- The object with an identifier. -/
def object? (r : Repository) (id : ObjectId) : Option Object :=
  (r.objects.find? (·.1 = id)).map Prod.snd

/-- Two names are those of the same ref. -/
def sameRef (r : Repository) (name other : String) : Bool :=
  if r.refsInFiles then withoutRuns false name.toList = withoutRuns false other.toList
  else name = other

theorem sameRef_self (r : Repository) (name : String) : r.sameRef name name = true := by
  simp [sameRef]

/-- What the ref with a name leads to. -/
def ref? (r : Repository) (name : String) : Option RefTarget :=
  (r.refs.find? fun (other, _) => r.sameRef name other).map Prod.snd

end Repository

end GitLfs.Git
