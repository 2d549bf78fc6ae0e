import GitLfs.Git.Revision

/-!
# Paths in a tree

A path is a row of names with slashes between them; slashes too many do not matter. It is present
when the names lead from the tree of a commit to an entry. An entry that links to another repository
is present itself, but nothing can be looked up below it.
-/

namespace GitLfs.Git

/-- The names of a path. -/
def segments (path : String) : List String :=
  ((Text.pieces '/' path.toList).filter (· ≠ [])).map String.ofList

namespace Repository

/-- Whether names lead from a tree to an entry. -/
def leads (r : Repository) (tree : ObjectId) : List String → Except Defect Bool
  | [] => .ok true
  | name :: rest =>
    match r.object? tree with
    | some (.tree entries) =>
      match entries.find? (·.name = name) with
      | none => .ok false
      | some entry =>
        if rest ≠ [] ∧ entry.isSubmodule then .error .belowSubmodule
        else leads r entry.id rest
    | _ => .ok false

/-- The revision that counts when none is given. -/
def revisionOr (revision : Option String) : String :=
  match revision with
  | some text => if text = "" then "HEAD" else text
  | none => "HEAD"

/-- The revision that counts, which has to have bytes. -/
def revisionText (revision : Option Text.Raw) : Except Defect String :=
  (revision.getD "").characters.map fun text => revisionOr (some text)

/-- Whether a path is present in the tree of a commit. The path has to have bytes. -/
def finds (r : Repository) (tree : ObjectId) (path : Text.Raw) : Except Defect Bool :=
  match path.characters with
  | .error d => .error d
  | .ok path => if segments path = [] then .ok false else r.leads tree (segments path)

/-- Whether a path is present in the commit that a revision leads to; a revision that leads nowhere
is reported. The path is not looked at before there is a commit. -/
def hasPath {σ : Type} (r : Repository) (revision : Option Text.Raw) (path : Text.Raw) :
    Query σ Bool :=
  match revisionText revision with
  | .error d => Query.defect d
  | .ok revision =>
    match r.treeOf? revision with
    | .error d => Query.defect d
    | .ok none => do
      Query.report ⟨.debug, Log.logger "locks.paths",
        Log.message "paths.unknown_ref" [("ref", revision)]⟩
      return false
    | .ok (some tree) =>
      match r.finds tree path with
      | .error d => Query.defect d
      | .ok present => return present

end Repository

end GitLfs.Git
