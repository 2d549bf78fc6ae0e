import GitLfs.Git.Object

/-!
# Revisions

A revision is the name of a ref, a short form of such a name, or the identifier of an object or its
beginning. It leads to a commit, directly or through annotated tags.
-/

namespace GitLfs.Git

/-- The number of characters of an identifier. -/
def idLength : Nat := 40

/-- The fewest characters of an identifier that are taken for it. -/
def minAbbreviation : Nat := 4

/-- How many symbolic refs, with the ref at their end, may follow one another. -/
def maxHops : Nat := 5

/-- The name of a ref has no slash in front. -/
def refName (text : String) : String := String.ofList (text.toList.dropWhile (· = '/'))

/-- A name under the start that names of its kind have, which it may have already. -/
def under (start name : String) : String :=
  if start.toList.isPrefixOf name.toList then name else start ++ name

/-- The names under which the ref that a short name means may stand, in the order of preference. -/
def candidates (name : String) : List String :=
  [name, "refs/" ++ name, under "refs/tags/" name, under "refs/heads/" name,
    "refs/remotes/" ++ name, "refs/remotes/" ++ name ++ "/HEAD"]

/-- The name is the name of a ref in full. -/
def isFullName (name : String) : Bool :=
  name = "HEAD" || "refs/".toList.isPrefixOf name.toList

namespace Repository

/-- Follows a ref through symbolic ones, of which `hops` are left. The result is missing when a ref
is. -/
def follow (r : Repository) : Nat → String → Except Defect (Option ObjectId)
  | 0, name => if (r.ref? name).isSome then .error .refTooDeep else .ok none
  | hops + 1, name =>
    match r.ref? name with
    | none => .ok none
    | some (.object id) => .ok (some id)
    | some (.symbolic next) => follow r hops next

/-- The object that a ref with a full name leads to. -/
def refObject? (r : Repository) (name : String) : Except Defect (Option Object) :=
  if isFullName name then do
    match ← r.follow maxHops name with
    | some id => return r.object? id
    | none => return none
  else .ok none

/-- The commits whose identifiers begin with a text. -/
def commitsAt (r : Repository) (text : String) : List (ObjectId × Object) :=
  r.objects.filter fun (id, object) =>
    object.kind = "commit" && text.toList.isPrefixOf id.toList

/-- The commit whose identifier begins with a text that is long enough and not a whole identifier.
There may be only one. -/
def abbreviated? (r : Repository) (text : String) : Except Defect (Option Object) :=
  if minAbbreviation ≤ text.length ∧ text.length < idLength then
    match r.commitsAt text with
    | [] => .ok none
    | (id, commit) :: others =>
      if others.all (·.1 = id) then .ok (some commit) else .error .ambiguousId
  else .ok none

/-- The object with an identifier that is given in full. -/
def identified? (r : Repository) (text : String) : Option Object :=
  if text.length = idLength then r.object? text else none

/-- The object that a revision names. Of the names that a short name may stand for, the first that
is present is the only one that is tried. -/
def named? (r : Repository) (revision : String) : Except Defect (Option Object) := do
  let name := refName revision
  match ← r.refObject? name with
  | some o => return some o
  | none =>
    match r.identified? revision with
    | some o => return some o
    | none =>
      let viaRef ← match (candidates name).find? fun other => (r.ref? other).isSome with
        | some other => r.refObject? other
        | none => .ok none
      match viaRef with
      | some o => return some o
      | none => r.abbreviated? revision

/-- The object behind annotated tags, of which at most `fuel` follow one another. -/
def peel (r : Repository) : Nat → Object → Option Object
  | 0, _ => none
  | fuel + 1, .tag target => (r.object? target).bind (peel r fuel)
  | _ + 1, o => some o

/-- The tree of the commit that a revision leads to. -/
def treeOf? (r : Repository) (revision : String) : Except Defect (Option ObjectId) := do
  match (← r.named? revision).bind (r.peel (r.objects.length + 1)) with
  | none => return none
  | some (.commit tree) => return some tree
  | some o => throw (.notACommit o.kind)

end Repository

end GitLfs.Git
