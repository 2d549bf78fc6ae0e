import GitLfs.Failure
import GitLfs.Message.Locking

/-!
# Pages of locks

A listing is cut into pages. A cursor is the identifier of the first lock of a page; the next page
starts where the last one ended.
-/

namespace GitLfs.Paging

/-- The index that a bound stands for in a list of a length: below zero it counts from the end, and
it never leaves the list. -/
def boundIn (length : Nat) (bound : Int) : Nat :=
  if bound < 0 then (bound + length).toNat else min bound.toNat length

/-- The items from one bound up to, but not at, another. -/
def slice {α : Type} (xs : List α) (start stop : Int) : List α :=
  (xs.take (boundIn xs.length stop)).drop (boundIn xs.length start)

/-- The items from a bound on. -/
def sliceFrom {α : Type} (xs : List α) (start : Int) : List α :=
  xs.drop (boundIn xs.length start)

/-- Where the page of a cursor starts. No cursor, or an empty one, is the start of the listing. -/
def startOf (locks : List Lock) (cursor : Option String) : Except Refusal Nat :=
  match cursor with
  | none => .ok 0
  | some c =>
    if c = "" then .ok 0
    else match locks.findIdx? (·.id = c) with
      | some i => .ok i
      | none => .error (.validation ("Invalid cursor: " ++ c))

/-- The number of locks on a page: what the server allows, or less if the client asks for less. -/
def sizeFor (pageSize limit : Int) : Int :=
  if limit ≤ 0 then pageSize else min limit pageSize

/-- The page of a listing at a cursor. -/
def page (pageSize : Int) (locks : List Lock) (cursor : Option String) (limit : Int) :
    Except Refusal LockPage :=
  match startOf locks cursor with
  | .error e => .error e
  | .ok start =>
    let stop := start + sizeFor pageSize limit
    .ok ⟨slice locks start stop, ((sliceFrom locks stop).head?).map Lock.id⟩

end GitLfs.Paging
