import GitLfs.Message.Locking
import GitLfs.OrderedMap

/-!
# The lock table

Locks by their identifier, in the order of their creation, and for each locked path the identifier
of its lock. `Consistent` says that the two tell the same; it is what fresh identifiers keep.
-/

namespace GitLfs

/-- The active locks and the index of their paths. -/
structure LockTable where
  locks : OrderedMap String Lock
  byPath : OrderedMap String String
  deriving DecidableEq, Repr, Inhabited

namespace LockTable

/-- No locks. -/
def empty : LockTable := ⟨∅, ∅⟩

/-- The active locks, in order. -/
def active (t : LockTable) : List Lock := t.locks.values

/-- The table with one lock more. -/
def add (t : LockTable) (l : Lock) : LockTable :=
  ⟨t.locks.insert l.id l, t.byPath.insert l.path l.id⟩

/-- The table without the lock with an identifier, its path still in the index. -/
def dropLock (t : LockTable) (id : String) : LockTable := { t with locks := t.locks.erase id }

/-- The table without a path in the index. -/
def dropPath (t : LockTable) (path : String) : LockTable := { t with byPath := t.byPath.erase path }

/-- The index maps a path to an identifier exactly when the lock with it is on that path. -/
def Consistent (t : LockTable) : Prop :=
  (∀ id l, t.locks.get? id = some l → l.id = id) ∧
    ∀ path id, t.byPath.get? path = some id ↔ ∃ l, t.locks.get? id = some l ∧ l.path = path

theorem consistent_empty : Consistent empty := by
  constructor
  · intro id l h; simp [empty, OrderedMap.get?, OrderedMap.entries_empty] at h
  · intro path id; simp [empty, OrderedMap.get?, OrderedMap.entries_empty]

end LockTable

end GitLfs
