import GitLfs.Lock.Page

/-!
# What is on a page

When the server allows at least one lock on a page, a page holds the next few locks of a listing, and
names the first one that is left out. `page_append` says so for a cursor that stands between two
parts of a listing; `page_unknown` is about a cursor that stands nowhere.
-/

namespace GitLfs.Paging

variable {pageSize : Int} {locks front rest : List Lock} {cursor : Option String}

/-- The most locks on a page. -/
def room (pageSize limit : Int) : Nat := (sizeFor pageSize limit).toNat

theorem sizeFor_eq (h : 1 ≤ pageSize) (limit : Int) :
    sizeFor pageSize limit = room pageSize limit := by
  unfold room sizeFor
  split <;> omega

theorem room_pos (h : 1 ≤ pageSize) (limit : Int) : 1 ≤ room pageSize limit := by
  unfold room sizeFor
  split <;> omega

theorem boundIn_natCast (length bound : Nat) : boundIn length (bound : Int) = min bound length := by
  unfold boundIn
  rw [if_neg (by omega)]
  rfl

theorem boundIn_append (size : Nat) :
    boundIn (front ++ rest).length ((front.length + size : Nat) : Int) =
      front.length + min size rest.length := by
  rw [boundIn_natCast, List.length_append]
  omega

theorem slice_append (size : Nat) :
    slice (front ++ rest) (front.length : Int) ((front.length + size : Nat) : Int) =
      rest.take size := by
  unfold slice
  rw [boundIn_append, boundIn_natCast, List.take_length_add_append, List.length_append,
    Nat.min_eq_left (Nat.le_add_right _ _), List.drop_left, ← List.take_eq_take_min]

theorem sliceFrom_append (size : Nat) :
    sliceFrom (front ++ rest) ((front.length + size : Nat) : Int) = rest.drop size := by
  unfold sliceFrom
  rw [boundIn_append, List.drop_length_add_append]
  rcases Nat.le_total size rest.length with hle | hle
  · rw [Nat.min_eq_left hle]
  · rw [Nat.min_eq_right hle, List.drop_length, List.drop_eq_nil_of_le hle]

/-- A page starts where its cursor stands, and the next one starts where it ends. -/
theorem page_append (h : 1 ≤ pageSize) (limit : Int)
    (hstart : startOf (front ++ rest) cursor = .ok front.length) :
    page pageSize (front ++ rest) cursor limit =
      .ok ⟨rest.take (room pageSize limit),
        (rest.drop (room pageSize limit)).head?.map Lock.id⟩ := by
  have hstop : (front.length : Int) + sizeFor pageSize limit =
      ((front.length + room pageSize limit : Nat) : Int) := by
    rw [sizeFor_eq h, Int.natCast_add]
  unfold page
  rw [hstart]
  dsimp only
  rw [hstop, slice_append, sliceFrom_append]

/-- A cursor stands in front of the first lock that has it for an identifier. -/
theorem startOf_append {l : Lock} (hne : l.id ≠ "") (hfront : ∀ x ∈ front, x.id ≠ l.id) :
    startOf (front ++ l :: rest) (some l.id) = .ok front.length := by
  have hfind : (front ++ l :: rest).findIdx? (fun x => x.id = l.id) = some front.length := by
    rw [List.findIdx?_append, List.findIdx?_eq_none_iff.2 (by simpa using hfront)]
    simp [List.findIdx?_cons]
  unfold startOf
  dsimp only
  rw [if_neg hne, hfind]

/-- A cursor that is the identifier of no lock is refused. -/
theorem page_unknown {c : String} (hne : c ≠ "") (hnone : ∀ l ∈ locks, l.id ≠ c) (limit : Int) :
    page pageSize locks (some c) limit = .error (.validation ("Invalid cursor: " ++ c)) := by
  have hfind : locks.findIdx? (fun l => l.id = c) = none :=
    List.findIdx?_eq_none_iff.2 (by simpa using hnone)
  unfold page startOf
  dsimp only
  rw [if_neg hne, hfind]

end GitLfs.Paging
