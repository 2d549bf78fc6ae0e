import GitLfs.Proofs.Git.Presence
import GitLfs.Proofs.Text.Pieces

/-!
# The place that a path names

A path is present when its names lead somewhere. `trail` keeps what they lead through, entry by
entry, and `place?` is the trail of a path in the commit that a revision leads to: two paths are those
of one file or directory when they have the same place. `presence_eq_true_iff` says that the check of
a path looks for nothing else, and `place?_eq_iff` that the place depends on the names of a path alone,
not on the slashes between them.
-/

namespace GitLfs.Git

/-! ## Spellings of a path -/

/-- A path that has no slash too many: none at an end, and no two in a row. -/
def IsPlain (path : String) : Prop := [] ∉ Text.pieces '/' path.toList

instance (path : String) : Decidable (IsPlain path) :=
  inferInstanceAs (Decidable ([] ∉ Text.pieces '/' path.toList))

theorem segments_of_isPlain {path : String} (h : IsPlain path) :
    segments path = (Text.pieces '/' path.toList).map String.ofList := by
  have hkept : (Text.pieces '/' path.toList).filter (· ≠ []) = Text.pieces '/' path.toList := by
    refine List.filter_eq_self.2 fun piece hpiece => ?_
    have hne : piece ≠ [] := fun he => h (he ▸ hpiece)
    exact decide_eq_true hne
  unfold segments
  rw [hkept]

/-- Names have one plain spelling. -/
theorem eq_of_segments_eq {path other : String} (h : IsPlain path) (h' : IsPlain other)
    (hs : segments path = segments other) : path = other := by
  rw [segments_of_isPlain h, segments_of_isPlain h'] at hs
  have hpieces : Text.pieces '/' path.toList = Text.pieces '/' other.toList :=
    (List.map_inj_right fun _ _ he => String.ofList_injective he).1 hs
  have hlists : path.toList = other.toList := by
    rw [← Text.join_pieces '/' path.toList, hpieces, Text.join_pieces]
  exact String.toList_injective hlists

/-- A path with slashes in front of it. -/
def slashed : Nat → String → String
  | 0, path => path
  | n + 1, path => "/" ++ slashed n path

/-- Where a path is cut at a slash, its names are those of the two parts. -/
theorem segments_append_slash (front rest : String) :
    segments (front ++ "/" ++ rest) = segments front ++ segments rest := by
  have hcut : (front ++ "/" ++ rest).toList = front.toList ++ '/' :: rest.toList := by
    rw [String.toList_append, String.toList_append, List.append_assoc]
    rfl
  unfold segments
  rw [hcut, Text.pieces_append_cons, List.filter_append, List.map_append]

/-- One slash more in front changes no name. -/
theorem segments_slash (path : String) : segments ("/" ++ path) = segments path :=
  segments_append_slash "" path

theorem segments_slashed (n : Nat) (path : String) : segments (slashed n path) = segments path := by
  induction n with
  | zero => rfl
  | succ n ih => rw [slashed, segments_slash, ih]

theorem length_slashed (n : Nat) (path : String) : (slashed n path).length = n + path.length := by
  induction n with
  | zero => exact (Nat.zero_add _).symm
  | succ n ih =>
    have hslash : ("/" : String).length = 1 := rfl
    rw [slashed, String.length_append, ih, hslash]
    omega

theorem slashed_injective (path : String) : Function.Injective (slashed · path) := by
  intro m n h
  have hlength : (slashed m path).length = (slashed n path).length := congrArg String.length h
  rw [length_slashed, length_slashed] at hlength
  omega

namespace Repository

variable {r : Repository} {tree : ObjectId} {names : List String} {entries : List Entry}

/-- The entries that names lead through, where none is looked up below a link to another
repository. -/
def trail (r : Repository) (tree : ObjectId) : List String → Option (List Entry)
  | [] => some []
  | name :: rest =>
    match r.object? tree with
    | some (.tree entries) =>
      match entries.find? (·.name = name) with
      | none => none
      | some entry =>
        if rest ≠ [] ∧ entry.isSubmodule then none
        else (trail r entry.id rest).map (entry :: ·)
    | _ => none

/-- Names that are present have a trail, and others have none. -/
theorem leads_eq_true_iff : r.leads tree names = .ok true ↔ (r.trail tree names).isSome := by
  induction names generalizing tree with
  | nil => exact ⟨fun _ => rfl, fun _ => rfl⟩
  | cons name rest ih =>
    simp only [leads, trail]
    cases r.object? tree with
    | none => simp
    | some o =>
      cases o with
      | tree entries =>
        dsimp only
        cases entries.find? (·.name = name) with
        | none => simp
        | some entry =>
          dsimp only
          by_cases hbelow : rest ≠ [] ∧ entry.isSubmodule
          · simp [if_pos hbelow]
          · rw [if_neg hbelow, if_neg hbelow, Option.isSome_map]
            exact ih
      | commit tree => simp
      | tag target => simp
      | blob => simp

/-- The entries of a trail have the names that they were looked up by. -/
theorem names_of_trail (h : r.trail tree names = some entries) : entries.map Entry.name = names := by
  induction names generalizing tree entries with
  | nil =>
    cases h
    rfl
  | cons name rest ih =>
    simp only [trail] at h
    split at h
    · split at h
      · cases h
      · next entry hfind =>
        split at h
        · cases h
        · obtain ⟨below, hbelow, rfl⟩ := Option.map_eq_some_iff.1 h
          have hname : entry.name = name := of_decide_eq_true (List.find?_some hfind :)
          rw [List.map_cons, hname, ih hbelow]
    · cases h

/-- The place of a path in the commit that a revision leads to: the entries from the tree of the
commit down to the file or directory itself. -/
def place? (r : Repository) (revision : Option String) (path : String) : Option (List Entry) :=
  match r.treeOf? (revisionOr revision) with
  | .ok (some tree) => if segments path = [] then none else r.trail tree (segments path)
  | _ => none

variable {revision : Option String} {path other : String} {place : List Entry}

/-- A path is present when it has a place. -/
theorem presence_eq_true_iff :
    r.presence (revision.map .ofText) path = .ok true ↔ (r.place? revision path).isSome := by
  unfold presence place?
  rw [revisionText_ofText]
  dsimp only
  cases r.treeOf? (revisionOr revision) with
  | error d => simp
  | ok found =>
    cases found with
    | none => simp
    | some tree =>
      dsimp only
      rw [finds_ofText]
      by_cases hs : segments path = []
      · simp [hs]
      · simp only [if_neg hs]
        exact leads_eq_true_iff

/-- A path without names has no place. -/
theorem place?_of_segments_eq_nil (h : segments path = []) : r.place? revision path = none := by
  unfold place?
  split
  · rw [if_pos h]
  · rfl

/-- The names of a path are those of the entries on the way to its place. -/
theorem names_of_place (h : r.place? revision path = some place) :
    place.map Entry.name = segments path := by
  unfold place? at h
  split at h
  · split at h
    · cases h
    · exact names_of_trail h
  · cases h

/-- Paths with the same names have the same place. -/
theorem place?_congr (h : segments path = segments other) :
    r.place? revision path = r.place? revision other := by
  unfold place?
  rw [h]

/-- The paths to a place are the spellings of its names. -/
theorem place?_eq_iff (h : r.place? revision path = some place) :
    r.place? revision other = some place ↔ segments other = segments path := by
  constructor
  · intro h'
    rw [← names_of_place h', names_of_place h]
  · intro hs
    rw [place?_congr hs, h]

end Repository

end GitLfs.Git
