import GitLfs.Proofs.Effect
import GitLfs.Proofs.Git.Descent
import GitLfs.Proofs.Git.Revision

/-!
# Whether a path is present

The check of a path is a collaborator's: it may report an event. `perform_hasPath` says that it comes
down to `presence`, a decision that depends on nothing but the repository, the revision and the path,
and that it changes nothing; `presence_eq_iff` says how the decision goes. A path is `Present` or
`Absent`, or some kind of `Obstacle` ends the check without an answer; `presence_eq_ok_true_iff`,
`presence_eq_ok_false_iff` and `presence_eq_error_iff` say that the decision is right about this.
-/

namespace GitLfs

open Text (Raw)

namespace Git.Repository

theorem revisionText_ofText (revision : Option String) :
    revisionText (revision.map .ofText) = .ok (revisionOr revision) := by
  cases revision <;> rfl

theorem revisionText_eq_error_iff {revision : Option Raw} {d : Defect} :
    revisionText revision = .error d ↔ d = .unencodable ∧ (revision.getD "").plain? = none := by
  rw [← Raw.characters_eq_error_iff]
  unfold revisionText
  cases (revision.getD "").characters <;> simp [Except.map]

variable {r : Repository} {revision : Option Raw} {path : Raw} {d : Defect}

/-- Whether a path is present in the commit that a revision leads to. -/
def presence (r : Repository) (revision : Option Raw) (path : Raw) : Except Defect Bool :=
  match revisionText revision with
  | .error d => .error d
  | .ok text =>
    match r.treeOf? text with
    | .error d => .error d
    | .ok none => .ok false
    | .ok (some tree) => r.finds tree path

/-- How the check goes: it ends with the revision, with the search for a commit, or in the tree of the
commit that is found. -/
inductive Course (r : Repository) (revision : Option Raw) (path : Raw) : Except Defect Bool → Prop
  | revision {d : Defect} (asked : revisionText revision = .error d) : Course r revision path (.error d)
  | search {text : String} {d : Defect} (asked : revisionText revision = .ok text)
      (search : r.treeOf? text = .error d) : Course r revision path (.error d)
  | nowhere {text : String} (asked : revisionText revision = .ok text)
      (search : r.treeOf? text = .ok none) : Course r revision path (.ok false)
  | tree {text : String} {tree : ObjectId} {outcome : Except Defect Bool}
      (asked : revisionText revision = .ok text) (search : r.treeOf? text = .ok (some tree))
      (finds : r.finds tree path = outcome) : Course r revision path outcome

theorem presence_eq_iff {outcome : Except Defect Bool} :
    r.presence revision path = outcome ↔ r.Course revision path outcome := by
  unfold presence
  constructor
  · rintro rfl
    split
    · next hasked => exact .revision hasked
    · next text hasked =>
      split
      · next hsearch => exact .search hasked hsearch
      · next hsearch => exact .nowhere hasked hsearch
      · next hsearch => exact .tree hasked hsearch rfl
  · intro h
    cases h with
    | revision asked => rw [asked]
    | search asked search | nowhere asked search =>
      rw [asked]
      dsimp only
      rw [search]
    | tree asked search finds =>
      rw [asked]
      dsimp only
      rw [search]
      exact finds

/-- What comes of the check, and that only its events may be seen afterwards. -/
theorem perform_hasPath {σ : Type} (r : Repository) (revision : Option Raw) (path : Raw)
    (scene : Scene σ) :
    ∃ events, perform (r.hasPath revision path) scene =
      ((r.presence revision path).mapError .defect, ⟨scene.state, events⟩) := by
  unfold hasPath presence
  cases revisionText revision with
  | error d => exact ⟨scene.events, rfl⟩
  | ok text =>
    dsimp only
    rcases r.treeOf? text with d | (_ | tree)
    · exact ⟨scene.events, rfl⟩
    · exact ⟨_, rfl⟩
    · dsimp only
      cases r.finds tree path with
      | error d => exact ⟨scene.events, rfl⟩
      | ok present => exact ⟨scene.events, rfl⟩

/-! ## In a tree -/

section

variable {tree : ObjectId} {names : String}

theorem finds_ofText (r : Repository) (tree : ObjectId) (names : String) :
    r.finds tree names = if segments names = [] then .ok false else r.leads tree (segments names) :=
  rfl

theorem finds_eq_ok_true_iff :
    r.finds tree names = .ok true ↔
      (∃ target, r.Reaches tree (segments names) target) ∧ ¬ r.PassesLink tree (segments names) := by
  rw [finds_ofText]
  by_cases hs : segments names = []
  · rw [if_pos hs, hs]
    exact ⟨nofun, fun ⟨⟨target, hreaches⟩, _⟩ => absurd rfl hreaches.ne_nil⟩
  · rw [if_neg hs, leads_eq_ok_true_iff, or_iff_right hs]

theorem finds_eq_ok_false_iff :
    r.finds tree names = .ok false ↔
      (∀ target, ¬ r.Reaches tree (segments names) target) ∧
        ¬ r.PassesLink tree (segments names) := by
  rw [finds_ofText]
  by_cases hs : segments names = []
  · rw [if_pos hs, hs]
    exact iff_of_true rfl ⟨fun target hreaches => hreaches.ne_nil rfl, not_passesLink_nil⟩
  · rw [if_neg hs, leads_eq_ok_false_iff]
    exact and_iff_right hs

theorem finds_eq_error_iff :
    r.finds tree names = .error d ↔ d = .belowSubmodule ∧ r.PassesLink tree (segments names) := by
  rw [finds_ofText]
  by_cases hs : segments names = []
  · rw [if_pos hs, hs]
    exact ⟨nofun, fun ⟨_, hpasses⟩ => absurd hpasses not_passesLink_nil⟩
  · rw [if_neg hs, leads_eq_error_iff]

/-- A path without bytes is looked for nowhere. -/
theorem finds_of_plain?_eq_none (h : path.plain? = none) : r.finds tree path = .error .unencodable := by
  unfold finds
  rw [Raw.characters_eq_error_iff.2 ⟨rfl, h⟩]

/-- A path has bytes or none. -/
theorem exists_ofText_or (path : Raw) : (∃ names : String, path = names) ∨ path.plain? = none := by
  cases h : path.plain? with
  | none => exact .inr rfl
  | some names => exact .inl ⟨names, Raw.plain?_eq_some_iff.1 h⟩

/-- A path that is looked for has bytes. -/
theorem exists_ofText_of_finds {present : Bool} (h : r.finds tree path = .ok present) :
    ∃ names : String, path = names := by
  refine (exists_ofText_or path).resolve_right fun hplain => ?_
  rw [finds_of_plain?_eq_none hplain] at h
  cases h

end

/-! ## What is found -/

/-- The revision leads to a commit, and from its tree the names of the path lead to an entry without
passing a link to another repository. -/
def Present (r : Repository) (revision : Option Raw) (path : Raw) : Prop :=
  ∃ text names tree target, revisionText revision = .ok text ∧ path = .ofText names ∧
    r.LeadsTo text (.commit tree) ∧ r.Reaches tree (segments names) target ∧
      ¬ r.PassesLink tree (segments names)

theorem presence_eq_ok_true_iff : r.presence revision path = .ok true ↔ r.Present revision path := by
  rw [presence_eq_iff]
  constructor
  · intro h
    cases h with
    | tree asked search finds =>
      obtain ⟨names, rfl⟩ := exists_ofText_of_finds finds
      obtain ⟨⟨target, hreaches⟩, hlinks⟩ := finds_eq_ok_true_iff.1 finds
      exact ⟨_, names, _, target, asked, rfl, treeOf?_eq_some_iff.1 search, hreaches, hlinks⟩
  · rintro ⟨text, names, tree, target, htext, rfl, hleads, hreaches, hlinks⟩
    exact .tree htext (treeOf?_eq_some_iff.2 hleads)
      (finds_eq_ok_true_iff.2 ⟨⟨target, hreaches⟩, hlinks⟩)

/-- The revision leads nowhere, or in the tree of its commit the names of the path lead nowhere: one of
them is missing, or follows one that is not that of a tree in the repository. -/
inductive Absent (r : Repository) (revision : Option Raw) (path : Raw) : Prop
  | unresolved {text : String} (asked : revisionText revision = .ok text)
      (shallow : ∀ name, r.Consults text name → ¬ r.Deep maxHops name)
      (clear : ¬ r.Ambiguous text) (nowhere : ∀ o, ¬ r.LeadsTo text o)
  | missing {text names : String} {tree : ObjectId} (asked : revisionText revision = .ok text)
      (spelled : path = .ofText names) (leads : r.LeadsTo text (.commit tree))
      (links : ¬ r.PassesLink tree (segments names))
      (nowhere : ∀ target, ¬ r.Reaches tree (segments names) target)

theorem presence_eq_ok_false_iff : r.presence revision path = .ok false ↔ r.Absent revision path := by
  rw [presence_eq_iff]
  constructor
  · intro h
    cases h with
    | nowhere asked search =>
      obtain ⟨hshallow, hclear, hnowhere⟩ := treeOf?_eq_none_iff.1 search
      exact .unresolved asked hshallow hclear hnowhere
    | tree asked search finds =>
      obtain ⟨names, rfl⟩ := exists_ofText_of_finds finds
      obtain ⟨hnowhere, hlinks⟩ := finds_eq_ok_false_iff.1 finds
      exact .missing asked rfl (treeOf?_eq_some_iff.1 search) hlinks hnowhere
  · intro h
    cases h with
    | unresolved asked shallow clear nowhere =>
      exact .nowhere asked (treeOf?_eq_none_iff.2 ⟨shallow, clear, nowhere⟩)
    | missing asked spelled leads links nowhere =>
      rw [spelled]
      exact .tree asked (treeOf?_eq_some_iff.2 leads) (finds_eq_ok_false_iff.2 ⟨nowhere, links⟩)

/-! ## What the check can end at -/

/-- Why the check of a path ends without an answer. -/
inductive Obstacle (r : Repository) (revision : Option Raw) (path : Raw) : Defect → Prop
  /-- The revision has no bytes. -/
  | revisionWithoutBytes (h : (revision.getD "").plain? = none) : Obstacle r revision path .unencodable
  /-- The revision leads to a commit, and the path has no bytes. -/
  | pathWithoutBytes {text : String} {tree : ObjectId} (asked : revisionText revision = .ok text)
      (leads : r.LeadsTo text (.commit tree)) (h : path.plain? = none) :
      Obstacle r revision path .unencodable
  /-- A ref that is consulted starts too long a row of symbolic refs. -/
  | tooDeep {text name : String} (asked : revisionText revision = .ok text)
      (consulted : r.Consults text name) (deep : r.Deep maxHops name) :
      Obstacle r revision path .refTooDeep
  /-- The revision is the beginning of the identifiers of several commits. -/
  | ambiguous {text : String} (asked : revisionText revision = .ok text) (h : r.Ambiguous text) :
      Obstacle r revision path .ambiguousId
  /-- The revision leads to an object that is no commit. -/
  | notACommit {text : String} {o : Object} (asked : revisionText revision = .ok text)
      (leads : r.LeadsTo text o) (other : ∀ tree, o ≠ .commit tree) :
      Obstacle r revision path (.notACommit o.kind)
  /-- The path goes on below a link to another repository. -/
  | belowSubmodule {text names : String} {tree : ObjectId} (asked : revisionText revision = .ok text)
      (spelled : path = .ofText names) (leads : r.LeadsTo text (.commit tree))
      (passes : r.PassesLink tree (segments names)) : Obstacle r revision path .belowSubmodule

theorem presence_eq_error_iff : r.presence revision path = .error d ↔ r.Obstacle revision path d := by
  rw [presence_eq_iff]
  constructor
  · intro h
    cases h with
    | revision asked =>
      obtain ⟨rfl, hplain⟩ := revisionText_eq_error_iff.1 asked
      exact .revisionWithoutBytes hplain
    | search asked search =>
      obtain (⟨rfl, name, hconsults, hdeep⟩ | ⟨rfl, hambiguous⟩) | ⟨o, hleads, hother, rfl⟩ :=
        treeOf?_eq_error_iff.1 search
      · exact .tooDeep asked hconsults hdeep
      · exact .ambiguous asked hambiguous
      · exact .notACommit asked hleads hother
    | tree asked search finds =>
      have hleads := treeOf?_eq_some_iff.1 search
      obtain ⟨names, rfl⟩ | hplain := exists_ofText_or path
      · obtain ⟨rfl, hpasses⟩ := finds_eq_error_iff.1 finds
        exact .belowSubmodule asked rfl hleads hpasses
      · rw [finds_of_plain?_eq_none hplain] at finds
        cases finds
        exact .pathWithoutBytes asked hleads hplain
  · intro h
    cases h with
    | revisionWithoutBytes hplain => exact .revision (revisionText_eq_error_iff.2 ⟨rfl, hplain⟩)
    | pathWithoutBytes asked leads hplain =>
      exact .tree asked (treeOf?_eq_some_iff.2 leads) (finds_of_plain?_eq_none hplain)
    | tooDeep asked consulted deep =>
      exact .search asked (treeOf?_eq_error_iff.2 (.inl (.inl ⟨rfl, _, consulted, deep⟩)))
    | ambiguous asked hambiguous =>
      exact .search asked (treeOf?_eq_error_iff.2 (.inl (.inr ⟨rfl, hambiguous⟩)))
    | notACommit asked leads other =>
      exact .search asked (treeOf?_eq_error_iff.2 (.inr ⟨_, leads, other, rfl⟩))
    | belowSubmodule asked spelled leads passes =>
      rw [spelled]
      exact .tree asked (treeOf?_eq_some_iff.2 leads) (finds_eq_error_iff.2 ⟨rfl, passes⟩)

/-- The check of a path that has bytes, at a revision that has, can fail in four ways only. -/
theorem presence_error {revision : Option String} {path : String}
    (h : r.presence (revision.map .ofText) path = .error d) :
    d = .refTooDeep ∨ d = .ambiguousId ∨ d = .belowSubmodule ∨ ∃ kind, d = .notACommit kind := by
  cases presence_eq_error_iff.1 h with
  | revisionWithoutBytes hplain => cases revision <;> cases hplain
  | pathWithoutBytes asked leads hplain => cases hplain
  | tooDeep => exact .inl rfl
  | ambiguous => exact .inr (.inl rfl)
  | notACommit => exact .inr (.inr (.inr ⟨_, rfl⟩))
  | belowSubmodule => exact .inr (.inr (.inl rfl))

/-! ## What is told -/

/-- Whoever asks whether a path is present is told this, and nothing else changes. -/
def Tells (r : Repository) (revision : Option Raw) (path : Raw)
    (outcome : Except Failure Bool) : Prop :=
  ∀ (σ : Type) (scene : Scene σ), ∃ events,
    perform (r.hasPath revision path) scene = (outcome, ⟨scene.state, events⟩)

theorem tells_iff {outcome : Except Failure Bool} :
    r.Tells revision path outcome ↔ (r.presence revision path).mapError .defect = outcome := by
  constructor
  · intro h
    obtain ⟨events, he⟩ := h Unit ⟨(), []⟩
    obtain ⟨events', hp⟩ := r.perform_hasPath revision path (⟨(), []⟩ : Scene Unit)
    exact (Prod.mk.inj (hp.symm.trans he)).1
  · rintro rfl σ scene
    exact r.perform_hasPath revision path scene

theorem tells_ok_iff {present : Bool} :
    r.Tells revision path (.ok present) ↔ r.presence revision path = .ok present := by
  rw [tells_iff]
  cases r.presence revision path <;> simp [Except.mapError]

theorem tells_error_iff {e : Failure} :
    r.Tells revision path (.error e) ↔ ∃ d, e = .defect d ∧ r.Obstacle revision path d := by
  simp only [tells_iff, ← presence_eq_error_iff]
  cases r.presence revision path <;> simp [Except.mapError, eq_comm]

end Git.Repository

end GitLfs
