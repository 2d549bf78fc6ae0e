import Mathlib.Logic.Relation
import GitLfs.Proofs.Git.Entry

/-!
# The check of a path is exact

Where a revision leads to a commit and no link to another repository stands on the way, the check
finds a path just when its names lead somewhere: `present_exactly`. What it answers depends on the
names alone, so slashes too many do not matter to it, and with a path all directories above it are
present.
-/

namespace GitLfs.Git

/-- The second path has one slash more than the first: in front, at the end, or next to a slash. -/
inductive SlashAdded : String → String → Prop
  | leading (path : String) : SlashAdded path ("/" ++ path)
  | trailing (path : String) : SlashAdded path (path ++ "/")
  | repeated (front rest : String) : SlashAdded (front ++ "/" ++ rest) (front ++ "//" ++ rest)

theorem segments_trailing (path : String) : segments (path ++ "/") = segments path := by
  have hsplit := segments_append_slash path ""
  rwa [String.append_empty, show segments "" = [] from rfl, List.append_nil] at hsplit

theorem SlashAdded.segments_eq {path other : String} (h : SlashAdded path other) :
    segments path = segments other := by
  cases h with
  | leading => exact (segments_slash path).symm
  | trailing => exact (segments_trailing path).symm
  | repeated front rest =>
    have hdouble : "//" = "/" ++ "/" := rfl
    rw [hdouble, ← String.append_assoc, segments_append_slash, segments_append_slash (front ++ "/"),
      segments_trailing]

/-- However many slashes are added and taken away, the names stay. -/
theorem segments_eq_of_slashes {path other : String} (h : Relation.EqvGen SlashAdded path other) :
    segments path = segments other := by
  induction h with
  | rel path other h => exact h.segments_eq
  | refl => rfl
  | symm path other _ ih => exact ih.symm
  | trans path between other _ _ ih ih' => exact ih.trans ih'

namespace Repository

variable {r : Repository} {revision : Option String} {path other front rest : String}
  {tree : ObjectId}

theorem presence_congr (h : segments path = segments other) :
    r.presence (revision.map .ofText) path = r.presence (revision.map .ofText) other := by
  have hfinds : ∀ tree, r.finds tree path = r.finds tree other := fun tree => by
    rw [finds_ofText, finds_ofText, h]
  unfold presence
  simp only [hfinds]

/-- Where the revision and the path have bytes, they are what is looked up. -/
theorem present_ofText_iff :
    r.Present (revision.map .ofText) path ↔
      ∃ tree target, r.LeadsTo (revisionOr revision) (.commit tree) ∧
        r.Reaches tree (segments path) target ∧ ¬ r.PassesLink tree (segments path) := by
  constructor
  · rintro ⟨text, names, tree, target, htext, hpath, hfound⟩
    rw [revisionText_ofText] at htext
    cases htext
    cases hpath
    exact ⟨tree, target, hfound⟩
  · rintro ⟨tree, target, hfound⟩
    exact ⟨_, path, tree, target, revisionText_ofText revision, rfl, hfound⟩

/-- In a commit in which a path is present, the directories above it are. -/
theorem Present.of_append (h : r.Present (revision.map .ofText) ↑(front ++ "/" ++ rest))
    (hfront : segments front ≠ []) : r.Present (revision.map .ofText) front := by
  obtain ⟨tree, target, hleads, hreaches, hpasses⟩ := present_ofText_iff.1 h
  rw [segments_append_slash] at hreaches hpasses
  obtain ⟨between, hbetween⟩ := hreaches.of_append hfront
  exact present_ofText_iff.2 ⟨tree, between, hleads, hbetween, fun h => hpasses (h.append _)⟩

/-- In the tree of a known commit, a path is present when its names lead to an entry. -/
theorem present_iff_reaches (hcommit : r.LeadsTo (revisionOr revision) (.commit tree))
    (hlinks : ¬ r.PassesLink tree (segments path)) :
    r.Present (revision.map .ofText) path ↔ ∃ target, r.Reaches tree (segments path) target := by
  rw [present_ofText_iff]
  constructor
  · rintro ⟨tree', target, hleads, hreaches, -⟩
    obtain rfl : tree' = tree := Object.commit.inj (hleads.unique hcommit)
    exact ⟨target, hreaches⟩
  · rintro ⟨target, hreaches⟩
    exact ⟨tree, target, hcommit, hreaches, hlinks⟩

/-- Where a known commit is looked into and no link is passed, nothing ends the check. -/
theorem not_obstacle {d : Defect} (hcommit : r.LeadsTo (revisionOr revision) (.commit tree))
    (hlinks : ¬ r.PassesLink tree (segments path)) :
    ¬ r.Obstacle (revision.map .ofText) path d := by
  have hasked : ∀ {text}, revisionText (revision.map .ofText) = .ok text →
      text = revisionOr revision := fun h =>
    Except.ok.inj (h.symm.trans (revisionText_ofText revision))
  -- the commit has been found, so nothing ended the search for it
  have hsearched : ∀ d, r.named? (revisionOr revision) ≠ .error d := fun d hd => by
    obtain ⟨named, -, hnamed, -⟩ := hcommit
    rw [hnamed] at hd
    cases hd
  intro h
  cases h with
  | revisionWithoutBytes h => cases revision <;> cases h
  | pathWithoutBytes asked leads h => cases h
  | tooDeep asked consulted deep =>
    obtain rfl := hasked asked
    exact hsearched _ (named?_eq_error_iff.2 (.inl ⟨rfl, _, consulted, deep⟩))
  | ambiguous asked h =>
    obtain rfl := hasked asked
    exact hsearched _ (named?_eq_error_iff.2 (.inr ⟨rfl, h⟩))
  | notACommit asked leads other =>
    obtain rfl := hasked asked
    exact other tree (leads.unique hcommit)
  | belowSubmodule asked spelled leads passes =>
    obtain rfl := hasked asked
    cases spelled
    obtain rfl := Object.commit.inj (leads.unique hcommit)
    exact hlinks passes

/-- A path is looked for in the commit that a revision leads to, and no link to another repository
stands on the way before its last name. Then the check answers, and the path is present just when it
has a name and each of its names is one of the tree reached so far. The answer is the same when slashes
are added in front, at the end or next to others, and when they are taken away. A path that is present
is so together with the directories above it. -/
theorem present_exactly (hcommit : r.LeadsTo (revisionOr revision) (.commit tree))
    (hlinks : ¬ r.PassesLink tree (segments path)) :
    let asked := revision.map Text.Raw.ofText
    (∃ present, r.Tells asked path (.ok present) ∧
      (present = true ↔ segments path ≠ [] ∧ ∃ target, r.Reaches tree (segments path) target)) ∧
    (∀ other : String, Relation.EqvGen SlashAdded path other →
      ∀ outcome, r.Tells asked other outcome ↔ r.Tells asked path outcome) ∧
    ∀ front rest : String, path = front ++ "/" ++ rest → segments front ≠ [] →
      r.Tells asked path (.ok true) → r.Tells asked front (.ok true) := by
  intro asked
  refine ⟨?_, fun other hslashes outcome => ?_, ?_⟩
  · cases hpresence : r.presence asked path with
    | error d => exact absurd (presence_eq_error_iff.1 hpresence) (not_obstacle hcommit hlinks)
    | ok present =>
      refine ⟨present, tells_ok_iff.2 hpresence, ?_⟩
      constructor
      · rintro rfl
        have hfound := presence_eq_ok_true_iff.1 hpresence
        obtain ⟨target, hreaches⟩ := (present_iff_reaches hcommit hlinks).1 hfound
        exact ⟨hreaches.ne_nil, target, hreaches⟩
      · rintro ⟨-, hreaches⟩
        have hfound := (present_iff_reaches hcommit hlinks).2 hreaches
        exact Except.ok.inj (hpresence.symm.trans (presence_eq_ok_true_iff.2 hfound))
  · rw [tells_iff, tells_iff, presence_congr (segments_eq_of_slashes hslashes)]
  · rintro front rest rfl hfront hpresent
    have hfound := presence_eq_ok_true_iff.1 (tells_ok_iff.1 hpresent)
    rw [tells_ok_iff, presence_eq_ok_true_iff]
    exact hfound.of_append hfront

/-- A repository with documents, a link to another repository, a tag of a tree, and a row of symbolic
refs. -/
def annex : Repository where
  objects := [("c", .commit "t"), ("t", .tree [⟨"docs", false, "d"⟩, ⟨"lib", true, "l"⟩]),
    ("d", .tree [⟨"plan.md", false, "p"⟩]), ("p", .blob), ("v", .tag "d")]
  refs := [("HEAD", .symbolic "refs/heads/main"), ("refs/heads/main", .object "c"),
    ("refs/tags/docs", .object "v"), ("refs/a", .symbolic "refs/b"), ("refs/b", .symbolic "refs/c"),
    ("refs/c", .symbolic "refs/d"), ("refs/d", .symbolic "refs/e"), ("refs/e", .symbolic "HEAD")]
  refsInFiles := false

/-- A document is present in it, with slashes too many and without, and so is its directory. -/
theorem present_exactly_annex :
    (∃ tree, annex.LeadsTo (revisionOr none) (.commit tree) ∧
      ¬ annex.PassesLink tree (segments "docs//plan.md")) ∧
    annex.Tells none "docs//plan.md" (.ok true) ∧ annex.Tells none "docs/plan.md" (.ok true) ∧
      annex.Tells none "docs" (.ok true) := by
  have hcommit : annex.LeadsTo (revisionOr none) (.commit "t") := treeOf?_eq_some_iff.1 (by decide)
  have hlinks : ¬ annex.PassesLink "t" (segments "docs//plan.md") := by
    have hwalk : annex.leads "t" (segments "docs//plan.md") = .ok true := by decide
    exact (leads_eq_ok_true_iff.1 hwalk).2
  have hdocs : annex.entry? "t" "docs" = some ⟨"docs", false, "d"⟩ := rfl
  have hreaches : annex.Reaches "t" (segments "docs//plan.md") ⟨"plan.md", false, "p"⟩ :=
    .step hdocs (.last rfl)
  obtain ⟨⟨present, htells, hpresent⟩, hslashes, hfront⟩ := present_exactly hcommit hlinks
  obtain rfl := hpresent.2 ⟨by decide, _, hreaches⟩
  have hadded : SlashAdded "docs/plan.md" "docs//plan.md" := .repeated "docs" "plan.md"
  exact ⟨⟨_, hcommit, hlinks⟩, htells, (hslashes _ (.symm _ _ (.rel _ _ hadded)) _).2 htells,
    hfront "docs" "/plan.md" rfl (by decide) htells⟩

end Repository

end GitLfs.Git
