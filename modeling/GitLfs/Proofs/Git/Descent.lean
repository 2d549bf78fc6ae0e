import GitLfs.Git.Path

/-!
# The way down a tree

Names lead down from a tree to an entry when each of them is the name of an entry of the tree reached
so far: `Reaches`. Nothing is looked up below a link to another repository (`PassesLink`), even where
the identifier behind the link happens to be that of a tree. `leads_eq_error_iff`,
`leads_eq_ok_true_iff` and `leads_eq_ok_false_iff` say by these two what the walk comes to.
-/

namespace GitLfs.Git.Repository

/-- The entry with a name in a tree, when the repository holds that tree. -/
def entry? (r : Repository) (tree : ObjectId) (name : String) : Option Entry :=
  match r.object? tree with
  | some (.tree entries) => entries.find? (·.name = name)
  | _ => none

/-- Names lead from a tree to an entry. All but the last lead to trees that the repository holds. -/
inductive Reaches (r : Repository) : ObjectId → List String → Entry → Prop
  | last {tree : ObjectId} {name : String} {target : Entry}
      (found : r.entry? tree name = some target) : Reaches r tree [name] target
  | step {tree : ObjectId} {name : String} {names : List String} {entry target : Entry}
      (found : r.entry? tree name = some entry) (more : Reaches r entry.id names target) :
      Reaches r tree (name :: names) target

/-- Some of the names, not all of them, lead to a link to another repository. -/
def PassesLink (r : Repository) (tree : ObjectId) (names : List String) : Prop :=
  ∃ front rest link, names = front ++ rest ∧ rest ≠ [] ∧ r.Reaches tree front link ∧
    link.isSubmodule = true

variable {r : Repository} {tree : ObjectId} {name : String} {names front rest : List String}
  {entry target : Entry} {d : Defect}

theorem Reaches.ne_nil (h : r.Reaches tree names target) : names ≠ [] := by
  cases h <;> exact List.cons_ne_nil _ _

theorem reaches_cons_iff :
    r.Reaches tree (name :: names) target ↔ ∃ entry, r.entry? tree name = some entry ∧
      (names = [] ∧ entry = target ∨ r.Reaches entry.id names target) := by
  constructor
  · intro h
    cases h with
    | last found => exact ⟨_, found, .inl ⟨rfl, rfl⟩⟩
    | step found more => exact ⟨_, found, .inr more⟩
  · rintro ⟨entry, found, ⟨rfl, rfl⟩ | more⟩
    · exact .last found
    · exact .step found more

/-- What is reached, was reached by way of all that stands on the way. -/
theorem Reaches.of_append (h : r.Reaches tree (front ++ rest) target) (hfront : front ≠ []) :
    ∃ between, r.Reaches tree front between := by
  induction front generalizing tree with
  | nil => exact absurd rfl hfront
  | cons name front ih =>
    obtain ⟨entry, found, hrest⟩ := reaches_cons_iff.1 h
    by_cases hlast : front = []
    · subst hlast
      exact ⟨entry, .last found⟩
    · rcases hrest with ⟨hnil, -⟩ | more
      · exact absurd (List.append_eq_nil_iff.1 hnil).1 hlast
      · obtain ⟨between, hbetween⟩ := ih more hlast
        exact ⟨between, .step found hbetween⟩

theorem not_passesLink_nil : ¬ r.PassesLink tree [] := by
  rintro ⟨front, rest, link, hnames, hrest, -⟩
  exact hrest (List.append_eq_nil_iff.1 hnames.symm).2

/-- Names pass a link when they pass their first entry and it is one, or pass one below. -/
theorem passesLink_cons_iff :
    r.PassesLink tree (name :: names) ↔ ∃ entry, r.entry? tree name = some entry ∧
      (names ≠ [] ∧ entry.isSubmodule = true ∨ r.PassesLink entry.id names) := by
  constructor
  · rintro ⟨front, rest, link, hnames, hrest, hlink, hsubmodule⟩
    cases hlink with
    | last found =>
      obtain ⟨rfl, rfl⟩ := List.cons.inj hnames
      exact ⟨link, found, .inl ⟨hrest, hsubmodule⟩⟩
    | step found more =>
      obtain ⟨rfl, rfl⟩ := List.cons.inj hnames
      exact ⟨_, found, .inr ⟨_, rest, link, rfl, hrest, more, hsubmodule⟩⟩
  · rintro ⟨entry, found, ⟨hnames, hsubmodule⟩ | ⟨front, rest, link, rfl, hrest, hlink, hsubmodule⟩⟩
    · exact ⟨[name], names, entry, rfl, hnames, .last found, hsubmodule⟩
    · exact ⟨name :: front, rest, link, rfl, hrest, .step found hlink, hsubmodule⟩

/-- Whoever passes no link on the whole way passes none on the first part of it. -/
theorem PassesLink.append (h : r.PassesLink tree front) (rest : List String) :
    r.PassesLink tree (front ++ rest) := by
  obtain ⟨before, after, link, rfl, hafter, hlink⟩ := h
  exact ⟨before, after ++ rest, link, List.append_assoc _ _ _,
    fun hnil => hafter (List.append_eq_nil_iff.1 hnil).1, hlink⟩

theorem leads_cons (r : Repository) (tree : ObjectId) (name : String) (names : List String) :
    r.leads tree (name :: names) =
      match r.entry? tree name with
      | none => .ok false
      | some entry =>
        if names ≠ [] ∧ entry.isSubmodule then .error .belowSubmodule else r.leads entry.id names := by
  unfold entry?
  rw [leads]
  rcases r.object? tree with _ | (_ | _ | _ | _) <;> rfl

/-- The walk ends without an answer below a link. -/
theorem leads_eq_error_iff :
    r.leads tree names = .error d ↔ d = .belowSubmodule ∧ r.PassesLink tree names := by
  induction names generalizing tree with
  | nil => exact ⟨nofun, fun h => absurd h.2 not_passesLink_nil⟩
  | cons name names ih =>
    rw [leads_cons, passesLink_cons_iff]
    cases r.entry? tree name with
    | none => simp
    | some entry =>
      simp only [Option.some.injEq, exists_eq_left']
      by_cases hbelow : names ≠ [] ∧ entry.isSubmodule = true
      · simp [hbelow, eq_comm]
      · rw [if_neg hbelow, ih, or_iff_right hbelow]

/-- The walk finds what the names lead to, unless they pass a link. -/
theorem leads_eq_ok_true_iff :
    r.leads tree names = .ok true ↔
      (names = [] ∨ ∃ target, r.Reaches tree names target) ∧ ¬ r.PassesLink tree names := by
  induction names generalizing tree with
  | nil => exact ⟨fun _ => ⟨.inl rfl, not_passesLink_nil⟩, fun _ => rfl⟩
  | cons name names ih =>
    rw [leads_cons, passesLink_cons_iff]
    simp only [reaches_cons_iff]
    cases r.entry? tree name with
    | none => simp
    | some entry =>
      simp only [Option.some.injEq, exists_eq_left', reduceCtorEq, false_or]
      by_cases hbelow : names ≠ [] ∧ entry.isSubmodule = true
      · simp [hbelow]
      · rw [if_neg hbelow, ih, or_iff_right hbelow, exists_or]
        simp

/-- The walk finds nothing when the names lead nowhere, unless they pass a link. -/
theorem leads_eq_ok_false_iff :
    r.leads tree names = .ok false ↔
      names ≠ [] ∧ (∀ target, ¬ r.Reaches tree names target) ∧ ¬ r.PassesLink tree names := by
  constructor
  · intro h
    have hlinks : ¬ r.PassesLink tree names := fun hpasses => by
      rw [leads_eq_error_iff.2 ⟨rfl, hpasses⟩] at h
      cases h
    have hnot : ¬ (names = [] ∨ ∃ target, r.Reaches tree names target) := fun hfound => by
      rw [leads_eq_ok_true_iff.2 ⟨hfound, hlinks⟩] at h
      cases h
    rw [not_or, not_exists] at hnot
    exact ⟨hnot.1, hnot.2, hlinks⟩
  · rintro ⟨hne, hnowhere, hlinks⟩
    cases h : r.leads tree names with
    | error d => exact absurd (leads_eq_error_iff.1 h).2 hlinks
    | ok present =>
      cases present with
      | false => rfl
      | true =>
        rcases (leads_eq_ok_true_iff.1 h).1 with hnil | ⟨target, hreaches⟩
        · exact absurd hnil hne
        · exact absurd hreaches (hnowhere target)

end GitLfs.Git.Repository
