import Mathlib.Data.List.Nodup
import GitLfs.Git.Revision

/-!
# What a revision leads to

A revision names an object, and behind annotated tags stands the object that they are about: `Behind`.
Tags are followed with as much fuel as there are objects, which is enough: `peel_eq_some_iff`. So the
tree that a revision is looked up in is that of the commit which it leads to (`treeOf?_eq_some_iff`).

`treeOf?_eq_error_iff` tells the three ways in which a revision ends the search: a ref that is consulted
for it starts too long a row of symbolic refs, it names nothing and is the beginning of the identifiers
of several commits, or it leads to an object that is no commit. Everything else that may be wrong with
it means that there is no tree.
-/

namespace GitLfs.Git.Repository

variable {r : Repository} {revision name : String} {o o' : Object} {d : Defect}

/-! ## Objects behind annotated tags -/

/-- An object stands behind tags that lead from one to the next, and is no tag itself. -/
inductive Behind (r : Repository) : Object → List ObjectId → Object → Prop
  | itself {o : Object} (untagged : ∀ target, o ≠ .tag target) : Behind r o [] o
  | tag {target : ObjectId} {next o : Object} {targets : List ObjectId}
      (found : r.object? target = some next) (more : Behind r next targets o) :
      Behind r (.tag target) (target :: targets) o

namespace Behind

variable {targets others : List ObjectId}

/-- From one object there is one way. -/
theorem unique (h : r.Behind o targets o') {o'' : Object} (h' : r.Behind o others o'') :
    targets = others ∧ o' = o'' := by
  induction h generalizing others with
  | itself untagged =>
    cases h' with
    | itself => exact ⟨rfl, rfl⟩
    | tag => exact absurd rfl (untagged _)
  | tag found more ih =>
    cases h' with
    | itself untagged => exact absurd rfl (untagged _)
    | tag found' more' =>
      obtain rfl := Option.some.inj (found.symm.trans found')
      obtain ⟨rfl, rfl⟩ := ih more'
      exact ⟨rfl, rfl⟩

/-- Behind any object on the way there is a shorter way to its end. -/
theorem exists_shorter (h : r.Behind o targets o') {target : ObjectId} (ht : target ∈ targets) :
    ∃ next rest, r.object? target = some next ∧ r.Behind next rest o' ∧
      rest.length < targets.length := by
  induction h with
  | itself => cases ht
  | @tag first next o rest found more ih =>
    rcases List.mem_cons.1 ht with rfl | ht
    · exact ⟨next, rest, found, more, Nat.lt_succ_self _⟩
    · obtain ⟨next', rest', hnext, hmore, hlength⟩ := ih ht
      exact ⟨next', rest', hnext, hmore, Nat.lt_succ_of_lt hlength⟩

/-- No tag is about what it has been passed on the way to. -/
theorem nodup (h : r.Behind o targets o') : targets.Nodup := by
  induction h with
  | itself => exact List.nodup_nil
  | @tag first next o rest found more ih =>
    refine List.nodup_cons.2 ⟨fun hfirst => ?_, ih⟩
    obtain ⟨next', rest', hnext, hmore, hlength⟩ := more.exists_shorter hfirst
    obtain rfl := Option.some.inj (found.symm.trans hnext)
    obtain ⟨rfl, -⟩ := more.unique hmore
    exact Nat.lt_irrefl _ hlength

theorem subset (h : r.Behind o targets o') : targets ⊆ r.objects.map Prod.fst := by
  induction h with
  | itself => exact List.nil_subset _
  | @tag first next o rest found more ih =>
    refine List.cons_subset.2 ⟨?_, ih⟩
    obtain ⟨⟨id, object⟩, hfind, -⟩ := Option.map_eq_some_iff.1 found
    obtain rfl : id = first := of_decide_eq_true (List.find?_some hfind :)
    exact List.mem_map_of_mem (List.mem_of_find?_eq_some hfind)

/-- There are no more tags on the way than objects. -/
theorem length_le (h : r.Behind o targets o') : targets.length ≤ r.objects.length := by
  have hle := h.nodup.length_le_of_subset h.subset
  rwa [List.length_map] at hle

theorem peel (h : r.Behind o targets o') {fuel : Nat} (hfuel : targets.length < fuel) :
    r.peel fuel o = some o' := by
  induction h generalizing fuel with
  | itself untagged =>
    obtain ⟨fuel, rfl⟩ := Nat.exists_eq_succ_of_ne_zero (Nat.ne_of_gt hfuel)
    unfold Repository.peel
    split
    · contradiction
    · exact absurd rfl (untagged _)
    · rfl
  | tag found more ih =>
    obtain ⟨fuel, rfl⟩ := Nat.exists_eq_succ_of_ne_zero (Nat.ne_zero_of_lt hfuel)
    rw [Repository.peel, found, Option.bind_some]
    exact ih (Nat.lt_of_succ_lt_succ hfuel)

end Behind

theorem behind_of_peel {fuel : Nat} (h : r.peel fuel o = some o') :
    ∃ targets, r.Behind o targets o' := by
  induction fuel generalizing o with
  | zero => cases h
  | succ fuel ih =>
    cases o with
    | tag target =>
      obtain ⟨next, hnext, hpeel⟩ := Option.bind_eq_some_iff.1 h
      obtain ⟨targets, hbehind⟩ := ih hpeel
      exact ⟨_, .tag hnext hbehind⟩
    | commit | tree | blob =>
      cases h
      exact ⟨[], .itself nofun⟩

/-- With as much fuel as there are objects, all tags are followed. -/
theorem peel_eq_some_iff :
    r.peel (r.objects.length + 1) o = some o' ↔ ∃ targets, r.Behind o targets o' :=
  ⟨behind_of_peel, fun ⟨_, h⟩ => h.peel (Nat.lt_succ_of_le h.length_le)⟩

/-! ## Refs that lead too far -/

/-- From a name on that many symbolic refs follow one another, and then there is one more ref. -/
def Deep (r : Repository) : Nat → String → Prop
  | 0, name => (r.ref? name).isSome
  | hops + 1, name => ∃ next, r.ref? name = some (.symbolic next) ∧ Deep r hops next

theorem follow_eq_error_iff {hops : Nat} :
    r.follow hops name = .error d ↔ d = .refTooDeep ∧ r.Deep hops name := by
  induction hops generalizing name with
  | zero =>
    unfold follow Deep
    by_cases hsome : (r.ref? name).isSome
    · simp [hsome, eq_comm]
    · simp [hsome]
  | succ hops ih =>
    unfold follow Deep
    cases hname : r.ref? name with
    | none => simp
    | some target =>
      cases target with
      | object id => simp
      | symbolic next => simp [ih]

theorem refObject?_eq_error_iff :
    r.refObject? name = .error d ↔
      d = .refTooDeep ∧ isFullName name = true ∧ r.Deep maxHops name := by
  unfold refObject?
  by_cases hfull : isFullName name = true
  · rw [if_pos hfull]
    simp only [hfull, true_and, ← follow_eq_error_iff]
    cases r.follow maxHops name with
    | error e => simp [bind, Except.bind]
    | ok found => cases found <;> exact ⟨nofun, nofun⟩
  · rw [if_neg hfull]
    simp [hfull]

/-- What comes of the names that a name may be short for: the first that there is counts. -/
def meant? (r : Repository) (name : String) : Except Defect (Option Object) :=
  match (candidates name).find? fun other => (r.ref? other).isSome with
  | some other => r.refObject? other
  | none => .ok none

/-- A revision is the name of a ref, an identifier, a short name or the beginning of an identifier;
what comes later in this row counts when what comes before it names nothing. -/
theorem named?_eq (r : Repository) (revision : String) :
    r.named? revision =
      match r.refObject? (refName revision), r.identified? revision, r.meant? (refName revision) with
      | .error d, _, _ => .error d
      | .ok (some o), _, _ => .ok (some o)
      | .ok none, some o, _ => .ok (some o)
      | .ok none, none, .error d => .error d
      | .ok none, none, .ok (some o) => .ok (some o)
      | .ok none, none, .ok none => r.abbreviated? revision := by
  unfold named? meant?
  dsimp only [bind, Except.bind, pure, Except.pure]
  cases r.refObject? (refName revision) with
  | error e => rfl
  | ok found =>
    cases found with
    | some o => rfl
    | none =>
      cases r.identified? revision with
      | some o => rfl
      | none =>
        cases (candidates (refName revision)).find? fun other => (r.ref? other).isSome with
        | none => rfl
        | some other =>
          dsimp only
          rcases r.refObject? other with e | (_ | o) <;> rfl

/-- A ref is consulted to find out what a revision names: the one with this name, or else the first
one that there is of those that the name may be short for. -/
inductive Consults (r : Repository) (revision : String) : String → Prop
  | named (full : isFullName (refName revision) = true) : Consults r revision (refName revision)
  | meant {other : String} (unnamed : r.refObject? (refName revision) = .ok none)
      (unidentified : r.identified? revision = none)
      (first : (candidates (refName revision)).find? (fun other => (r.ref? other).isSome) = some other)
      (full : isFullName other = true) : Consults r revision other

theorem meant?_eq_error_iff :
    r.meant? name = .error d ↔ ∃ other,
      (candidates name).find? (fun other => (r.ref? other).isSome) = some other ∧
        r.refObject? other = .error d := by
  unfold meant?
  cases (candidates name).find? fun other => (r.ref? other).isSome with
  | none => simp
  | some other => simp

/-! ## Beginnings of identifiers -/

/-- Several commits have identifiers that begin with a text, which is long enough to be taken for such a
beginning. -/
def Shared (r : Repository) (text : String) : Prop :=
  minAbbreviation ≤ text.length ∧ text.length < idLength ∧
    ∃ commit ∈ r.commitsAt text, ∃ other ∈ r.commitsAt text, other.1 ≠ commit.1

theorem abbreviated?_eq_error_iff :
    r.abbreviated? revision = .error d ↔ d = .ambiguousId ∧ r.Shared revision := by
  unfold abbreviated? Shared
  by_cases hlength : minAbbreviation ≤ revision.length ∧ revision.length < idLength
  · rw [if_pos hlength]
    simp only [hlength.1, hlength.2, true_and]
    cases r.commitsAt revision with
    | nil => simp
    | cons commit others =>
      obtain ⟨id, o⟩ := commit
      by_cases hall : others.all (·.1 = id) = true
      · simp only [hall, if_true, reduceCtorEq, false_iff, not_and]
        rintro - ⟨commit, hcommit, other, hother, hne⟩
        have heq : ∀ entry ∈ (id, o) :: others, entry.1 = id := by simpa using hall
        exact hne ((heq other hother).trans (heq commit hcommit).symm)
      · simp only [hall, Bool.false_eq_true, if_false, Except.error.injEq, eq_comm (a := d),
          iff_self_and]
        rintro -
        obtain ⟨other, hother, hne⟩ : ∃ entry ∈ others, entry.1 ≠ id := by simpa using hall
        exact ⟨(id, o), List.mem_cons_self, other, List.mem_cons_of_mem _ hother, hne⟩
  · rw [if_neg hlength]
    simp only [reduceCtorEq, false_iff, not_and]
    rintro - hmin hlt
    exact absurd ⟨hmin, hlt⟩ hlength

/-- A revision is the beginning of the identifiers of several commits, and names nothing else. -/
structure Ambiguous (r : Repository) (revision : String) : Prop where
  unnamed : r.refObject? (refName revision) = .ok none
  unidentified : r.identified? revision = none
  unmeant : r.meant? (refName revision) = .ok none
  shared : r.Shared revision

/-- A revision ends the search for its object when a ref that is consulted for it leads too far, or when
it is ambiguous. -/
theorem named?_eq_error_iff :
    r.named? revision = .error d ↔
      (d = .refTooDeep ∧ ∃ name, r.Consults revision name ∧ r.Deep maxHops name) ∨
        d = .ambiguousId ∧ r.Ambiguous revision := by
  constructor
  · intro h
    rw [named?_eq] at h
    split at h
    · next e _ _ hnamed =>
      cases h
      obtain ⟨rfl, hfull, hdeep⟩ := refObject?_eq_error_iff.1 hnamed
      exact .inl ⟨rfl, _, .named hfull, hdeep⟩
    · cases h
    · cases h
    · next e hunnamed hunidentified hmeant =>
      cases h
      obtain ⟨other, hfirst, herror⟩ := meant?_eq_error_iff.1 hmeant
      obtain ⟨rfl, hfull, hdeep⟩ := refObject?_eq_error_iff.1 herror
      exact .inl ⟨rfl, other, .meant hunnamed hunidentified hfirst hfull, hdeep⟩
    · cases h
    · next hunnamed hunidentified hunmeant =>
      obtain ⟨rfl, hshared⟩ := abbreviated?_eq_error_iff.1 h
      exact .inr ⟨rfl, hunnamed, hunidentified, hunmeant, hshared⟩
  · rintro (⟨rfl, name, hconsults, hdeep⟩ | ⟨rfl, hambiguous⟩)
    · rw [named?_eq]
      cases hconsults with
      | named full => rw [refObject?_eq_error_iff.2 ⟨rfl, full, hdeep⟩]
      | meant unnamed unidentified first full =>
        have herror := refObject?_eq_error_iff.2 ⟨rfl, full, hdeep⟩
        rw [unnamed, unidentified, meant?_eq_error_iff.2 ⟨_, first, herror⟩]
    · rw [named?_eq, hambiguous.unnamed, hambiguous.unidentified, hambiguous.unmeant]
      exact abbreviated?_eq_error_iff.2 ⟨rfl, hambiguous.shared⟩

/-! ## Trees of commits -/

/-- A revision leads to an object: to the one that it names, or to what stands behind it when that is
a tag. -/
def LeadsTo (r : Repository) (revision : String) (o : Object) : Prop :=
  ∃ named targets, r.named? revision = .ok (some named) ∧ r.Behind named targets o

theorem LeadsTo.unique (h : r.LeadsTo revision o) (h' : r.LeadsTo revision o') : o = o' := by
  obtain ⟨named, targets, hnamed, hbehind⟩ := h
  obtain ⟨named', targets', hnamed', hbehind'⟩ := h'
  obtain rfl : named = named' := Option.some.inj (Except.ok.inj (hnamed.symm.trans hnamed'))
  exact (hbehind.unique hbehind').2

theorem leadsTo_iff :
    r.LeadsTo revision o ↔ ∃ found, r.named? revision = .ok found ∧
      found.bind (r.peel (r.objects.length + 1)) = some o := by
  constructor
  · rintro ⟨named, targets, hnamed, hbehind⟩
    exact ⟨_, hnamed, peel_eq_some_iff.2 ⟨targets, hbehind⟩⟩
  · rintro ⟨found, hfound, hpeel⟩
    obtain ⟨named, rfl, hnamed⟩ := Option.bind_eq_some_iff.1 hpeel
    obtain ⟨targets, hbehind⟩ := peel_eq_some_iff.1 hnamed
    exact ⟨named, targets, hfound, hbehind⟩

/-- The search for a tree, by what a revision leads to. -/
theorem treeOf?_eq (r : Repository) (revision : String) :
    r.treeOf? revision =
      (r.named? revision).bind fun found =>
        match found.bind (r.peel (r.objects.length + 1)) with
        | none => .ok none
        | some (.commit tree) => .ok (some tree)
        | some o => .error (.notACommit o.kind) := rfl

/-- The tree that is found for a revision is that of the commit to which the revision leads. -/
theorem treeOf?_eq_some_iff {tree : ObjectId} :
    r.treeOf? revision = .ok (some tree) ↔ r.LeadsTo revision (.commit tree) := by
  rw [leadsTo_iff, treeOf?_eq]
  cases r.named? revision with
  | error e => simp [Except.bind]
  | ok found =>
    simp only [Except.bind, Except.ok.injEq, exists_eq_left']
    rcases found.bind (r.peel (r.objects.length + 1)) with _ | (_ | _ | _ | _) <;> simp

/-- The search for a tree ends without an answer when a ref that is consulted leads too far, when the
revision is ambiguous, or when it leads to an object that is no commit. -/
theorem treeOf?_eq_error_iff :
    r.treeOf? revision = .error d ↔
      ((d = .refTooDeep ∧ ∃ name, r.Consults revision name ∧ r.Deep maxHops name) ∨
        d = .ambiguousId ∧ r.Ambiguous revision) ∨
        ∃ o, r.LeadsTo revision o ∧ (∀ tree, o ≠ .commit tree) ∧ d = .notACommit o.kind := by
  rw [← named?_eq_error_iff]
  simp only [leadsTo_iff, treeOf?_eq]
  cases r.named? revision with
  | error e => simp [Except.bind]
  | ok found =>
    simp only [Except.bind, Except.ok.injEq, exists_eq_left', reduceCtorEq, false_or]
    rcases found.bind (r.peel (r.objects.length + 1)) with _ | (_ | _ | _ | _) <;> simp [eq_comm]

/-- There is no tree for a revision that leads nowhere, as long as no ref leads too far and the revision
is not ambiguous. -/
theorem treeOf?_eq_none_iff :
    r.treeOf? revision = .ok none ↔
      (∀ name, r.Consults revision name → ¬ r.Deep maxHops name) ∧ ¬ r.Ambiguous revision ∧
        ∀ o, ¬ r.LeadsTo revision o := by
  constructor
  · intro h
    have hfine : ∀ d, r.treeOf? revision ≠ .error d := fun d hd => by
      rw [h] at hd
      cases hd
    refine ⟨fun name hconsults hdeep => ?_, fun hambiguous => ?_, fun o hleads => ?_⟩
    · exact hfine _ (treeOf?_eq_error_iff.2 (.inl (.inl ⟨rfl, name, hconsults, hdeep⟩)))
    · exact hfine _ (treeOf?_eq_error_iff.2 (.inl (.inr ⟨rfl, hambiguous⟩)))
    · by_cases hcommit : ∃ tree, o = .commit tree
      · obtain ⟨tree, rfl⟩ := hcommit
        rw [treeOf?_eq_some_iff.2 hleads] at h
        cases h
      · exact hfine _ (treeOf?_eq_error_iff.2 (.inr ⟨o, hleads, not_exists.1 hcommit, rfl⟩))
  · rintro ⟨hshallow, hclear, hnowhere⟩
    cases htree : r.treeOf? revision with
    | ok found =>
      cases found with
      | none => rfl
      | some tree => exact absurd (treeOf?_eq_some_iff.1 htree) (hnowhere _)
    | error d =>
      obtain (⟨-, name, hconsults, hdeep⟩ | ⟨-, hambiguous⟩) | ⟨o, hleads, -⟩ :=
        treeOf?_eq_error_iff.1 htree
      · exact absurd hdeep (hshallow name hconsults)
      · exact absurd hambiguous hclear
      · exact absurd hleads (hnowhere o)

end GitLfs.Git.Repository
