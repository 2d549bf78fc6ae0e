import Mathlib.Data.Set.Finite.Basic
import GitLfs.Proofs.Git.Entry
import GitLfs.Proofs.Lock.Dealing

/-!
# Paths that are spelled in more than one way

A registry with a git repository looks for a path in it by its names, and for a lock by its text. So
the locks on one file are told apart by slashes that do not matter to the repository.
`place_locked_by_spelling` says what is left of the rule that a file has one lock: it holds for each
spelling of its path, in particular for the plain ones, and it holds no further, since a file can
always be locked once more under a spelling that no lock has.
-/

namespace GitLfs.Registry

variable {r : Registry} {s : RegistryState} {repository : Git.Repository} {ref : Option String}

/-- A registry with a git repository allows the paths that have a place in it. -/
theorem allowsPath_iff (hrepository : r.repository = some repository) {path : String} :
    r.AllowsPath path ref ↔ (repository.place? ref path).isSome := by
  unfold AllowsPath
  rw [hrepository]
  simp only [Option.mem_some_iff, forall_eq', Git.Repository.presence_eq_true_iff]

/-- There is always one more way to spell a path. -/
theorem exists_spelling (path : String) (locks : List Lock) :
    ∃ other, Git.segments other = Git.segments path ∧ ∀ l ∈ locks, l.path ≠ other := by
  have hinfinite : (Set.range (Git.slashed · path)).Infinite :=
    Set.infinite_range_of_injective (Git.slashed_injective path)
  obtain ⟨other, ⟨n, rfl⟩, hnot⟩ :=
    hinfinite.exists_notMem_finset (locks.map Lock.path).toFinset
  refine ⟨_, Git.segments_slashed n path, fun l hl he => hnot ?_⟩
  rw [List.mem_toFinset]
  exact List.mem_map.2 ⟨l, hl, he⟩

/-- What comes of it when someone with a name locks a path that the registry allows: the lock that has
the same text is in the way, or else the path is locked, whatever other locks there are. -/
theorem create_allowed (hs : r.Sound s) (hinj : Function.Injective r.newId)
    (hids : ∀ n, r.newId n ≠ "") (hclock : ∀ n, (r.now n).isSome) {path name : String}
    (hallowed : r.AllowsPath path ref) (hpath : path ≠ "") (hname : name ≠ "") :
    (∃ l ∈ s.table.active, l.path = path ∧ r.answer (.create path ref (some name)) s =
        (.error (.refusal (.lockConflict "already created lock" l)), s)) ∨
      ∃ made : Lock, (∀ l ∈ s.table.active, l.path ≠ path) ∧ made.path = path ∧
        made.ownerName = some name ∧
        (r.answer (.create path ref (some name)) s).1 = .ok (.created made) ∧
        (r.answer (.create path ref (some name)) s).2.table.active = s.table.active ++ [made] := by
  by_cases hfree : ∀ l ∈ s.table.active, l.path ≠ path
  · obtain ⟨time, hnow⟩ := Option.isSome_iff_exists.1 (hclock s.drawn)
    refine Or.inr ⟨r.drawnLock s path name time, hfree, rfl, rfl, ?_⟩
    rw [answer_create_free hs.consistent hname hallowed hfree hpath (hids _) hnow]
    exact ⟨rfl, LockTable.active_add (hs.newId_notMem_keys hinj)⟩
  · obtain ⟨l, hl, rfl⟩ : ∃ l ∈ s.table.active, l.path = path := by simpa using hfree
    exact Or.inl ⟨l, hl, rfl, answer_create_held hs.consistent hname hallowed hl⟩

/-- Whatever is done to a registry with a git repository, the locks on one file or directory of a
commit have paths of the same names. They are the same lock when their paths have the same text, or
have no slash too many. Someone with a name who locks the file under any spelling of its path is
refused if a lock has this text, and else gets one more lock on the same file. There is always a
spelling that no lock has. -/
theorem place_locked_by_spelling (hrepository : r.repository = some repository)
    (hinj : Function.Injective r.newId) (hids : ∀ n, r.newId n ≠ "")
    (hclock : ∀ n, (r.now n).isSome) (tasks : List Task) (ref : Option String) :
    let s := final r.answer .empty tasks
    ∀ l ∈ s.table.active, ∀ place, repository.place? ref l.path = some place →
      (∀ l' ∈ s.table.active, repository.place? ref l'.path = some place →
        Git.segments l'.path = Git.segments l.path ∧
          (l'.path = l.path ∨ Git.IsPlain l'.path ∧ Git.IsPlain l.path → l' = l)) ∧
      (∀ path name, Git.segments path = Git.segments l.path → name ≠ "" →
        repository.place? ref path = some place ∧
          ((∃ l' ∈ s.table.active, l'.path = path ∧ r.answer (.create path ref (some name)) s =
              (.error (.refusal (.lockConflict "already created lock" l')), s)) ∨
            ∃ made : Lock, (∀ l' ∈ s.table.active, l'.path ≠ path) ∧ made.path = path ∧
              made.ownerName = some name ∧
              (r.answer (.create path ref (some name)) s).1 = .ok (.created made) ∧
              (r.answer (.create path ref (some name)) s).2.table.active =
                s.table.active ++ [made])) ∧
      ∃ path, Git.segments path = Git.segments l.path ∧ ∀ l' ∈ s.table.active, l'.path ≠ path := by
  intro s l hl place hplace
  have hs : r.Sound s := (sound_history hinj (sound_empty r) tasks).2
  refine ⟨fun l' hl' hplace' => ?_, fun path name hsegments hname => ?_,
    exists_spelling l.path s.table.active⟩
  · have hsegments := (Git.Repository.place?_eq_iff hplace).1 hplace'
    refine ⟨hsegments, ?_⟩
    rintro (hpath | ⟨hplain', hplain⟩)
    · exact hs.consistent.eq_of_path hl' hl hpath
    · exact hs.consistent.eq_of_path hl' hl (Git.eq_of_segments_eq hplain' hplain hsegments)
  · have hplace' := (Git.Repository.place?_eq_iff hplace).2 hsegments
    have hallowed : r.AllowsPath path ref := by
      rw [allowsPath_iff hrepository, hplace']
      rfl
    have hpath : path ≠ "" := by
      rintro rfl
      rw [Git.Repository.place?_of_segments_eq_nil rfl] at hplace'
      cases hplace'
    exact ⟨hplace', create_allowed hs hinj hids hclock hallowed hpath hname⟩

/-- A repository with one picture in it. -/
def gallery : Git.Repository where
  objects := [("c", .commit "t"), ("t", .tree [⟨"art", false, "a"⟩]),
    ("a", .tree [⟨"hero.psd", false, "h"⟩]), ("h", .blob)]
  refs := [("refs/heads/main", .object "c")]
  refsInFiles := false

/-- A registry that knows this repository. -/
def curator : Registry := { sample with repository := some gallery }

/-- Two people who want to draw the picture. -/
def sketches : List Task :=
  [.create "art/hero.psd" (some "refs/heads/main") (some "ann"),
    .create "art/hero.psd" (some "refs/heads/main") (some "bob")]

/-- The second one gets it all the same. -/
theorem place_locked_by_spelling_sketches :
    curator.repository = some gallery ∧ Function.Injective curator.newId ∧
      (∀ n, curator.newId n ≠ "") ∧ (∀ n, (curator.now n).isSome) ∧
      ∃ l ∈ (final curator.answer .empty sketches).table.active, l.path = "art/hero.psd" ∧
        ∃ made, (curator.answer (.create "/art/hero.psd" (some "refs/heads/main") (some "bob"))
            (final curator.answer .empty sketches)).1 = .ok (.created made) ∧
          gallery.place? (some "refs/heads/main") made.path =
            gallery.place? (some "refs/heads/main") l.path := by
  have hinj : Function.Injective curator.newId := sample_newId_injective
  have hids : ∀ n, curator.newId n ≠ "" := sample_newId_ne
  have hclock : ∀ n, (curator.now n).isSome := fun _ => rfl
  have hactive : (final curator.answer .empty sketches).table.active =
      [⟨"i", "art/hero.psd", newYear, some ⟨"ann"⟩⟩] := by decide
  have hl : ⟨"i", "art/hero.psd", newYear, some ⟨"ann"⟩⟩ ∈
      (final curator.answer .empty sketches).table.active := by
    rw [hactive]
    exact List.mem_singleton_self _
  have hplace : gallery.place? (some "refs/heads/main") "art/hero.psd" =
      some [⟨"art", false, "a"⟩, ⟨"hero.psd", false, "h"⟩] := by decide
  refine ⟨rfl, hinj, hids, hclock, _, hl, rfl, ?_⟩
  obtain ⟨hsame, hanswer⟩ := (place_locked_by_spelling rfl hinj hids hclock sketches
    (some "refs/heads/main") _ hl _ hplace).2.1 "/art/hero.psd" "bob" (by decide) (by decide)
  rcases hanswer with ⟨l', hl', hpath, -⟩ | ⟨made, -, hpath, -, hmade, -⟩
  · rw [hactive, List.mem_singleton] at hl'
    subst hl'
    exact absurd hpath (by decide)
  · exact ⟨made, hmade, by rw [hpath, hsame]; exact hplace.symm⟩

/-- After that two people hold a lock on the picture. -/
theorem hero_locked_twice :
    let s := final curator.answer .empty
      (sketches ++ [.create "/art/hero.psd" (some "refs/heads/main") (some "bob")])
    Function.Injective curator.newId ∧
      ∃ l ∈ s.table.active, ∃ l' ∈ s.table.active, l ≠ l' ∧
        Git.IsPlain l.path ∧ ¬ Git.IsPlain l'.path ∧
          l.ownerName = some "ann" ∧ l'.ownerName = some "bob" ∧
          (gallery.place? (some "refs/heads/main") l.path).isSome ∧
          gallery.place? (some "refs/heads/main") l'.path =
            gallery.place? (some "refs/heads/main") l.path :=
  ⟨sample_newId_injective, by decide⟩

end GitLfs.Registry
