import GitLfs.Proofs.Lock.Dealing

/-!
# Identifiers that are issued again

A registry does not look at the identifiers that it draws. When it draws that of an active lock, the lock
that it makes takes the place of the active one, and the path of that one is left behind in the index:
it is `Stale`. Nobody locks a stale path again. `stale_final_iff` says that a path goes stale in this way
and in no other, and `creation_disturbs` how much of what there was is left when a lock is made.
-/

namespace GitLfs

namespace LockTable

variable {t : LockTable} {path id : String}

/-- The index holds a path on which there is no lock. -/
def Stale (t : LockTable) (path id : String) : Prop :=
  t.byPath.get? path = some id ∧ ∀ l ∈ t.active, l.path ≠ path

/-- A path that the index holds for an identifier without a lock is stale. -/
theorem Indexed.stale_of_gone (h : t.Indexed) (hindex : t.byPath.get? path = some id)
    (hgone : ∀ l ∈ t.active, l.id ≠ id) : t.Stale path id := by
  refine ⟨hindex, ?_⟩
  rintro l hl rfl
  exact hgone l hl (Option.some.inj ((h.byPath_eq hl).symm.trans hindex))

end LockTable

namespace Registry

variable {r : Registry} {s : RegistryState} {t t' : LockTable} {outcome : Except Failure Reply}
  {path id : String} {ref user : Option String}

/-! ## Paths that go stale -/

/-- A path that is stale stays so. -/
theorem TableEffect.stale (h : TableEffect t outcome t') (ht : t.Indexed) (hs : t.Stale path id) :
    t'.Stale path id := by
  obtain ⟨hindex, hnone⟩ := hs
  cases h with
  | @made l id_ne free =>
    have hne : path ≠ l.path := by
      rintro rfl
      rw [free] at hindex
      cases hindex
    refine ⟨?_, fun x hx => ?_⟩
    · simp only [LockTable.add, OrderedMap.get?_insert, if_neg hne, hindex]
    · rcases ht.mem_active_add.1 hx with rfl | ⟨hx, -⟩
      · exact hne.symm
      · exact hnone x hx
  | @released l held =>
    have hne : path ≠ l.path := (hnone l (OrderedMap.mem_values_of_get? held)).symm
    refine ⟨?_, fun x hx => hnone x (ht.mem_active_remove.1 hx).1⟩
    simp only [LockTable.remove, LockTable.dropPath, LockTable.dropLock, OrderedMap.get?_erase,
      if_neg hne, hindex]
  | shown => exact ⟨hindex, hnone⟩
  | failed => exact ⟨hindex, hnone⟩

/-- A path that becomes stale is that of a lock which has given way to one with its identifier. -/
theorem TableEffect.supplanted (h : TableEffect t outcome t') (ht : t.Indexed)
    (hs : t'.Stale path id) :
    t.Stale path id ∨ ∃ made lost, outcome = .ok (.created made) ∧ lost ∈ t.active ∧
      lost.id = made.id ∧ lost.path = path ∧ lost.id = id := by
  obtain ⟨hindex, hnone⟩ := hs
  by_cases hbefore : ∀ l ∈ t.active, l.path ≠ path
  · left
    refine ⟨?_, hbefore⟩
    cases h with
    | @made l id_ne free =>
      have hne : path ≠ l.path := (hnone l (ht.mem_active_add.2 (.inl rfl))).symm
      simpa only [LockTable.add, OrderedMap.get?_insert, if_neg hne] using hindex
    | @released l held =>
      have hne : path ≠ l.path := (hbefore l (OrderedMap.mem_values_of_get? held)).symm
      simpa only [LockTable.remove, LockTable.dropPath, LockTable.dropLock, OrderedMap.get?_erase,
        if_neg hne] using hindex
    | shown => exact hindex
    | failed => exact hindex
  · obtain ⟨lost, hlost, rfl⟩ : ∃ lost ∈ t.active, lost.path = path := by simpa using hbefore
    cases h with
    | @made l id_ne free =>
      have hpath : lost.path ≠ l.path := (hnone l (ht.mem_active_add.2 (.inl rfl))).symm
      have hid : lost.id = l.id := by
        by_contra hne
        exact hnone lost (ht.mem_active_add.2 (.inr ⟨hlost, hne⟩)) rfl
      simp only [LockTable.add, OrderedMap.get?_insert, if_neg hpath, ht.byPath_eq hlost] at hindex
      exact .inr ⟨l, lost, rfl, hlost, hid, rfl, Option.some.inj hindex⟩
    | @released l held =>
      exfalso
      by_cases hid : lost.id = l.id
      · -- it is the lock that was released, and its path with it
        have hl := OrderedMap.mem_values_of_get? held
        obtain rfl := ht.eq_of_id hlost hl hid
        simp only [LockTable.remove, LockTable.dropPath, LockTable.dropLock, OrderedMap.get?_erase,
          if_true] at hindex
        cases hindex
      · exact hnone lost (ht.mem_active_remove.2 ⟨hlost, hid⟩) rfl
    | shown => exact absurd rfl (hnone lost hlost)
    | failed => exact absurd rfl (hnone lost hlost)

/-- A lock that gives way to another leaves its path stale. -/
theorem TableEffect.stale_of_supplanted {made lost : Lock} (h : TableEffect t (.ok (.created made)) t')
    (ht : t.Indexed) (hlost : lost ∈ t.active) (hid : lost.id = made.id) :
    t'.Stale lost.path lost.id := by
  cases h with
  | made id_ne free =>
    have hindex := ht.byPath_eq hlost
    have hne : lost.path ≠ made.path := by
      intro he
      rw [he, free] at hindex
      cases hindex
    refine ⟨?_, fun x hx he => ?_⟩
    · simp only [LockTable.add, OrderedMap.get?_insert, if_neg hne, hindex]
    · rcases ht.mem_active_add.1 hx with rfl | ⟨hx, hx_id⟩
      · exact hne he.symm
      · exact hx_id (ht.eq_of_path hx hlost he ▸ hid)

/-- The dealing made a lock that took the place of another one. -/
def Supplants (t : Dealing) (lost : Lock) : Prop :=
  lost ∈ t.before.table.active ∧ ∃ made, made? t = some made ∧ lost.id = made.id

theorem stale_answer_iff (h : Orderly s) (task : Task) :
    (r.answer task s).2.table.Stale path id ↔ s.table.Stale path id ∨
      ∃ lost, Supplants (turn r.answer s task) lost ∧ lost.path = path ∧ lost.id = id := by
  have heffect := tableEffect_answer r h.indexed task
  constructor
  · intro hs
    obtain hstale | ⟨made, lost, hmade, hlost, hid, hpath, hsame⟩ := heffect.supplanted h.indexed hs
    · exact .inl hstale
    · refine .inr ⟨lost, ⟨hlost, made, ?_, hid⟩, hpath, hsame⟩
      simp only [made?, turn, hmade]
  · rintro (hstale | ⟨lost, ⟨hlost, made, hmade, hid⟩, rfl, rfl⟩)
    · exact heffect.stale h.indexed hstale
    · have houtcome : (r.answer task s).1 = .ok (.created made) := by
        unfold made? turn at hmade
        dsimp only at hmade
        split at hmade
        · next houtcome =>
          cases hmade
          exact houtcome
        · cases hmade
      rw [houtcome] at heffect
      exact heffect.stale_of_supplanted h.indexed hlost hid

/-- By induction on the tasks: a path is stale in the end when it was so at the start, or when some
dealing has made a lock with the identifier of the one that was on the path. -/
theorem stale_final_iff (h : Orderly s) (tasks : List Task) :
    (final r.answer s tasks).table.Stale path id ↔ s.table.Stale path id ∨
      ∃ t ∈ history r.answer s tasks, ∃ lost, Supplants t lost ∧ lost.path = path ∧ lost.id = id := by
  induction tasks generalizing s with
  | nil => simp [final, history]
  | cons task tasks ih =>
    rw [final, ih (h.answer r task), stale_answer_iff h]
    simp only [history, List.mem_cons, exists_eq_or_imp, or_assoc]

/-! ## Locks that are made -/

/-- A lock that is added on a free path is the only one with its identifier or its path. -/
theorem eq_of_mem_add {l x : Lock} (ht : t.Indexed) (free : t.byPath.get? l.path = none)
    (hx : x ∈ (t.add l).active) (hsame : x.id = l.id ∨ x.path = l.path) : x = l := by
  rcases ht.mem_active_add.1 hx with rfl | ⟨hx, hid⟩
  · rfl
  · rcases hsame with hsame | hsame
    · exact absurd hsame hid
    · rw [← hsame, ht.byPath_eq hx] at free
      cases free

/-- Locks with other identifiers stay where they are; one with the same is replaced. -/
theorem active_add_eq {l : Lock} (ht : t.Indexed) :
    (t.add l).active =
      if ∃ x ∈ t.active, x.id = l.id then t.active.map fun x => if x.id = l.id then l else x
      else t.active ++ [l] := by
  split
  · next htaken => exact ht.active_add htaken
  · next hnew => exact LockTable.active_add fun hkey => hnew (ht.mem_keys_iff.1 hkey)

theorem mem_add_iff_of_mem {l x : Lock} (ht : t.Indexed) (free : t.byPath.get? l.path = none)
    (hx : x ∈ t.active) : x ∈ (t.add l).active ↔ x.id ≠ l.id := by
  have hne : x ≠ l := by
    rintro rfl
    rw [ht.byPath_eq hx] at free
    cases free
  rw [ht.mem_active_add]
  simp only [hne, hx, false_or, true_and]

/-! ## Where the index is broken -/

/-- Only a task to lock a path can find that the index is broken. -/
theorem brokenIndex_iff (h : s.table.Indexed) (task : Task) :
    (r.answer task s).1 = .error (.defect .brokenIndex) ↔
      ∃ path ref name id, task = .create path ref (some name) ∧ name ≠ "" ∧ r.AllowsPath path ref ∧
        s.table.Stale path id ∧ ∀ l ∈ s.table.active, l.id ≠ id := by
  constructor
  · intro hbroken
    cases task with
    | create path ref user =>
      have heffect := r.createEffect_answer s path ref user
      rw [hbroken] at heffect
      generalize (r.answer (.create path ref user) s).2 = after at heffect
      cases heffect with
      | turnedAway named verdict => exact absurd verdict (r.verdict_ne_brokenIndex path ref)
      | undrawn named allowed free bad ne => exact absurd rfl ne
      | broken named allowed index gone =>
        have hgone := h.get?_eq_none_iff.1 gone
        exact ⟨path, ref, _, _, rfl, named, allowed, h.stale_of_gone index hgone, hgone⟩
    | delete id ref user force =>
      rw [answer_delete h] at hbroken
      split at hbroken
      · cases hbroken
      · split at hbroken <;> cases hbroken
    | list path id cursor limit ref =>
      rw [answer_list] at hbroken
      cases hpage : Paging.page r.pageSize _ cursor limit <;> rw [hpage] at hbroken <;> cases hbroken
    | listToVerify ref user cursor limit =>
      rw [answer_listToVerify] at hbroken
      cases hpage : Paging.page r.pageSize _ cursor limit <;> rw [hpage] at hbroken <;> cases hbroken
  · rintro ⟨path, ref, name, id, rfl, hname, hallowed, ⟨hindex, -⟩, hgone⟩
    rw [answer_create_indexed hname hallowed hindex, h.get?_eq_none_iff.2 hgone]

/-- Whatever a registry draws for identifiers and whatever has been done to it, look at a task to lock a
path. If it fails, the table is as it was. If it succeeds, its lock is on the path, belongs to the user,
and is the only one with its identifier or its path. The locks that were there before stay as they were
and where they were, but for one with the identifier of the new lock: the new lock takes its place.

A path is stale just when the lock on it has given way to another lock at some time. Whoever locks a stale
path is shown the lock that has the identifier now, which is on another path, and fails over a broken
index when there is none. Nothing else fails over a broken index. -/
theorem creation_disturbs (r : Registry) (tasks : List Task) :
    let s := final r.answer .empty tasks
    (∀ path ref user,
      let outcome := r.answer (.create path ref user) s
      (∀ e, outcome.1 = .error e → outcome.2.table = s.table) ∧
      ∀ reply, outcome.1 = .ok reply → ∃ made, reply = .created made ∧ made.path = path ∧
        made.ownerName = user ∧ made ∈ outcome.2.table.active ∧
        (∀ l ∈ outcome.2.table.active, l.id = made.id ∨ l.path = made.path → l = made) ∧
        (∀ l ∈ s.table.active, l ∈ outcome.2.table.active ↔ l.id ≠ made.id) ∧
        outcome.2.table.active =
          if ∃ l ∈ s.table.active, l.id = made.id then
            s.table.active.map fun l => if l.id = made.id then made else l
          else s.table.active ++ [made]) ∧
    (∀ path id, s.table.Stale path id ↔ ∃ t ∈ history r.answer .empty tasks, ∃ lost,
      Supplants t lost ∧ lost.path = path ∧ lost.id = id) ∧
    (∀ path ref name id, s.table.Stale path id → name ≠ "" → r.AllowsPath path ref →
      ∀ l ∈ s.table.active, l.id = id → l.path ≠ path ∧ r.answer (.create path ref (some name)) s =
        (.error (.refusal (.lockConflict "already created lock" l)), s)) ∧
    ∀ task, (r.answer task s).1 = .error (.defect .brokenIndex) ↔
      ∃ path ref name id, task = .create path ref (some name) ∧ name ≠ "" ∧ r.AllowsPath path ref ∧
        s.table.Stale path id ∧ ∀ l ∈ s.table.active, l.id ≠ id := by
  intro s
  have hs : Orderly s := orderly_final r tasks
  refine ⟨fun path ref user => ⟨fun e he => ?_, fun reply hreply => ?_⟩, fun path id => ?_,
    fun path ref name id hstale hname hallowed l hl hid => ?_, brokenIndex_iff hs.indexed⟩
  · have heffect := tableEffect_answer r hs.indexed (.create path ref user)
    rw [he] at heffect
    generalize (r.answer (.create path ref user) s).2.table = after at heffect ⊢
    cases heffect with
    | failed => rfl
  · have heffect := r.createEffect_answer s path ref user
    rw [hreply] at heffect
    generalize (r.answer (.create path ref user) s).2 = after at heffect ⊢
    cases heffect with
    | created named allowed free path_ne id_ne clock =>
      exact ⟨_, rfl, rfl, rfl, hs.indexed.mem_active_add.2 (.inl rfl),
        fun l hl hsame => eq_of_mem_add hs.indexed free hl hsame,
        fun l hl => mem_add_iff_of_mem hs.indexed free hl, active_add_eq hs.indexed⟩
  · have hempty : ¬ (RegistryState.empty).table.Stale path id := fun hstale => nomatch hstale.1
    rw [stale_final_iff orderly_empty, or_iff_right hempty]
  · refine ⟨hstale.2 l hl, ?_⟩
    rw [answer_create_indexed hname hallowed hstale.1, ← hid, hs.indexed.mem_active_iff.1 hl]

/-- A registry that draws one identifier only. -/
def repeater : Registry := { sample with newId := fun _ => "i" }

/-- Ann locks a path. -/
def annFirst : List Task := [.create "a" none (some "ann")]

/-- The lock that Bob gets on another path takes the place of hers. -/
theorem creation_disturbs_repeater :
    let s := final repeater.answer .empty annFirst
    let outcome := repeater.answer (.create "b" none (some "bob")) s
    ∃ made, outcome.1 = .ok (.created made) ∧ made ∈ outcome.2.table.active ∧
      ∀ l ∈ s.table.active, l.path = "a" ∧ l ∉ outcome.2.table.active := by
  intro s outcome
  have hreply : outcome.1 = .ok (.created ⟨"i", "b", newYear, some ⟨"bob"⟩⟩) := by decide
  have hann : ∀ l ∈ s.table.active, l.path = "a" ∧ l.id = "i" := by decide
  obtain ⟨made, hmade, -, -, hactive, -, hkept, -⟩ :=
    ((creation_disturbs repeater annFirst).1 "b" none (some "bob")).2 _ hreply
  cases hmade
  refine ⟨_, hreply, hactive, fun l hl => ⟨(hann l hl).1, fun hl' => ?_⟩⟩
  exact (hkept l hl).1 hl' (hann l hl).2

/-- Ann's lock is gone without having been released. When Bob has released his, she cannot have it again:
the index is broken. -/
theorem ann_locked_out :
    let before := final repeater.answer .empty annFirst
    let after := final repeater.answer .empty (annFirst ++ [.create "b" none (some "bob")])
    let later := final repeater.answer .empty
      (annFirst ++ [.create "b" none (some "bob"), .delete "i" none (some "bob") false])
    (∃ l ∈ before.table.active, l.ownerName = some "ann" ∧ l ∉ after.table.active) ∧
      (repeater.answer (.create "b" none (some "bob")) before).1.isOk ∧
      (repeater.answer (.create "a" none (some "ann")) later).1 = .error (.defect .brokenIndex) := by
  decide

end Registry

end GitLfs
