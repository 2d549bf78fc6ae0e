import GitLfs.Proofs.Lock.Dealing

/-!
# The table as the balance of what was done

The history of a lock registry tells which locks were made and which were released. `outstanding`
reads off it the locks that were made and not released later. `active_final` says that the table
holds the locks that it held at the start and that nobody released, and then the outstanding ones:
the table is never anything but the balance of its history. `refines_ledger` puts that together with
what else there is to say about a registry that starts without locks.
-/

namespace GitLfs.Registry

variable {r : Registry} {s : RegistryState}

/-- The locks that were released. -/
def releasedIn (dealings : List Dealing) : List Lock := dealings.filterMap released?

/-- The locks that were made, in order. -/
def madeIn (dealings : List Dealing) : List Lock := dealings.filterMap made?

/-- The locks that were made and not released later, in the order in which they were made. -/
def outstanding : List Dealing → List Lock
  | [] => []
  | t :: later => ((made? t).filter (· ∉ releasedIn later)).toList ++ outstanding later

theorem releasedIn_cons (t : Dealing) (later : List Dealing) :
    releasedIn (t :: later) = (released? t).toList ++ releasedIn later := by
  unfold releasedIn
  cases h : released? t <;> simp [h]

theorem madeIn_cons (t : Dealing) (later : List Dealing) :
    madeIn (t :: later) = (made? t).toList ++ madeIn later := by
  unfold madeIn
  cases h : made? t <;> simp [h]

theorem outstanding_sublist (dealings : List Dealing) :
    (outstanding dealings).Sublist (madeIn dealings) := by
  induction dealings with
  | nil => exact List.Sublist.refl _
  | cons t later ih =>
    rw [madeIn_cons]
    refine List.Sublist.append ?_ ih
    cases made? t with
    | none => exact List.Sublist.refl _
    | some l =>
      by_cases hl : l ∈ releasedIn later <;> simp [hl]

/-- The table holds what it held and nobody released, and then what was made and not released. -/
theorem active_final {tasks : List Task} (h : s.table.Consistent)
    (hf : ∀ t ∈ history r.answer s tasks, r.Fresh t) :
    (final r.answer s tasks).table.active =
      s.table.active.filter (· ∉ releasedIn (history r.answer s tasks)) ++
        outstanding (history r.answer s tasks) := by
  induction tasks generalizing s with
  | nil => simp [final, history, releasedIn, outstanding]
  | cons task tasks ih =>
    have hd : r.Does (turn r.answer s task) := does_turn h task
    have hfresh := hf _ List.mem_cons_self
    have hc : (r.answer task s).2.table.Consistent := hd.consistent h hfresh
    have hnext : (r.answer task s).2.table.active = _ := hd.active_eq h hfresh
    have hih := ih hc fun t ht => hf t (List.mem_cons_of_mem _ ht)
    simp only [final, history, outstanding, releasedIn_cons]
    rw [hih, hnext, List.filter_append, List.filter_filter, List.append_assoc]
    congr 1
    · refine List.filter_congr fun l _ => ?_
      simp [not_or, Bool.and_comm]
    · rw [Option.toList_filter]

/-! ## Registries that never issue an identifier twice -/

/-- An active lock stays active while nothing with its identifier is released. Otherwise it is what
was released, and is gone. -/
theorem active_or_spent_history (hinj : Function.Injective r.newId) (hs : r.Sound s) {l : Lock}
    (hl : l ∈ s.table.active) (tasks : List Task) :
    (l ∈ (final r.answer s tasks).table.active ∧
        ∀ l' ∈ releasedIn (history r.answer s tasks), l'.id ≠ l.id) ∨
      (l ∈ releasedIn (history r.answer s tasks) ∧ r.Spent (final r.answer s tasks) l.id) := by
  induction tasks generalizing s with
  | nil => exact Or.inl ⟨hl, fun l' hl' => (List.not_mem_nil hl').elim⟩
  | cons task tasks ih =>
    have hd := hs.does task
    have hnext : r.Sound (r.answer task s).2 := hd.sound hinj hs
    simp only [final, history, releasedIn_cons, List.mem_append, Option.mem_toList]
    rcases hd.active_or_spent hinj hs hl with ⟨hstay, hother⟩ | ⟨hrel, hspent⟩
    · rcases ih hnext hstay with ⟨hin, hlater⟩ | ⟨hin, hspent⟩
      · exact Or.inl ⟨hin, fun l' hl' => hl'.elim (hother l') (hlater l')⟩
      · exact Or.inr ⟨Or.inr hin, hspent⟩
    · exact Or.inr ⟨Or.inl hrel, spent_history hinj hnext hspent tasks⟩

/-- The locks that are made get their identifiers one after the other. -/
theorem madeIn_ordered (hinj : Function.Injective r.newId) (hs : r.Sound s) (tasks : List Task) :
    (madeIn (history r.answer s tasks)).Pairwise r.Earlier ∧
      ∀ l ∈ madeIn (history r.answer s tasks), ∃ n, s.drawn ≤ n ∧ r.newId n = l.id := by
  induction tasks generalizing s with
  | nil => exact ⟨List.Pairwise.nil, fun l hl => (List.not_mem_nil hl).elim⟩
  | cons task tasks ih =>
    have hd := hs.does task
    have hle : s.drawn ≤ (r.answer task s).2.drawn := hd.drawn_le
    obtain ⟨hpair, hlate⟩ := ih (s := (r.answer task s).2) (hd.sound hinj hs)
    have hlate' : ∀ l ∈ madeIn (history r.answer (r.answer task s).2 tasks),
        ∃ n, s.drawn ≤ n ∧ r.newId n = l.id := fun l hl => by
      obtain ⟨n, hn, hid⟩ := hlate l hl
      exact ⟨n, Nat.le_trans hle hn, hid⟩
    rw [history, madeIn_cons]
    cases hm : made? (turn r.answer s task) with
    | none => exact ⟨hpair, hlate'⟩
    | some l =>
      obtain ⟨-, -, hid, hdrawn⟩ := hd.of_made hm
      have hid : r.newId s.drawn = l.id := hid
      have hdrawn : (r.answer task s).2.drawn = s.drawn + 1 := hdrawn
      refine ⟨List.pairwise_cons.2 ⟨fun l' hl' => ?_, hpair⟩, fun l' hl' => ?_⟩
      · obtain ⟨n, hn, hid'⟩ := hlate l' hl'
        exact ⟨s.drawn, n, by omega, hid, hid'⟩
      · rcases List.mem_cons.1 hl' with rfl | hl'
        · exact ⟨s.drawn, Nat.le_refl _, hid⟩
        · exact hlate' l' hl'

/-! ## Registries that start without locks -/

/-- Every lock that is active in front of a dealing was made before it. -/
theorem mem_madeIn_of_mem_history {tasks : List Task}
    (hf : ∀ t ∈ history r.answer .empty tasks, r.Fresh t) {t : Dealing}
    (ht : t ∈ history r.answer .empty tasks) {l : Lock} (hl : l ∈ t.before.table.active) :
    l ∈ madeIn (history r.answer .empty tasks) := by
  obtain ⟨front, back, hsplit, he⟩ := exists_of_mem_history ht
  rw [hsplit, history_append] at hf ⊢
  have hactive := active_final (s := .empty) LockTable.consistent_empty
    fun t ht => hf t (List.mem_append_left _ ht)
  have hl : l ∈ (final r.answer .empty front).table.active := by rwa [he] at hl
  have hmade : l ∈ madeIn (history r.answer .empty front) := by
    rw [hactive] at hl
    exact (outstanding_sublist _).subset hl
  unfold madeIn at hmade ⊢
  rw [List.filterMap_append]
  exact List.mem_append_left _ hmade

/-- Whatever is done to a registry without locks, the locks and the index of their paths are inverse
to each other, and the active locks are the balance of what was done. A locked path is refused to
everyone with the lock that is on it, a free path is given to whoever has a name, and what fails
changes no lock. -/
theorem refines_ledger (r : Registry) (hclock : ∀ n, (r.now n).isSome)
    (hids : ∀ n, r.newId n ≠ "") (tasks : List Task)
    (hfresh : ∀ t ∈ history r.answer .empty tasks, r.Fresh t) :
    let dealings := history r.answer .empty tasks
    let s := final r.answer .empty tasks
    (∀ path id, s.table.byPath.get? path = some id ↔
      ∃ l, s.table.locks.get? id = some l ∧ l.id = id ∧ l.path = path) ∧
    (∀ id l, s.table.locks.get? id = some l → l.id = id) ∧
    (s.table.active.map Lock.path).Nodup ∧ (s.table.active.map Lock.id).Nodup ∧
    s.table.active = outstanding dealings ∧
    (∀ l ∈ s.table.active, ∀ ref name, name ≠ "" → r.AllowsPath l.path ref →
      r.answer (.create l.path ref (some name)) s =
        (.error (.refusal (.lockConflict "already created lock" l)), s)) ∧
    (∀ path ref name, path ≠ "" → name ≠ "" → r.AllowsPath path ref →
      (∀ l ∈ s.table.active, l.path ≠ path) →
        ∃ l, (r.answer (.create path ref (some name)) s).1 = .ok (.created l) ∧
          l.path = path ∧ l.ownerName = some name) ∧
    ∀ t ∈ dealings, ∀ e, t.answer = .error e →
      t.after.table = t.before.table ∧ e ≠ .defect .brokenIndex := by
  intro dealings s
  have hstart : RegistryState.empty.table.Consistent := LockTable.consistent_empty
  obtain ⟨hall, hc⟩ := consistent_history hstart hfresh
  refine ⟨fun path id => ?_, hc.1, hc.nodup_paths, hc.nodup_ids, ?_, fun l hl ref name hn ha => ?_,
    fun path ref name hp hn ha hf => ?_, fun t ht e he => ?_⟩
  · rw [hc.2]
    constructor
    · rintro ⟨l, hl, hp⟩
      exact ⟨l, hl, hc.1 id l hl, hp⟩
    · rintro ⟨l, hl, -, hp⟩
      exact ⟨l, hl, hp⟩
  · exact active_final hstart hfresh
  · exact answer_create_held hc hn ha hl
  · obtain ⟨time, hnow⟩ := Option.isSome_iff_exists.1 (hclock s.drawn)
    rw [answer_create_free hc hn ha hf hp (hids _) hnow]
    exact ⟨_, rfl, rfl, rfl⟩
  · have hd : r.Does t := by rw [eq_turn_of_mem_history ht]; exact does_turn (hall t ht) _
    exact hd.of_error he

/-- Two people who are after the same path; the first one gives up theirs. -/
def errands : List Task :=
  [.create "a" none (some "ann"), .create "a" none (some "bob"), .create "b" none (some "bob"),
    .delete "i" none (some "bob") false, .list none none (some "iii") 1 none,
    .delete "i" none (some "ann") false, .create "" none (some "ann"),
    .create "a" none (some "bob")]

theorem refines_ledger_errands :
    (∀ n, (sample.now n).isSome) ∧ (∀ n, sample.newId n ≠ "") ∧
      (∀ t ∈ history sample.answer .empty errands, sample.Fresh t) ∧
      (final sample.answer .empty errands).table.active =
        outstanding (history sample.answer .empty errands) ∧
      (outstanding (history sample.answer .empty errands)).map
        (fun l => (l.path, l.ownerName)) = [("b", some "bob"), ("a", some "bob")] := by
  have hclock : ∀ n, (sample.now n).isSome := fun _ => rfl
  have hfresh := fresh_history sample_newId_injective errands
  exact ⟨hclock, sample_newId_ne, hfresh,
    (refines_ledger sample hclock sample_newId_ne errands hfresh).2.2.2.2.1, by decide⟩

end GitLfs.Registry
