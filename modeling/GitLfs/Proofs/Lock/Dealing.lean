import GitLfs.Proofs.Lock.Registry

/-!
# Dealings with a lock registry

A dealing is a task together with its answer and the states before and after. It makes a lock,
releases one, or leaves the table alone. As long as no dealing draws the identifier of an active lock
the table stays consistent: `Does.consistent` for one dealing, `consistent_history` for all.

`Orderly` is what any registry keeps, one that issues an identifier again included (`orderly_final`);
`TableEffect` lists what one task does to the table of such a registry.

`Sound` is what a registry that never issues an identifier twice keeps besides: each active lock has
an identifier that was drawn, they stand in the order of their drawing, and each has an owner with a
name. `sound_history` says so of whatever has been done to an empty table.
-/

namespace GitLfs.Registry

variable {r : Registry} {s : RegistryState}

/-! ## Locks that are made and released -/

/-- A task and what came of it. -/
abbrev Dealing := Turn RegistryState Task (Except Failure Reply)

/-- The lock that a dealing made. -/
def made? (t : Dealing) : Option Lock :=
  match t.answer with
  | .ok (.created l) => some l
  | _ => none

/-- The lock that a dealing released. -/
def released? (t : Dealing) : Option Lock :=
  match t.answer with
  | .ok (.released l) => some l
  | _ => none

/-! ## Fresh identifiers -/

/-- If a dealing draws an identifier, then one that no active lock has. -/
def Fresh (r : Registry) (t : Dealing) : Prop :=
  t.after.drawn ≠ t.before.drawn → ∀ l ∈ t.before.table.active, l.id ≠ r.newId t.before.drawn

/-- A dealing is one that a registry can have. -/
abbrev Does (r : Registry) (t : Dealing) : Prop := r.Effect t.before t.input t.answer t.after

theorem does_turn (h : s.table.Consistent) (task : Task) : r.Does (turn r.answer s task) :=
  r.effect_answer s h task

theorem notMem_keys_of_fresh {t : LockTable} (h : t.Consistent) {id : String}
    (hid : ∀ l ∈ t.active, l.id ≠ id) : id ∉ t.locks.keys :=
  OrderedMap.get?_eq_none_iff.1 (h.indexed.get?_eq_none_iff.2 hid)

/-- One dealing keeps the table consistent. -/
theorem Does.consistent {t : Dealing} (ht : r.Does t) (h : t.before.table.Consistent)
    (hf : r.Fresh t) : t.after.table.Consistent := by
  obtain ⟨before, task, answer, after⟩ := t
  dsimp only [Does] at ht h ⊢
  cases ht with
  | created named allowed free path_ne id_ne clock =>
    exact h.add (notMem_keys_of_fresh h (hf (by simp))) free
  | released held entitled => exact h.remove held
  | listed => exact h
  | listedToVerify => exact h
  | failed ne le => exact h

/-- What one dealing does to the row of active locks. -/
theorem Does.active_eq {t : Dealing} (ht : r.Does t) (h : t.before.table.Consistent)
    (hf : r.Fresh t) :
    t.after.table.active =
      (t.before.table.active.filter fun l => l ∉ (released? t)) ++ (made? t).toList := by
  obtain ⟨before, task, answer, after⟩ := t
  dsimp only [Does] at ht h ⊢
  cases ht with
  | created named allowed free path_ne id_ne clock =>
    have hid := notMem_keys_of_fresh h (hf (by simp))
    simpa [released?, made?] using LockTable.active_add hid
  | released held entitled =>
    have hl := OrderedMap.mem_values_of_get? held
    simpa [released?, made?, eq_comm] using LockTable.active_remove h hl
  | listed => simp [released?, made?]
  | listedToVerify => simp [released?, made?]
  | failed ne le => simp [released?, made?]

/-- A dealing that fails leaves the table as it was, and does not fail for want of consistency. -/
theorem Does.of_error {t : Dealing} (ht : r.Does t) {e : Failure} (he : t.answer = .error e) :
    t.after.table = t.before.table ∧ e ≠ .defect .brokenIndex := by
  obtain ⟨before, task, answer, after⟩ := t
  dsimp only [Does] at ht he ⊢
  subst he
  cases ht with
  | failed ne le => exact ⟨rfl, ne⟩

/-! ## Whole histories -/

/-- Tasks whose identifiers are fresh keep the table consistent. -/
theorem consistent_history {tasks : List Task} (h : s.table.Consistent)
    (hf : ∀ t ∈ history r.answer s tasks, r.Fresh t) :
    (∀ t ∈ history r.answer s tasks, t.before.table.Consistent) ∧
      (final r.answer s tasks).table.Consistent := by
  refine history_invariant (I := fun s : RegistryState => s.table.Consistent) h fun t ht hc => ?_
  have hd : r.Does t := by rw [eq_turn_of_mem_history ht]; exact does_turn hc _
  exact hd.consistent hc (hf t ht)

/-! ## Whatever identifiers are drawn -/

/-- What a registry is like whatever identifiers its locks get: a path that is locked leads to its
lock, and no identifier is empty. -/
structure Orderly (s : RegistryState) : Prop where
  indexed : s.table.Indexed
  id_ne : ∀ l ∈ s.table.active, l.id ≠ ""

theorem orderly_empty : Orderly .empty where
  indexed := LockTable.consistent_empty.indexed
  id_ne _ hl := (List.not_mem_nil hl).elim

/-- What a task can do to a table in which each path that is locked leads to its lock. -/
inductive TableEffect (t : LockTable) : Except Failure Reply → LockTable → Prop
  | made {l : Lock} (id_ne : l.id ≠ "") (free : t.byPath.get? l.path = none) :
      TableEffect t (.ok (.created l)) (t.add l)
  | released {l : Lock} (held : t.locks.get? l.id = some l) :
      TableEffect t (.ok (.released l)) (t.remove l)
  | shown {page : LockPage} : TableEffect t (.ok (.page page)) t
  | failed {e : Failure} : TableEffect t (.error e) t

theorem tableEffect_answer (r : Registry) (h : s.table.Indexed) (task : Task) :
    TableEffect s.table (r.answer task s).1 (r.answer task s).2.table := by
  cases task with
  | create path ref user =>
    have heffect := r.createEffect_answer s path ref user
    generalize (r.answer (.create path ref user) s).1 = outcome at heffect ⊢
    generalize (r.answer (.create path ref user) s).2 = after at heffect ⊢
    cases heffect with
    | created named allowed free path_ne id_ne clock => exact .made id_ne free
    | _ => exact .failed
  | delete id ref user force =>
    rw [answer_delete h]
    cases hl : s.table.locks.get? id with
    | none => exact .failed
    | some lock =>
      obtain rfl := h.id_eq id lock hl
      by_cases hf : force = false ∧ lock.ownerName ≠ user
      · simp only [if_pos hf]
        exact .failed
      · simp only [if_neg hf]
        exact .released hl
  | list path id cursor limit ref =>
    rw [answer_list]
    cases Paging.page r.pageSize _ cursor limit with
    | ok page => exact .shown
    | error e => exact .failed
  | listToVerify ref user cursor limit =>
    rw [answer_listToVerify]
    cases Paging.page r.pageSize _ cursor limit with
    | ok page => exact .shown
    | error e => exact .failed

/-- Any task leaves an orderly registry orderly. -/
theorem Orderly.answer (r : Registry) (h : Orderly s) (task : Task) :
    Orderly (r.answer task s).2 := by
  have heffect := tableEffect_answer r h.indexed task
  generalize (r.answer task s).1 = outcome at heffect
  obtain ⟨hindexed, hid⟩ := h
  constructor
  · generalize (r.answer task s).2.table = after at heffect ⊢
    cases heffect with
    | made id_ne free => exact hindexed.add free
    | released held => exact hindexed.remove held
    | shown => exact hindexed
    | failed => exact hindexed
  · intro l' hl'
    generalize (r.answer task s).2.table = after at heffect hl'
    cases heffect with
    | made id_ne free =>
      rcases hindexed.mem_active_add.1 hl' with rfl | ⟨hl', -⟩
      · exact id_ne
      · exact hid l' hl'
    | released held => exact hid l' (hindexed.mem_active_remove.1 hl').1
    | shown => exact hid l' hl'
    | failed => exact hid l' hl'

theorem orderly_final (r : Registry) (tasks : List Task) :
    Orderly (final r.answer .empty tasks) :=
  (history_invariant (I := Orderly) orderly_empty fun t ht hb => by
    rw [eq_turn_of_mem_history ht]
    exact hb.answer r t.input).2

/-! ## Identifiers that are never issued twice -/

/-- One lock got its identifier before another. -/
def Earlier (r : Registry) (l l' : Lock) : Prop :=
  ∃ m n, m < n ∧ r.newId m = l.id ∧ r.newId n = l'.id

/-- What a registry is like whose locks all came from `create`. -/
structure Sound (r : Registry) (s : RegistryState) : Prop where
  consistent : s.table.Consistent
  issued : ∀ l ∈ s.table.active, l.id ≠ "" ∧ ∃ n < s.drawn, r.newId n = l.id
  ordered : s.table.active.Pairwise r.Earlier
  named : ∀ l ∈ s.table.active, ∃ name, name ≠ "" ∧ l.ownerName = some name

theorem sound_empty (r : Registry) : r.Sound .empty where
  consistent := LockTable.consistent_empty
  issued _ hl := (List.not_mem_nil hl).elim
  ordered := List.Pairwise.nil
  named _ hl := (List.not_mem_nil hl).elim

theorem Earlier.ne (hinj : Function.Injective r.newId) {l l' : Lock} (h : r.Earlier l l') :
    l.id ≠ l'.id := by
  obtain ⟨m, n, hmn, hm, hn⟩ := h
  intro he
  rw [← hm, ← hn] at he
  have := hinj he
  omega

/-- An identifier that is drawn now is none that was drawn before. -/
theorem Sound.id_ne (hinj : Function.Injective r.newId) (hs : r.Sound s) {l : Lock}
    (hl : l ∈ s.table.active) : l.id ≠ r.newId s.drawn := by
  intro he
  obtain ⟨-, n, hn, hid⟩ := hs.issued l hl
  have := hinj (hid.trans he)
  omega

theorem Sound.newId_notMem_keys (hinj : Function.Injective r.newId) (hs : r.Sound s) :
    r.newId s.drawn ∉ s.table.locks.keys :=
  notMem_keys_of_fresh hs.consistent fun _ hl => hs.id_ne hinj hl

theorem Sound.fresh (hinj : Function.Injective r.newId) {t : Dealing} (hs : r.Sound t.before) :
    r.Fresh t := fun _ _ hl => hs.id_ne hinj hl

theorem Sound.does (hs : r.Sound s) (task : Task) : r.Does (turn r.answer s task) :=
  does_turn hs.consistent task

theorem Does.drawn_le {t : Dealing} (ht : r.Does t) : t.before.drawn ≤ t.after.drawn := by
  obtain ⟨before, task, answer, after⟩ := t
  dsimp only [Does] at ht ⊢
  cases ht with
  | created named allowed free path_ne id_ne clock => exact Nat.le_succ _
  | failed ne le => exact le
  | _ => exact Nat.le_refl _

/-- A lock that is made has an owner with a name and the identifier that was drawn for it. -/
theorem Does.of_made {t : Dealing} (ht : r.Does t) {l : Lock} (hl : made? t = some l) :
    (∃ name, name ≠ "" ∧ l.ownerName = some name) ∧ l.id ≠ "" ∧ r.newId t.before.drawn = l.id ∧
      t.after.drawn = t.before.drawn + 1 := by
  obtain ⟨before, task, answer, after⟩ := t
  dsimp only [Does] at ht ⊢
  cases ht with
  | created named allowed free path_ne id_ne clock =>
    cases hl
    exact ⟨⟨_, named, rfl⟩, id_ne, rfl, rfl⟩
  | _ => cases hl

/-- One dealing leaves a sound registry sound. -/
theorem Does.sound (hinj : Function.Injective r.newId) {t : Dealing} (ht : r.Does t)
    (hs : r.Sound t.before) : r.Sound t.after := by
  have hactive := ht.active_eq hs.consistent (hs.fresh hinj)
  have hmem : ∀ l ∈ t.after.table.active, l ∈ t.before.table.active ∨ made? t = some l := by
    intro l hl
    rw [hactive, List.mem_append, List.mem_filter, Option.mem_toList] at hl
    exact hl.imp And.left id
  constructor
  · exact ht.consistent hs.consistent (hs.fresh hinj)
  · intro l hl
    rcases hmem l hl with hl | hl
    · obtain ⟨hne, n, hn, hid⟩ := hs.issued l hl
      exact ⟨hne, n, Nat.lt_of_lt_of_le hn ht.drawn_le, hid⟩
    · obtain ⟨-, hne, hid, hdrawn⟩ := ht.of_made hl
      exact ⟨hne, t.before.drawn, by omega, hid⟩
  · rw [hactive, List.pairwise_append]
    refine ⟨hs.ordered.sublist List.filter_sublist, ?_, fun l hl l' hl' => ?_⟩
    · cases made? t <;> simp
    · -- what was there was drawn before what is made
      obtain ⟨-, n, hn, hid⟩ := hs.issued l (List.mem_filter.1 hl).1
      obtain ⟨-, -, hid', -⟩ := ht.of_made (Option.mem_toList.1 hl')
      exact ⟨n, t.before.drawn, hn, hid, hid'⟩
  · intro l hl
    rcases hmem l hl with hl | hl
    · exact hs.named l hl
    · exact (ht.of_made hl).1

/-- Whatever is done to a sound registry, it is sound in front of each task and at the end. -/
theorem sound_history (hinj : Function.Injective r.newId) (hs : r.Sound s) (tasks : List Task) :
    (∀ t ∈ history r.answer s tasks, r.Sound t.before) ∧ r.Sound (final r.answer s tasks) := by
  refine history_invariant (I := fun s => r.Sound s) hs fun t ht hb => ?_
  have hd : r.Does t := by rw [eq_turn_of_mem_history ht]; exact hb.does _
  exact hd.sound hinj hb

theorem fresh_history (hinj : Function.Injective r.newId) (tasks : List Task) :
    ∀ t ∈ history r.answer .empty tasks, r.Fresh t := fun t ht =>
  ((sound_history hinj (sound_empty r) tasks).1 t ht).fresh hinj

/-- The identifier was issued, and its lock is gone. -/
def Spent (r : Registry) (s : RegistryState) (id : String) : Prop :=
  (∃ n < s.drawn, r.newId n = id) ∧ ∀ l ∈ s.table.active, l.id ≠ id

/-- A lock that is gone does not come back. -/
theorem Does.spent (hinj : Function.Injective r.newId) {t : Dealing} (ht : r.Does t)
    (hs : r.Sound t.before) {id : String} (h : r.Spent t.before id) : r.Spent t.after id := by
  obtain ⟨⟨n, hn, hid⟩, hgone⟩ := h
  refine ⟨⟨n, Nat.lt_of_lt_of_le hn ht.drawn_le, hid⟩, fun l hl he => ?_⟩
  rw [ht.active_eq hs.consistent (hs.fresh hinj), List.mem_append] at hl
  rcases hl with hl | hl
  · exact hgone l (List.mem_filter.1 hl).1 he
  · obtain ⟨-, -, hid', -⟩ := ht.of_made (Option.mem_toList.1 hl)
    have := hinj (hid.trans (he.symm.trans hid'.symm))
    omega

theorem spent_history (hinj : Function.Injective r.newId) (hs : r.Sound s) {id : String}
    (hid : r.Spent s id) (tasks : List Task) : r.Spent (final r.answer s tasks) id := by
  obtain ⟨hsound, -⟩ := sound_history hinj hs tasks
  refine (history_invariant (I := fun s => r.Spent s id) hid fun t ht hb => ?_).2
  have hd : r.Does t := by rw [eq_turn_of_mem_history ht]; exact (hsound t ht).does _
  exact hd.spent hinj (hsound t ht) hb

theorem Does.mem_of_released {t : Dealing} (ht : r.Does t) {l : Lock}
    (hl : released? t = some l) : l ∈ t.before.table.active ∧ made? t = none := by
  obtain ⟨before, task, answer, after⟩ := t
  dsimp only [Does] at ht ⊢
  cases ht with
  | released held entitled =>
    cases hl
    exact ⟨OrderedMap.mem_values_of_get? held, rfl⟩
  | _ => cases hl

/-- An active lock stays active, or it is released and gone. -/
theorem Does.active_or_spent (hinj : Function.Injective r.newId) {t : Dealing} (ht : r.Does t)
    (hs : r.Sound t.before) {l : Lock} (hl : l ∈ t.before.table.active) :
    (l ∈ t.after.table.active ∧ ∀ l' ∈ released? t, l'.id ≠ l.id) ∨
      (released? t = some l ∧ r.Spent t.after l.id) := by
  have hactive := ht.active_eq hs.consistent (hs.fresh hinj)
  by_cases hrel : released? t = some l
  · obtain ⟨-, n, hn, hid⟩ := hs.issued l hl
    refine Or.inr ⟨hrel, ⟨n, Nat.lt_of_lt_of_le hn ht.drawn_le, hid⟩, fun l' hl' he => ?_⟩
    rw [hactive, (ht.mem_of_released hrel).2, hrel] at hl'
    simp only [Option.toList_none, List.append_nil, List.mem_filter, Option.mem_def,
      Option.some.injEq, decide_not, Bool.not_eq_true', decide_eq_false_iff_not] at hl'
    exact hl'.2 (hs.consistent.eq_of_id hl'.1 hl he).symm
  · refine Or.inl ⟨?_, fun l' hl' he => ?_⟩
    · rw [hactive, List.mem_append, List.mem_filter]
      exact Or.inl ⟨hl, by simpa using hrel⟩
    · have hl'' := (ht.mem_of_released hl').1
      rw [hs.consistent.eq_of_id hl'' hl he] at hl'
      exact hrel hl'

/-! ## A registry to try things on -/

/-- The start of a year. -/
def newYear : DateTime where
  year := 2026
  month := 1
  day := 1
  hour := 0
  minute := 0
  second := 0
  microsecond := 0
  offset := some 0
  year_range := by decide
  day_range := by decide
  time_range := by decide
  offset_range := by decide

/-- A registry whose identifiers are rows of one letter, and whose clock stands still. -/
def sample : Registry where
  administrators := ["root"]
  pageSize := 2
  newId n := String.ofList (List.replicate (n + 1) 'i')
  now _ := some newYear
  repository := none

theorem sample_newId_injective : Function.Injective sample.newId := by
  intro m n h
  have hl : List.replicate (m + 1) 'i' = List.replicate (n + 1) 'i' := String.ofList_injective h
  simpa using congrArg List.length hl

theorem sample_newId_ne (n : Nat) : sample.newId n ≠ "" := by
  intro h
  have hl := String.ofList_injective (h.trans String.ofList_nil.symm)
  simp [List.replicate_succ] at hl

end GitLfs.Registry
