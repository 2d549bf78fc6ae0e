import Mathlib.Data.List.Nodup
import GitLfs.Lock.Table

/-!
# What a consistent lock table is like

In a consistent table no two locks share an identifier or a path, and the locks on it are exactly the
values that can be looked up. `Indexed` is the half of this that a table keeps whatever identifiers its
locks get: a path that is locked leads to its lock. For an indexed table `mem_active_add` and
`mem_active_remove` say which locks are active when one is added or removed.

`Consistent.add` and `Consistent.remove` say that adding a lock with a new identifier on a free path, and
removing a lock together with its path, keep a table consistent; `active_add` and `active_remove` say
what becomes of the row of active locks.
-/

namespace GitLfs

namespace OrderedMap

variable {κ ν : Type} [DecidableEq κ]

theorem values_insert_of_notMem {m : OrderedMap κ ν} {k : κ} (h : k ∉ m.keys) (v : ν) :
    (m.insert k v).values = m.values ++ [v] := by
  unfold insert
  rw [dif_neg h]
  simp [values]

theorem values_insert_of_mem {m : OrderedMap κ ν} {k : κ} (h : k ∈ m.keys) (v : ν) :
    (m.insert k v).values = m.entries.map fun e => if e.1 = k then v else e.2 := by
  unfold insert
  rw [dif_pos h]
  simp only [values, replace, List.map_map]
  refine List.map_congr_left fun e _ => ?_
  simp only [Function.comp]
  split <;> rfl

theorem mem_values_of_get? {m : OrderedMap κ ν} {k : κ} {v : ν} (h : m.get? k = some v) :
    v ∈ m.values :=
  List.mem_map.2 ⟨(k, v), get?_eq_some_iff.1 h, rfl⟩

theorem exists_get?_of_mem_values {m : OrderedMap κ ν} {v : ν} (h : v ∈ m.values) :
    ∃ k, m.get? k = some v := by
  obtain ⟨⟨k, v⟩, he, rfl⟩ := List.mem_map.1 h
  exact ⟨k, get?_eq_some_iff.2 he⟩

end OrderedMap

namespace LockTable

variable {t : LockTable} {l : Lock}

/-- The table without a lock and its path. -/
def remove (t : LockTable) (l : Lock) : LockTable := (t.dropLock l.id).dropPath l.path

/-! ## Half of consistency -/

/-- Each lock stands under its identifier, and its path leads to it. The index may hold other paths
besides. -/
structure Indexed (t : LockTable) : Prop where
  id_eq : ∀ id l, t.locks.get? id = some l → l.id = id
  path_eq : ∀ id l, t.locks.get? id = some l → t.byPath.get? l.path = some id

namespace Indexed

theorem mem_active_iff (h : t.Indexed) : l ∈ t.active ↔ t.locks.get? l.id = some l := by
  constructor
  · intro hl
    obtain ⟨id, hid⟩ := OrderedMap.exists_get?_of_mem_values hl
    rwa [h.id_eq id l hid]
  · exact OrderedMap.mem_values_of_get?

/-- Each entry of the table stands under the identifier of its lock. -/
theorem entries_eq (h : t.Indexed) : t.locks.entries = t.active.map fun l => (l.id, l) := by
  have hentry : ∀ e ∈ t.locks.entries, e = (e.2.id, e.2) := by
    rintro ⟨id, l⟩ he
    rw [h.id_eq id l (OrderedMap.get?_eq_some_iff.2 he)]
  unfold active OrderedMap.values
  rw [List.map_map]
  exact (List.map_id _).symm.trans (List.map_congr_left hentry)

theorem keys_eq (h : t.Indexed) : t.locks.keys = t.active.map Lock.id := by
  unfold OrderedMap.keys
  rw [h.entries_eq, List.map_map]
  rfl

theorem nodup_ids (h : t.Indexed) : (t.active.map Lock.id).Nodup := by
  rw [← h.keys_eq]
  exact t.locks.nodup

theorem mem_keys_iff (h : t.Indexed) {id : String} : id ∈ t.locks.keys ↔ ∃ l ∈ t.active, l.id = id := by
  rw [h.keys_eq, List.mem_map]

theorem get?_eq_none_iff (h : t.Indexed) {id : String} :
    t.locks.get? id = none ↔ ∀ l ∈ t.active, l.id ≠ id := by
  rw [OrderedMap.get?_eq_none_iff, h.mem_keys_iff]
  simp only [not_exists, not_and, ne_eq]

/-- An identifier has at most one active lock. -/
theorem eq_of_id (h : t.Indexed) {l l' : Lock} (hl : l ∈ t.active) (hl' : l' ∈ t.active)
    (hid : l.id = l'.id) : l = l' := by
  rw [h.mem_active_iff] at hl hl'
  rw [hid, hl'] at hl
  exact (Option.some.inj hl).symm

theorem byPath_eq (h : t.Indexed) (hl : l ∈ t.active) : t.byPath.get? l.path = some l.id :=
  h.path_eq _ _ (h.mem_active_iff.1 hl)

/-- A path has at most one active lock. -/
theorem eq_of_path (h : t.Indexed) {l l' : Lock} (hl : l ∈ t.active) (hl' : l' ∈ t.active)
    (hp : l.path = l'.path) : l = l' := by
  have hi := h.byPath_eq hl
  rw [hp, h.byPath_eq hl'] at hi
  exact h.eq_of_id hl hl' (Option.some.inj hi).symm

theorem path_mem_keys (h : t.Indexed) (hl : t.locks.get? l.id = some l) :
    l.path ∈ t.byPath.keys :=
  OrderedMap.mem_fst_iff.2 ⟨l.id, OrderedMap.get?_eq_some_iff.1 (h.path_eq _ _ hl)⟩

/-- A lock on a path that the index does not hold may be added under any identifier. If there is a
lock with that identifier, it gives way. -/
theorem add (h : t.Indexed) (hp : t.byPath.get? l.path = none) : (t.add l).Indexed := by
  have hget : ∀ id l', (t.add l).locks.get? id = some l' →
      (id = l.id ∧ l' = l) ∨ t.locks.get? id = some l' := by
    intro id l' hl'
    simp only [LockTable.add, OrderedMap.get?_insert] at hl'
    split at hl'
    · next he => exact .inl ⟨he, (Option.some.inj hl').symm⟩
    · exact .inr hl'
  constructor
  · intro id l' hl'
    obtain ⟨rfl, rfl⟩ | hold := hget id l' hl'
    · rfl
    · exact h.id_eq id l' hold
  · intro id l' hl'
    simp only [LockTable.add, OrderedMap.get?_insert]
    obtain ⟨rfl, rfl⟩ | hold := hget id l' hl'
    · exact if_pos rfl
    · have hpath := h.path_eq id l' hold
      have hne : l'.path ≠ l.path := by
        intro he
        rw [he, hp] at hpath
        cases hpath
      rw [if_neg hne]
      exact hpath

theorem remove (h : t.Indexed) (hl : t.locks.get? l.id = some l) : (t.remove l).Indexed := by
  have hget : ∀ id l', (t.remove l).locks.get? id = some l' →
      id ≠ l.id ∧ t.locks.get? id = some l' := by
    intro id l' hl'
    simp only [LockTable.remove, dropPath, dropLock, OrderedMap.get?_erase] at hl'
    split at hl'
    · cases hl'
    · next hne => exact ⟨hne, hl'⟩
  constructor
  · intro id l' hl'
    exact h.id_eq id l' (hget id l' hl').2
  · intro id l' hl'
    obtain ⟨hne, hold⟩ := hget id l' hl'
    have hpath := h.path_eq id l' hold
    have hpath_ne : l'.path ≠ l.path := by
      intro he
      rw [he, h.path_eq _ _ hl] at hpath
      exact hne (Option.some.inj hpath).symm
    simp only [LockTable.remove, dropPath, dropLock, OrderedMap.get?_erase]
    rw [if_neg hpath_ne]
    exact hpath

/-- To add a lock adds it, and takes away the one with its identifier. -/
theorem mem_active_add (h : t.Indexed) {l' : Lock} :
    l' ∈ (t.add l).active ↔ l' = l ∨ l' ∈ t.active ∧ l'.id ≠ l.id := by
  constructor
  · intro hl'
    obtain ⟨id, hid⟩ := OrderedMap.exists_get?_of_mem_values hl'
    simp only [LockTable.add, OrderedMap.get?_insert] at hid
    split at hid
    · exact .inl (Option.some.inj hid).symm
    · next hne =>
      obtain rfl := h.id_eq id l' hid
      exact .inr ⟨OrderedMap.mem_values_of_get? hid, hne⟩
  · rintro (rfl | ⟨hl', hne⟩)
    · refine OrderedMap.mem_values_of_get? (k := l'.id) ?_
      simp only [LockTable.add, OrderedMap.get?_insert, if_true]
    · refine OrderedMap.mem_values_of_get? (k := l'.id) ?_
      simp only [LockTable.add, OrderedMap.get?_insert, if_neg hne]
      exact h.mem_active_iff.1 hl'

/-- A lock whose identifier an active lock has takes the place of that one. -/
theorem active_add (h : t.Indexed) (hid : ∃ l' ∈ t.active, l'.id = l.id) :
    (t.add l).active = t.active.map fun l' => if l'.id = l.id then l else l' := by
  have hvalues := OrderedMap.values_insert_of_mem (h.mem_keys_iff.2 hid) l
  rw [h.entries_eq, List.map_map] at hvalues
  exact hvalues

theorem mem_active_remove (h : t.Indexed) {l' : Lock} :
    l' ∈ (t.remove l).active ↔ l' ∈ t.active ∧ l'.id ≠ l.id := by
  have hget : ∀ id, (t.remove l).locks.get? id = if id = l.id then none else t.locks.get? id := by
    intro id
    simp only [LockTable.remove, dropPath, dropLock, OrderedMap.get?_erase]
  constructor
  · intro hl'
    obtain ⟨id, hid⟩ := OrderedMap.exists_get?_of_mem_values hl'
    rw [hget] at hid
    split at hid
    · cases hid
    · next hne =>
      obtain rfl := h.id_eq id l' hid
      exact ⟨OrderedMap.mem_values_of_get? hid, hne⟩
  · rintro ⟨hl', hne⟩
    refine OrderedMap.mem_values_of_get? (k := l'.id) ?_
    exact (hget l'.id).trans ((if_neg hne).trans (h.mem_active_iff.1 hl'))

end Indexed

namespace Consistent

theorem indexed (h : t.Consistent) : t.Indexed where
  id_eq := h.1
  path_eq id l hl := (h.2 l.path id).2 ⟨l, hl, rfl⟩

theorem mem_active_iff (h : t.Consistent) : l ∈ t.active ↔ t.locks.get? l.id = some l :=
  h.indexed.mem_active_iff

theorem nodup_ids (h : t.Consistent) : (t.active.map Lock.id).Nodup := h.indexed.nodup_ids

theorem nodup_active (h : t.Consistent) : t.active.Nodup := List.Nodup.of_map _ h.nodup_ids

theorem eq_of_id (h : t.Consistent) {l l' : Lock} (hl : l ∈ t.active) (hl' : l' ∈ t.active)
    (hid : l.id = l'.id) : l = l' := h.indexed.eq_of_id hl hl' hid

/-- A path is in the index exactly when an active lock is on it. -/
theorem byPath_eq_some_iff (h : t.Consistent) {path id : String} :
    t.byPath.get? path = some id ↔ ∃ l ∈ t.active, l.id = id ∧ l.path = path := by
  rw [h.2]
  constructor
  · rintro ⟨l, hl, hp⟩
    exact ⟨l, OrderedMap.mem_values_of_get? hl, h.1 id l hl, hp⟩
  · rintro ⟨l, hl, rfl, hp⟩
    exact ⟨l, h.mem_active_iff.1 hl, hp⟩

theorem byPath_eq_none_iff (h : t.Consistent) {path : String} :
    t.byPath.get? path = none ↔ ∀ l ∈ t.active, l.path ≠ path := by
  constructor
  · intro hn l hl hp
    rw [h.byPath_eq_some_iff.2 ⟨l, hl, rfl, hp⟩] at hn
    cases hn
  · intro hn
    cases hg : t.byPath.get? path with
    | none => rfl
    | some id =>
      obtain ⟨l, hl, -, hp⟩ := h.byPath_eq_some_iff.1 hg
      exact absurd hp (hn l hl)

theorem eq_of_path (h : t.Consistent) {l l' : Lock} (hl : l ∈ t.active) (hl' : l' ∈ t.active)
    (hp : l.path = l'.path) : l = l' := h.indexed.eq_of_path hl hl' hp

theorem nodup_paths (h : t.Consistent) : (t.active.map Lock.path).Nodup :=
  h.nodup_active.map_on fun _ hl _ hl' => h.eq_of_path hl hl'

/-! ## Adding and removing a lock -/

/-- What an indexed table lacks for consistency is that each path in its index leads to a lock on it. -/
theorem of_indexed (h : t.Indexed) (hindex : ∀ path id, t.byPath.get? path = some id →
    ∃ l, t.locks.get? id = some l ∧ l.path = path) : t.Consistent := by
  refine ⟨h.id_eq, fun path id => ⟨hindex path id, ?_⟩⟩
  rintro ⟨l, hl, rfl⟩
  exact h.path_eq id l hl

theorem add (h : t.Consistent) (hid : l.id ∉ t.locks.keys) (hp : t.byPath.get? l.path = none) :
    (t.add l).Consistent := by
  refine of_indexed (h.indexed.add hp) fun path id hindex => ?_
  simp only [LockTable.add, OrderedMap.get?_insert] at hindex ⊢
  split at hindex
  · next hpath =>
    cases hindex
    exact ⟨l, if_pos rfl, hpath.symm⟩
  · obtain ⟨l', hl', hpath⟩ := (h.2 path id).1 hindex
    have hne : id ≠ l.id := by
      rintro rfl
      rw [OrderedMap.get?_eq_none_iff.2 hid] at hl'
      cases hl'
    exact ⟨l', (if_neg hne).trans hl', hpath⟩

theorem remove (h : t.Consistent) (hl : t.locks.get? l.id = some l) : (t.remove l).Consistent := by
  refine of_indexed (h.indexed.remove hl) fun path id hindex => ?_
  simp only [LockTable.remove, dropPath, dropLock, OrderedMap.get?_erase] at hindex ⊢
  split at hindex
  · cases hindex
  · next hpath =>
    obtain ⟨l', hl', rfl⟩ := (h.2 path id).1 hindex
    have hne : id ≠ l.id := by
      rintro rfl
      obtain rfl := Option.some.inj (hl.symm.trans hl')
      exact hpath rfl
    exact ⟨l', (if_neg hne).trans hl', rfl⟩

end Consistent

theorem active_add (hid : l.id ∉ t.locks.keys) : (t.add l).active = t.active ++ [l] :=
  OrderedMap.values_insert_of_notMem hid l

theorem active_remove (h : t.Consistent) (hl : l ∈ t.active) :
    (t.remove l).active = t.active.filter (· ≠ l) := by
  have he : (t.remove l).active =
      ((t.active.map fun l' => (l'.id, l')).filter fun e => e.1 ≠ l.id).map Prod.snd := by
    rw [← h.indexed.entries_eq]
    rfl
  rw [he, List.filter_map, List.map_map]
  refine (List.map_id _).trans (List.filter_congr fun l' hl' => ?_)
  -- among the active locks, to have another identifier is to be another lock
  simp only [Function.comp, decide_eq_decide]
  exact not_congr ⟨h.eq_of_id hl' hl, fun e => e ▸ rfl⟩

theorem mem_active_add (hid : l.id ∉ t.locks.keys) {l' : Lock} :
    l' ∈ (t.add l).active ↔ l' ∈ t.active ∨ l' = l := by
  rw [active_add hid]
  simp

theorem mem_active_remove (h : t.Consistent) (hl : l ∈ t.active) {l' : Lock} :
    l' ∈ (t.remove l).active ↔ l' ∈ t.active ∧ l' ≠ l := by
  rw [active_remove h hl]
  simp

end LockTable

end GitLfs
