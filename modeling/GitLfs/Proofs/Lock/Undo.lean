import GitLfs.Proofs.Lock.Locking
import GitLfs.Proofs.Lock.Page
import GitLfs.Proofs.Lock.Query

/-!
# Making a lock can be undone

A lock that is new to a table is the only one with its path and the only one with its identifier once it
has been added (`answer_list_picked`), whoever owns it releases it (`answer_delete_own`), and to remove
it again leaves the table that was there before, in its order: `New.remove_add`.

Only to make a lock takes notice of anything but the table. So where the table is the same, everything
else is (`answer_congr`).
-/

namespace GitLfs

theorem OrderedMap.erase_insert {κ ν : Type} [DecidableEq κ] {m : OrderedMap κ ν} {k : κ}
    (h : k ∉ m.keys) (v : ν) : (m.insert k v).erase k = m := by
  apply OrderedMap.ext_entries
  have hkept : m.entries.filter (·.1 ≠ k) = m.entries := by
    refine List.filter_eq_self.2 fun e he => ?_
    rw [decide_eq_true_eq]
    rintro rfl
    exact h (List.mem_map_of_mem he)
  unfold erase insert
  rw [dif_neg h]
  simp only [List.filter_append, hkept]
  simp

namespace LockTable

variable {t : LockTable} {l : Lock}

/-- A lock that can be added to a table: no lock in it has its identifier or its path, and neither is
empty. -/
structure New (t : LockTable) (l : Lock) : Prop where
  id_ne : l.id ≠ ""
  path_ne : l.path ≠ ""
  id : ∀ x ∈ t.active, x.id ≠ l.id
  path : ∀ x ∈ t.active, x.path ≠ l.path

namespace New

theorem notMem_keys (h : t.New l) (ht : t.Consistent) : l.id ∉ t.locks.keys :=
  Registry.notMem_keys_of_fresh ht h.id

theorem active_add (h : t.New l) (ht : t.Consistent) : (t.add l).active = t.active ++ [l] :=
  LockTable.active_add (h.notMem_keys ht)

theorem consistent_add (h : t.New l) (ht : t.Consistent) : (t.add l).Consistent :=
  ht.add (h.notMem_keys ht) (ht.byPath_eq_none_iff.2 h.path)

/-- To add a lock and to remove it leaves everything as it was. -/
theorem remove_add (h : t.New l) (ht : t.Consistent) : (t.add l).remove l = t := by
  have hpath : l.path ∉ t.byPath.keys :=
    OrderedMap.get?_eq_none_iff.1 (ht.byPath_eq_none_iff.2 h.path)
  unfold LockTable.remove dropPath dropLock LockTable.add
  simp only [OrderedMap.erase_insert (h.notMem_keys ht), OrderedMap.erase_insert hpath]

end New

end LockTable

/-- A request for the locks with the path of a lock, with its identifier, or with both, from the start
of the listing. -/
structure LockQuery.Picks (q : LockQuery) (l : Lock) : Prop where
  path : q.path = none ∨ q.path = some l.path
  id : q.id = none ∨ q.id = some l.id
  asked : q.path ≠ none ∨ q.id ≠ none
  cursor : q.cursor = none

theorem LockQuery.Picks.full {q : LockQuery} {l : Lock} {t : LockTable} (h : q.Picks l)
    (hnew : t.New l) (hrefspec : q.refspec ≠ some "") : q.Full where
  path := by
    rcases h.path with hpath | hpath
    · simp [hpath]
    · simp [hpath, hnew.path_ne]
  id := by
    rcases h.id with hid | hid
    · simp [hid]
    · simp [hid, hnew.id_ne]
  cursor := by simp [h.cursor]
  refspec := hrefspec

namespace Registry

variable {r : Registry} {s s' : RegistryState} {t : LockTable} {l : Lock} {q : LockQuery}

/-- Among the locks with its path or its identifier a new lock is alone. -/
theorem filter_picked (h : t.New l) (ht : t.Consistent) (hq : q.Picks l) :
    ((t.add l).active.filter fun x => q.path.all (x.path = ·) && q.id.all (x.id = ·)) = [l] := by
  have hothers : (t.active.filter fun x => q.path.all (x.path = ·) && q.id.all (x.id = ·)) = [] := by
    refine List.filter_eq_nil_iff.2 fun x hx => ?_
    have hid := h.id x hx
    have hpath := h.path x hx
    rcases hq.asked with hasked | hasked
    · rw [hq.path.resolve_left hasked]
      simp [hpath]
    · rw [hq.id.resolve_left hasked]
      simp [hid]
  have hself : (q.path.all (l.path = ·) && q.id.all (l.id = ·)) = true := by
    rcases hq.path with hp | hp <;> rcases hq.id with hi | hi <;> simp [hp, hi]
  rw [h.active_add ht, List.filter_append, hothers, List.nil_append, List.filter_cons, hself]
  rfl

/-- However few locks are asked for, a new lock is shown on one page. -/
theorem answer_list_picked (hsize : 1 ≤ r.pageSize) (h : t.New l) (ht : t.Consistent)
    (hs : s.table = t.add l) (hq : q.Picks l) :
    r.answer (.list q.path q.id q.cursor q.limit q.refspec) s = (.ok (.page ⟨[l], none⟩), s) := by
  have hroom := Paging.room_pos hsize q.limit
  have hpage : Paging.page r.pageSize [l] none q.limit = .ok ⟨[l], none⟩ := by
    have hstart : Paging.startOf ([] ++ [l]) none = .ok ([] : List Lock).length := rfl
    have hpage := Paging.page_append hsize q.limit hstart
    rw [List.nil_append, List.take_of_length_le hroom, List.drop_eq_nil_of_le hroom] at hpage
    exact hpage
  rw [answer_list, hs, filter_picked h ht hq, hq.cursor, hpage]
  rfl

/-- Whoever owns a lock releases it, with force or without. -/
theorem answer_delete_own (hs : s.table.Consistent) (hl : l ∈ s.table.active)
    (ref : Option String) (force : Bool) :
    r.answer (.delete l.id ref l.ownerName force) s =
      (.ok (.released l), { s with table := s.table.remove l }) := by
  have hown : ¬ (force = false ∧ l.ownerName ≠ l.ownerName) := by simp
  rw [answer_delete hs.indexed, hs.mem_active_iff.1 hl]
  exact if_neg hown

/-- What does not make a lock goes by the table alone. -/
theorem answer_congr (htable : s.table = s'.table) {task : Task}
    (htask : ∀ path ref user, task ≠ .create path ref user) :
    (r.answer task s).1 = (r.answer task s').1 ∧
      (r.answer task s).2.table = (r.answer task s').2.table := by
  cases task with
  | create path ref user => exact absurd rfl (htask path ref user)
  | list path id cursor limit ref =>
    rw [answer_list, answer_list, htable]
    exact ⟨rfl, rfl⟩
  | listToVerify ref user cursor limit =>
    rw [answer_listToVerify, answer_listToVerify, htable]
    exact ⟨rfl, rfl⟩
  | delete id ref user force =>
    obtain ⟨t, drawn⟩ := s
    obtain ⟨t', drawn'⟩ := s'
    obtain rfl : t = t' := htable
    simp only [answer, ask, keeper, delete, perform_map, perform_bind, Query.perform_state]
    cases t.locks.get? id with
    | none => exact ⟨rfl, rfl⟩
    | some lock =>
      by_cases hdenied : ((!force) = true) ∧ lock.ownerName ≠ user
      · simp only [if_pos hdenied]
        exact ⟨rfl, rfl⟩
      · by_cases hpath : lock.path ∈ t.byPath.keys
        · simp only [if_neg hdenied, perform_bind, Query.perform_setState, if_pos hpath]
          exact ⟨rfl, rfl⟩
        · simp only [if_neg hdenied, perform_bind, Query.perform_setState, if_neg hpath]
          exact ⟨rfl, rfl⟩

end Registry

end GitLfs
