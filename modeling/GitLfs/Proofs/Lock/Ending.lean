import GitLfs.Proofs.Deployment
import GitLfs.Proofs.Lock.Browse

/-!
# When browsing comes to an end

A client that asks for one page after the other comes to a last page when the settings allow at least
one lock on a page: `named_of_next` says that no page that names another one is empty, and that it
names the lock right behind it. When the settings allow none, or fewer than none, each page names
another one as long as there is anything to look for: `never_last`. No settings are refused for their
page size, so both happen; `browsing_ends_iff` says which happens when.
-/

namespace GitLfs

/-! ## One page -/

namespace Paging

variable {pageSize : Int} {locks : List Lock} {cursor : Option String} {start : Nat}

/-- A bound that is not behind a place in a list is not behind the list. -/
theorem boundIn_lt {length : Nat} {bound : Int} (hstart : start < length) (hbound : bound ≤ start) :
    boundIn length bound < length := by
  unfold boundIn
  split <;> omega

theorem sizeFor_nonpos (h : pageSize ≤ 0) (limit : Int) : sizeFor pageSize limit ≤ 0 := by
  unfold sizeFor
  split <;> omega

/-- Where no lock is allowed on a page, a page that starts at a lock names another lock. -/
theorem page_of_nonpos (h : pageSize ≤ 0) (limit : Int) (hstart : startOf locks cursor = .ok start)
    (hlt : start < locks.length) :
    ∃ shown, ∃ l ∈ locks, page pageSize locks cursor limit = .ok ⟨shown, some l.id⟩ := by
  have hsize := sizeFor_nonpos h limit
  have hbound : boundIn locks.length (start + sizeFor pageSize limit) < locks.length :=
    boundIn_lt hlt (by omega)
  unfold page
  rw [hstart]
  dsimp only
  unfold sliceFrom
  rw [List.drop_eq_getElem_cons hbound]
  exact ⟨_, _, List.getElem_mem hbound, rfl⟩

/-- The identifier of a lock of a listing is a cursor for it. -/
theorem startOf_of_mem {l : Lock} (hl : l ∈ locks) (hne : l.id ≠ "") :
    ∃ start < locks.length, startOf locks (some l.id) = .ok start := by
  unfold startOf
  dsimp only
  rw [if_neg hne]
  cases hfind : locks.findIdx? (fun x => x.id = l.id) with
  | none => exact absurd rfl (of_decide_eq_false (List.findIdx?_eq_none_iff.1 hfind l hl))
  | some start =>
    obtain ⟨hlt, -⟩ := List.findIdx?_eq_some_iff_getElem.1 hfind
    exact ⟨start, hlt, rfl⟩

theorem startOf_le (h : startOf locks cursor = .ok start) : start ≤ locks.length := by
  unfold startOf at h
  split at h
  · cases h
    exact Nat.zero_le _
  · split at h
    · cases h
      exact Nat.zero_le _
    · split at h
      · next hfind =>
        cases h
        obtain ⟨hlt, -⟩ := List.findIdx?_eq_some_iff_getElem.1 hfind
        exact Nat.le_of_lt hlt
      · cases h

end Paging

namespace Registry

variable {r : Registry} {s : RegistryState} {q : Search} {locks : List Lock}
  {cursor : Option String} {limits : List Int} {t : Dealing}

/-- The last visit of a client brought a page that names no other one. -/
def Ends (visits : List Dealing) : Prop := ∃ t ∈ visits.getLast?, next? t = none

/-- Whoever looks for something that is not there sees that at once. -/
theorem ends_of_nothing (hmatching : s.table.active.filter q.finds = []) :
    Ends (r.browse q s none [0]) := by
  have hpage : Paging.page r.pageSize [] none 0 = .ok ⟨[], none⟩ := by
    simp [Paging.page, Paging.startOf, Paging.slice, Paging.sliceFrom]
  have hturn : turn r.answer s (q.task none 0) =
      ⟨s, q.task none 0, .ok (.page ⟨[], none⟩), s⟩ := by
    simp only [turn, answer_search, hmatching, hpage]
    rfl
  rw [browse, hturn]
  exact ⟨_, rfl, rfl⟩

/-! ## Page sizes below one -/

/-- Where no lock is allowed on a page, a client that looks for something never comes to a last page,
whatever its limits are. -/
theorem never_last (hsize : r.pageSize ≤ 0) (hne : ∀ l ∈ locks, l.id ≠ "")
    (hmatching : s.table.active.filter q.finds = locks)
    (hstart : ∃ start < locks.length, Paging.startOf locks cursor = .ok start)
    (limits : List Int) :
    (r.browse q s cursor limits).length = limits.length ∧
      ∀ t ∈ r.browse q s cursor limits, next? t ≠ none := by
  induction limits generalizing cursor with
  | nil => exact ⟨rfl, fun t ht => (List.not_mem_nil ht).elim⟩
  | cons limit limits ih =>
    obtain ⟨start, hlt, hstart⟩ := hstart
    obtain ⟨shown, l, hl, hpage⟩ := Paging.page_of_nonpos hsize limit hstart hlt
    have hturn : turn r.answer s (q.task cursor limit) =
        ⟨s, q.task cursor limit, .ok (.page ⟨shown, some l.id⟩), s⟩ := by
      simp only [turn, answer_search, hmatching, hpage]
      rfl
    obtain ⟨hlength, hnext⟩ := ih (Paging.startOf_of_mem hl (hne l hl))
    rw [browse, hturn]
    refine ⟨congrArg Nat.succ hlength, fun t ht => ?_⟩
    rcases List.mem_cons.1 ht with rfl | ht
    · exact Option.some_ne_none _
    · exact hnext t ht

/-! ## Page sizes from one on -/

/-- Each visit of a client is one search, in the state that the client started from. -/
theorem search_of_mem_browse (ht : t ∈ r.browse q s cursor limits) :
    ∃ cursor limit, t = turn r.answer s (q.task cursor limit) := by
  induction limits generalizing cursor with
  | nil => exact (List.not_mem_nil ht).elim
  | cons limit limits ih =>
    have hafter : (turn r.answer s (q.task cursor limit)).after = s := by
      simp only [turn, answer_search]
    rw [browse, hafter] at ht
    rcases List.mem_cons.1 ht with rfl | ht
    · exact ⟨cursor, limit, rfl⟩
    · split at ht
      · exact ih ht
      · exact (List.not_mem_nil ht).elim

/-- A page that names another one has a lock on it, and the lock that it names stands right behind
the last lock on it. -/
theorem named_of_next (hsize : 1 ≤ r.pageSize) (hmatching : s.table.active.filter q.finds = locks)
    (ht : t ∈ r.browse q s cursor limits) {next : String} (hnext : next? t = some next) :
    ∃ front first more l back, locks = front ++ (first :: more) ++ l :: back ∧
      found t = first :: more ∧ l.id = next := by
  obtain ⟨cursor, limit, rfl⟩ := search_of_mem_browse ht
  have hanswer : (turn r.answer s (q.task cursor limit)).answer =
      ((Paging.page r.pageSize locks cursor limit).mapError .refusal).map .page := by
    simp only [turn, answer_search, hmatching]
  cases hstart : Paging.startOf locks cursor with
  | error e =>
    have hpage : Paging.page r.pageSize locks cursor limit = .error e := by
      unfold Paging.page
      rw [hstart]
    rw [hpage] at hanswer
    simp only [next?, page?, hanswer, Except.mapError, Except.map, Option.bind_none] at hnext
    cases hnext
  | ok start =>
    -- the listing is cut where the page starts
    have hcut : locks.take start ++ locks.drop start = locks := List.take_append_drop _ _
    have hfront : (locks.take start).length = start :=
      List.length_take_of_le (Paging.startOf_le hstart)
    have hroom := Paging.room_pos hsize limit
    generalize hrest : locks.drop start = rest at hcut
    have hstart' : Paging.startOf (locks.take start ++ rest) cursor =
        .ok (locks.take start).length := by
      rw [hcut, hstart, hfront]
    have hpage := Paging.page_append hsize limit hstart'
    rw [hcut] at hpage
    rw [hpage] at hanswer
    obtain ⟨hfound, hnamed⟩ := found_of_answer hanswer
    rw [hnamed] at hnext
    obtain ⟨l, hl, hid⟩ := Option.map_eq_some_iff.1 hnext
    obtain ⟨back, hback⟩ := List.head?_eq_some_iff.1 hl
    have hsplit : rest.take (Paging.room r.pageSize limit) ++ l :: back = rest := by
      rw [← hback]
      exact List.take_append_drop _ _
    cases hshown : rest.take (Paging.room r.pageSize limit) with
    | nil =>
      rw [List.take_eq_nil_iff] at hshown
      rcases hshown with hshown | rfl
      · omega
      · rw [List.drop_nil] at hback
        cases hback
    | cons first more =>
      refine ⟨locks.take start, first, more, l, back, ?_, hfound.trans hshown, hid⟩
      rw [List.append_assoc, ← hshown, hsplit, hcut]

end Registry

/-! ## Settings -/

namespace Deployment

variable {host : Host} {c : Config} {d : Deployment} {r : Registry}

/-- The lock registry of a deployment has the page size of the settings, whatever that is. -/
theorem pageSize_of_ofConfig (h : ofConfig host c = .ok d) (hr : d.registry = some r) :
    r.pageSize = c.lockPageSize := by
  by_cases hbackend : c.backend.toList.map Char.toLower = "inmemory".toList
  · obtain ⟨repository, hd⟩ := registry_of_ofConfig h hbackend
    obtain rfl := Option.some.inj (hr.symm.trans hd)
    rfl
  · unfold ofConfig at h
    dsimp only at h
    rw [if_neg hbackend] at h
    split at h
    · cases h
      cases hr
    · cases h

/-- Settings with collaborators in memory make a lock registry, which has been dealt with and is then
left alone. A client that looks for locks in it comes to a page that names no other one if the
settings allow a lock on a page, or if there is nothing to look for, and otherwise never. In the first
case it has then got all that it looks for, no page on the way is without locks, and each page names
the lock behind its last one. In the other case each page names another one, however many the client
asks for. -/
theorem browsing_ends_iff (h : ofConfig host c = .ok d) (hr : d.registry = some r)
    (earlier : List Registry.Task)
    (hfresh : ∀ t ∈ history r.answer .empty earlier, r.Fresh t) (q : Registry.Search) :
    let s := final r.answer .empty earlier
    let matching := (Registry.outstanding (history r.answer .empty earlier)).filter q.finds
    let visits := r.browse q s none
    ((∃ limits, Registry.Ends (visits limits)) ↔ 1 ≤ c.lockPageSize ∨ matching = []) ∧
    (1 ≤ c.lockPageSize → ∀ limits,
      (max 1 matching.length ≤ limits.length →
        Registry.Ends (visits limits) ∧ (visits limits).flatMap Registry.found = matching) ∧
      ∀ t ∈ visits limits, ∀ next, Registry.next? t = some next →
        ∃ front first more l back, matching = front ++ (first :: more) ++ l :: back ∧
          Registry.found t = first :: more ∧ l.id = next) ∧
    (c.lockPageSize ≤ 0 → matching ≠ [] → ∀ limits,
      (visits limits).length = limits.length ∧ ∀ t ∈ visits limits, Registry.next? t ≠ none) := by
  intro s matching visits
  have hsize : r.pageSize = c.lockPageSize := pageSize_of_ofConfig h hr
  have hstart : RegistryState.empty.table.Consistent := LockTable.consistent_empty
  obtain ⟨-, hc⟩ := Registry.consistent_history hstart hfresh
  have hactive : s.table.active = Registry.outstanding (history r.answer .empty earlier) :=
    Registry.active_final hstart hfresh
  have hmatching : s.table.active.filter q.finds = matching := by rw [hactive]
  have hids : (matching.map Lock.id).Nodup := by
    rw [← hmatching]
    exact hc.nodup_ids.sublist (List.filter_sublist.map _)
  have hne : ∀ l ∈ matching, l.id ≠ "" := fun l hl =>
    Registry.id_ne_of_fresh hfresh l (hactive ▸ (List.mem_filter.1 hl).1)
  have hpositive : 1 ≤ c.lockPageSize → ∀ limits : List Int, max 1 matching.length ≤ limits.length →
      Registry.Ends (visits limits) ∧ (visits limits).flatMap Registry.found = matching := by
    intro hpos limits hlimits
    rw [← hsize] at hpos
    have hfirst : Paging.startOf ([] ++ matching) none = .ok ([] : List Lock).length := rfl
    have hbrowsed : Registry.Browsed r s matching limits (visits limits) :=
      Registry.browsed_browse hpos hids hne hmatching hfirst limits
    have hends := hbrowsed.ends hpos hlimits
    exact ⟨hends, hbrowsed.found_eq hends⟩
  have hnonpos : c.lockPageSize ≤ 0 → matching ≠ [] → ∀ limits : List Int,
      (visits limits).length = limits.length ∧
        ∀ t ∈ visits limits, Registry.next? t ≠ none := by
    intro hneg hsome limits
    rw [← hsize] at hneg
    exact Registry.never_last hneg hne hmatching ⟨0, List.length_pos_iff.2 hsome, rfl⟩ limits
  refine ⟨⟨?_, ?_⟩, fun hpos limits => ⟨hpositive hpos limits, fun t ht next hnext => ?_⟩, hnonpos⟩
  · rintro ⟨limits, t, ht, hlast⟩
    by_contra hneither
    rw [not_or] at hneither
    have ht' : t ∈ visits limits := List.mem_of_getLast? ht
    exact (hnonpos (by omega) hneither.2 limits).2 t ht' hlast
  · rintro (hpos | hnone)
    · exact ⟨List.replicate (max 1 matching.length) 0, (hpositive hpos _ (by simp)).1⟩
    · exact ⟨[0], Registry.ends_of_nothing (hmatching.trans hnone)⟩
  · rw [← hsize] at hpos
    exact Registry.named_of_next hpos hmatching ht hnext

/-- Three of four locks are left, and two fit on a page: the client needs two requests. -/
theorem browsing_ends_iff_staff :
    ofConfig Http.Gateway.porter Http.Gateway.settings = .ok Http.Gateway.staff ∧
      Http.Gateway.staff.registry = some Registry.sample ∧
      (∀ t ∈ history Registry.sample.answer .empty Registry.leftovers, Registry.sample.Fresh t) ∧
      ((Registry.sample.browse (.toVerify none none)
        (final Registry.sample.answer .empty Registry.leftovers) none [0, 9, 0]).flatMap
          Registry.found).map Lock.path = ["b", "c", "a"] := by
  have hmade : ofConfig Http.Gateway.porter Http.Gateway.settings = .ok Http.Gateway.staff := rfl
  have hfresh := Registry.fresh_history Registry.sample_newId_injective Registry.leftovers
  have h := browsing_ends_iff hmade rfl Registry.leftovers hfresh (.toVerify none none)
  refine ⟨hmade, rfl, hfresh, ?_⟩
  rw [((h.2.1 (by decide) [0, 9, 0]).1 (by decide)).2]
  decide

/-- The registry of settings that allow no lock on a page. -/
def cramped : Registry := { Registry.sample with pageSize := 0 }

/-- Nobody who looks for the only lock of such a registry ever comes to a last page. -/
theorem endless_cramped :
    (∃ d, ofConfig Http.Gateway.porter { Http.Gateway.settings with lockPageSize := 0 } = .ok d ∧
      d.registry = some cramped) ∧
      (final cramped.answer .empty [.create "a" none (some "ann")]).table.active.map Lock.path =
        ["a"] ∧
      ∀ limits, ¬ Registry.Ends (cramped.browse (.matching none none none)
        (final cramped.answer .empty [.create "a" none (some "ann")]) none limits) := by
  refine ⟨⟨_, rfl, rfl⟩, by decide, fun limits => ?_⟩
  rintro ⟨t, ht, hlast⟩
  have hnext := (Registry.never_last (r := cramped) (by decide) (by decide) rfl
    ⟨0, by decide, rfl⟩ limits).2 t (List.mem_of_getLast? ht)
  exact hnext hlast

end Deployment

end GitLfs
