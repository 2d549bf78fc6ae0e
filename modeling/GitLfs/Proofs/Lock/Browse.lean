import GitLfs.Proofs.Lock.Ledger
import GitLfs.Proofs.Lock.Page

/-!
# Browsing a table that nobody changes

A client looks for some of the locks, asks for one page after the other, each with a limit of its
own, and gives the cursor of each page when it asks for the next. `Browsed` is what then comes of
the locks that are looked for: each request takes as many of them off the front as there is room for,
and the last one takes the rest. `browsed_browse` says that this is what a registry does;
`browse_complete` puts together what follows from it by induction on `Browsed`.
-/

namespace GitLfs.Registry

variable {r : Registry} {s : RegistryState} {q : Search} {locks : List Lock} {limit : Int}
  {limits : List Int} {t : Dealing} {visits : List Dealing}

/-! ## Looking for locks -/

/-- What a client looks for when it asks for locks. -/
inductive Search where
  /-- The locks on a path and with an identifier, where these are given. -/
  | matching (path id ref : Option String)
  /-- All locks, before a push. -/
  | toVerify (ref user : Option String)
  deriving DecidableEq, Repr

namespace Search

/-- The task of asking for a page of what is looked for. -/
def task (cursor : Option String) (limit : Int) : Search → Task
  | .matching path id ref => .list path id cursor limit ref
  | .toVerify ref user => .listToVerify ref user cursor limit

/-- The lock is one of those that are looked for. -/
def finds : Search → Lock → Bool
  | .matching path id _, l => path.all (l.path = ·) && id.all (l.id = ·)
  | .toVerify _ _, _ => true

end Search

/-- The page that a dealing brought. -/
def page? (t : Dealing) : Option LockPage :=
  match t.answer with
  | .ok (.page page) => some page
  | _ => none

/-- The locks that a dealing brought. -/
def found (t : Dealing) : List Lock := (page? t).elim [] LockPage.locks

/-- The cursor of the page after the one that a dealing brought. -/
def next? (t : Dealing) : Option String := (page? t).bind LockPage.nextCursor

/-- What a client does who has a limit for each of its requests, from a cursor on. It stops at a page
that names no other. -/
def browse (r : Registry) (q : Search) (s : RegistryState) (cursor : Option String) :
    List Int → List Dealing
  | [] => []
  | limit :: limits =>
    turn r.answer s (q.task cursor limit) ::
      match next? (turn r.answer s (q.task cursor limit)) with
      | some next =>
        r.browse q (turn r.answer s (q.task cursor limit)).after (some next) limits
      | none => []

/-- To look for locks changes nothing, and brings a page of those that are looked for. -/
theorem answer_search (q : Search) (cursor : Option String) (limit : Int) (s : RegistryState) :
    r.answer (q.task cursor limit) s =
      (((Paging.page r.pageSize (s.table.active.filter q.finds) cursor limit).mapError
        .refusal).map .page, s) := by
  cases q with
  | matching path id ref => exact r.answer_list s path id cursor limit ref
  | toVerify ref user =>
    have hall : s.table.active.filter (Search.toVerify ref user).finds = s.table.active :=
      List.filter_eq_self.2 fun _ _ => rfl
    rw [hall]
    exact r.answer_listToVerify s ref user cursor limit

/-! ## What comes of the locks -/

/-- A client with these limits gets these locks by these dealings, all of them in one state: each page
takes what there is room for off the front and names another page, and the last one takes the rest.
It may run out of limits before. -/
inductive Browsed (r : Registry) (s : RegistryState) :
    List Lock → List Int → List Dealing → Prop where
  | idle {locks : List Lock} : Browsed r s locks [] []
  | last {locks : List Lock} {limit : Int} {limits : List Int} {t : Dealing}
      (fits : locks.length ≤ Paging.room r.pageSize limit)
      (answer : t.answer = .ok (.page ⟨locks, none⟩)) (after : t.after = s) :
      Browsed r s locks (limit :: limits) [t]
  | more {locks : List Lock} {limit : Int} {limits : List Int} {t : Dealing}
      {visits : List Dealing} {next : String}
      (exceeds : Paging.room r.pageSize limit < locks.length)
      (answer : t.answer = .ok (.page ⟨locks.take (Paging.room r.pageSize limit), some next⟩))
      (after : t.after = s)
      (later : Browsed r s (locks.drop (Paging.room r.pageSize limit)) limits visits) :
      Browsed r s locks (limit :: limits) (t :: visits)

theorem found_of_answer {page : LockPage} (h : t.answer = .ok (.page page)) :
    found t = page.locks ∧ next? t = page.nextCursor := by
  simp only [found, next?, page?, h, Option.elim_some, Option.bind_some, and_self]

/-- A registry brings the locks that are looked for page by page. The cursor stands between those that
the client has got already and the others. -/
theorem browsed_browse (hsize : 1 ≤ r.pageSize) {front rest : List Lock} {cursor : Option String}
    (hids : ((front ++ rest).map Lock.id).Nodup) (hne : ∀ l ∈ rest, l.id ≠ "")
    (hmatching : s.table.active.filter q.finds = front ++ rest)
    (hcursor : Paging.startOf (front ++ rest) cursor = .ok front.length) (limits : List Int) :
    Browsed r s rest limits (r.browse q s cursor limits) := by
  induction limits generalizing front rest cursor with
  | nil => exact .idle
  | cons limit limits ih =>
    have hturn : turn r.answer s (q.task cursor limit) = ⟨s, q.task cursor limit,
        .ok (.page ⟨rest.take (Paging.room r.pageSize limit),
          (rest.drop (Paging.room r.pageSize limit)).head?.map Lock.id⟩), s⟩ := by
      simp only [turn, answer_search, hmatching]
      rw [Paging.page_append hsize limit hcursor]
      rfl
    rw [browse, hturn]
    cases hdrop : rest.drop (Paging.room r.pageSize limit) with
    | nil =>
      have hle : rest.length ≤ Paging.room r.pageSize limit := List.drop_eq_nil_iff.1 hdrop
      rw [List.take_of_length_le hle]
      exact .last hle rfl rfl
    | cons l more =>
      have hlt : Paging.room r.pageSize limit < rest.length := by
        by_contra hle
        rw [List.drop_eq_nil_of_le (Nat.le_of_not_lt hle)] at hdrop
        cases hdrop
      -- what is left starts with the lock that the page names
      have hsplit : front ++ rest =
          (front ++ rest.take (Paging.room r.pageSize limit)) ++ l :: more := by
        rw [List.append_assoc, ← hdrop, List.take_append_drop]
      have hl : l ∈ rest := by
        apply List.mem_of_mem_drop (i := Paging.room r.pageSize limit)
        rw [hdrop]
        exact List.mem_cons_self
      have hfront : ∀ x ∈ front ++ rest.take (Paging.room r.pageSize limit), x.id ≠ l.id := by
        rw [hsplit, List.map_append, List.nodup_append] at hids
        intro x hx
        exact hids.2.2 x.id (List.mem_map_of_mem hx) l.id (by simp)
      have hrest : ∀ x ∈ l :: more, x.id ≠ "" := fun x hx =>
        hne x (List.mem_of_mem_drop (hdrop ▸ hx))
      have hstart : Paging.startOf ((front ++ rest.take (Paging.room r.pageSize limit)) ++ l :: more)
          (some l.id) = .ok (front ++ rest.take (Paging.room r.pageSize limit)).length :=
        Paging.startOf_append (hne l hl) hfront
      refine .more hlt rfl rfl ?_
      rw [hdrop]
      exact ih (hsplit ▸ hids) hrest (hmatching.trans hsplit) hstart

namespace Browsed

/-- Each request brings a page, and changes nothing. -/
theorem page (h : Browsed r s locks limits visits) :
    ∀ t ∈ visits, (∃ page, t.answer = .ok (.page page)) ∧ t.after = s := by
  induction h with
  | idle => exact fun t ht => (List.not_mem_nil ht).elim
  | last fits answer after =>
    intro t ht
    obtain rfl := List.mem_singleton.1 ht
    exact ⟨⟨_, answer⟩, after⟩
  | more exceeds answer after later ih =>
    intro t ht
    rcases List.mem_cons.1 ht with rfl | ht
    · exact ⟨⟨_, answer⟩, after⟩
    · exact ih t ht

/-- No page but the first is empty. -/
theorem length_le (hsize : 1 ≤ r.pageSize) (h : Browsed r s locks limits visits) :
    visits.length ≤ max 1 locks.length := by
  induction h with
  | idle => exact Nat.zero_le _
  | last fits answer after => exact Nat.le_max_left _ _
  | @more locks limit limits t visits next exceeds answer after later ih =>
    have hroom := Paging.room_pos hsize limit
    rw [List.length_drop] at ih
    rw [List.length_cons]
    omega

/-- A client with enough limits comes to the last page. -/
theorem ends (hsize : 1 ≤ r.pageSize) (h : Browsed r s locks limits visits)
    (hlimits : max 1 locks.length ≤ limits.length) : ∃ t ∈ visits.getLast?, next? t = none := by
  induction h with
  | idle => exact absurd (Nat.le_trans (Nat.le_max_left _ _) hlimits) (by simp)
  | last fits answer after => exact ⟨_, rfl, (found_of_answer answer).2⟩
  | @more locks limit limits t visits next exceeds answer after later ih =>
    have hroom := Paging.room_pos hsize limit
    rw [List.length_cons] at hlimits
    obtain ⟨last, hlast, hnext⟩ := ih (by rw [List.length_drop]; omega)
    cases visits with
    | nil => cases hlast
    | cons t' visits => exact ⟨last, by rwa [List.getLast?_cons_cons], hnext⟩

/-- What the client has got, in order, is the front of what is looked for. -/
theorem prefix_found (h : Browsed r s locks limits visits) : visits.flatMap found <+: locks := by
  induction h with
  | idle => exact List.nil_prefix
  | @last locks limit limits t fits answer after =>
    have hall : [t].flatMap found = locks := by
      rw [List.flatMap_singleton, (found_of_answer answer).1]
    exact hall ▸ List.prefix_rfl
  | @more locks limit limits t visits next exceeds answer after later ih =>
    rw [List.flatMap_cons, (found_of_answer answer).1]
    calc locks.take (Paging.room r.pageSize limit) ++ visits.flatMap found
        <+: locks.take (Paging.room r.pageSize limit) ++
          locks.drop (Paging.room r.pageSize limit) := (List.prefix_append_right_inj _).2 ih
      _ = locks := List.take_append_drop _ _

/-- Whoever has come to the last page has got everything that is looked for. -/
theorem found_eq (h : Browsed r s locks limits visits)
    (hlast : ∃ t ∈ visits.getLast?, next? t = none) : visits.flatMap found = locks := by
  induction h with
  | idle => obtain ⟨t, ht, -⟩ := hlast; cases ht
  | last fits answer after => rw [List.flatMap_singleton, (found_of_answer answer).1]
  | @more locks limit limits t visits next exceeds answer after later ih =>
    rw [List.flatMap_cons, (found_of_answer answer).1]
    obtain ⟨last, hlast, hnext⟩ := hlast
    cases visits with
    | nil =>
      obtain rfl : t = last := Option.some.inj hlast
      rw [(found_of_answer answer).2] at hnext
      cases hnext
    | cons t' visits =>
      rw [List.getLast?_cons_cons] at hlast
      rw [ih ⟨last, hlast, hnext⟩, List.take_append_drop]

/-- The size of each page, and whether it names another one, by what the pages in front of it have
left. -/
theorem page_size {front back : List Dealing} (h : Browsed r s locks limits (front ++ t :: back)) :
    ∃ limit, limits[front.length]? = some limit ∧
      (found t).length =
        min (Paging.room r.pageSize limit) (locks.length - (front.flatMap found).length) ∧
      (next? t = none ↔ (found t).length = locks.length - (front.flatMap found).length) := by
  induction front generalizing locks limits with
  | nil =>
    cases h with
    | @last _ limit _ _ fits answer after =>
      obtain ⟨hfound, hnext⟩ := found_of_answer answer
      refine ⟨limit, rfl, ?_, ?_⟩
      · simp [hfound, fits]
      · simp [hfound, hnext]
    | @more _ limit _ _ _ _ exceeds answer after later =>
      obtain ⟨hfound, hnext⟩ := found_of_answer answer
      refine ⟨limit, rfl, ?_, ?_⟩
      · simp [hfound]
      · simp [hfound, hnext]
        omega
  | cons t' front ih =>
    rw [List.cons_append] at h
    generalize hrest : front ++ t :: back = visits at h
    cases h with
    | last fits answer after => exact absurd hrest (by simp)
    | @more _ limit _ _ _ _ exceeds answer after later =>
      obtain ⟨limit', hlimit', hsize, hnext⟩ := ih (hrest ▸ later)
      obtain ⟨hfound, -⟩ := found_of_answer answer
      have hleft : (locks.drop (Paging.room r.pageSize limit)).length -
          (front.flatMap found).length =
            locks.length - ((t' :: front).flatMap found).length := by
        rw [List.flatMap_cons, List.length_append, hfound, List.length_take, List.length_drop]
        omega
      rw [hleft] at hsize hnext
      exact ⟨limit', hlimit', hsize, hnext⟩

end Browsed

/-! ## Browsing what is left of a history -/

/-- No lock gets an empty identifier. -/
theorem id_ne_of_fresh {tasks : List Task}
    (hfresh : ∀ t ∈ history r.answer .empty tasks, r.Fresh t) :
    ∀ l ∈ (final r.answer .empty tasks).table.active, l.id ≠ "" := by
  obtain ⟨hall, -⟩ := consistent_history LockTable.consistent_empty hfresh
  refine (history_invariant (I := fun s : RegistryState => ∀ l ∈ s.table.active, l.id ≠ "")
    (fun l hl => (List.not_mem_nil hl).elim) fun t ht hb => ?_).2
  have hd : r.Does t := by rw [eq_turn_of_mem_history ht]; exact does_turn (hall t ht) _
  intro l hl
  rw [hd.active_eq (hall t ht) (hfresh t ht), List.mem_append, List.mem_filter,
    Option.mem_toList] at hl
  rcases hl with ⟨hl, -⟩ | hl
  · exact hb l hl
  · exact (hd.of_made hl).2.1

/-- A client looks for locks in a registry that has never drawn the identifier of an active lock, and
nobody else does anything meanwhile. Each request brings a page. The client needs at most one request
for each lock, and one if there is none; then it has got the locks that were made and not released,
as far as they are looked for, each once and in the order in which they were made. A page holds as
many of the remaining ones as the limit and the registry allow, and names no other page exactly when
it has them all. -/
theorem browse_complete (r : Registry) (hsize : 1 ≤ r.pageSize) (earlier : List Task)
    (hfresh : ∀ t ∈ history r.answer .empty earlier, r.Fresh t) (q : Search)
    (limits : List Int) :
    let s := final r.answer .empty earlier
    let matching := (outstanding (history r.answer .empty earlier)).filter q.finds
    let visits := r.browse q s none limits
    (matching.map Lock.id).Nodup ∧
    (∀ t ∈ visits, (∃ page, t.answer = .ok (.page page)) ∧ t.after = s) ∧
    visits.length ≤ max 1 matching.length ∧
    visits.flatMap found <+: matching ∧
    (max 1 matching.length ≤ limits.length →
      (∃ t ∈ visits.getLast?, next? t = none) ∧ visits.flatMap found = matching) ∧
    ∀ front t back, visits = front ++ t :: back →
      ∃ limit, limits[front.length]? = some limit ∧
        let remaining := matching.length - (front.flatMap found).length
        ((found t).length : Int) =
          min (if limit ≤ 0 then r.pageSize else min limit r.pageSize) remaining ∧
        (next? t = none ↔ (found t).length = remaining) := by
  intro s matching visits
  have hstart : RegistryState.empty.table.Consistent := LockTable.consistent_empty
  obtain ⟨-, hc⟩ := consistent_history hstart hfresh
  have hactive : s.table.active = outstanding (history r.answer .empty earlier) :=
    active_final hstart hfresh
  have hmatching : s.table.active.filter q.finds = [] ++ matching := by rw [hactive]; rfl
  have hids : (matching.map Lock.id).Nodup := by
    have hnodup := hc.nodup_ids
    rw [hactive] at hnodup
    exact hnodup.sublist (List.filter_sublist.map _)
  have hne : ∀ l ∈ matching, l.id ≠ "" := fun l hl =>
    id_ne_of_fresh hfresh l (hactive ▸ (List.mem_filter.1 hl).1)
  have hb : Browsed r s matching limits visits :=
    browsed_browse hsize hids hne hmatching rfl limits
  refine ⟨hids, hb.page, hb.length_le hsize, hb.prefix_found, fun hlimits => ?_,
    fun front t back hvisits => ?_⟩
  · have hlast := hb.ends hsize hlimits
    exact ⟨hlast, hb.found_eq hlast⟩
  · rw [hvisits] at hb
    obtain ⟨limit, hlimit, hfound, hnext⟩ := hb.page_size
    refine ⟨limit, hlimit, ?_, hnext⟩
    have hroom : (if limit ≤ 0 then r.pageSize else min limit r.pageSize) =
        Paging.room r.pageSize limit := Paging.sizeFor_eq hsize limit
    rw [hfound, hroom]
    omega

/-- Three locks, one of which is released before somebody browses. -/
def leftovers : List Task :=
  [.create "a" none (some "ann"), .create "b" none (some "bob"), .create "c" none (some "ann"),
    .delete "i" none (some "ann") false, .create "a" none (some "bob")]

theorem browse_complete_leftovers :
    1 ≤ sample.pageSize ∧ (∀ t ∈ history sample.answer .empty leftovers, sample.Fresh t) ∧
      ((sample.browse (.matching none none none) (final sample.answer .empty leftovers) none
        [1, -1, 7]).flatMap found).map Lock.path = ["b", "c", "a"] ∧
      (sample.browse (.matching none none none) (final sample.answer .empty leftovers) none
        [1, -1, 7]).length = 2 := by
  have hsize : 1 ≤ sample.pageSize := by decide
  have hfresh := fresh_history sample_newId_injective leftovers
  have h := browse_complete sample hsize leftovers hfresh (.matching none none none) [1, -1, 7]
  refine ⟨hsize, hfresh, ?_, by decide⟩
  rw [(h.2.2.2.2.1 (by decide)).2]
  decide

end GitLfs.Registry
