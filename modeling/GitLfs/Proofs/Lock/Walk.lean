import GitLfs.Proofs.Lock.Ledger
import GitLfs.Proofs.Lock.Page
import Mathlib.Data.List.Sort

/-!
# Walks over all locks

A client asks for one page of locks after the other, and gives the cursor of each page when it asks
for the next. In between, others create and release locks as they like. `fetch_cases` says what one
such request brings. `walk_ordered` and `walk_complete` say by induction on the requests that nothing
comes twice or out of order, and that nothing is left out that stays active all the time;
`walk_under_change` puts that together.
-/

namespace GitLfs.Registry

variable {r : Registry} {s : RegistryState} {cursor : Option String}

/-! ## Walking -/

/-- The two requests that list all locks. -/
inductive Listing where
  | all (ref : Option String)
  | toVerify (ref user : Option String)
  deriving DecidableEq, Repr

/-- The task of listing all locks from a cursor on. -/
def Listing.task (cursor : Option String) (limit : Int) : Listing → Task
  | .all ref => .list none none cursor limit ref
  | .toVerify ref user => .listToVerify ref user cursor limit

/-- What others do before a client asks for a page, and what page it asks for. -/
structure Visit where
  others : List Task
  listing : Listing
  limit : Int
  deriving DecidableEq, Repr

/-- What others did before a client asked for the page at a cursor, and what came of that. -/
structure Fetch where
  others : List Dealing
  cursor : Option String
  call : Dealing

namespace Fetch

/-- The page that the client got. -/
def page? (f : Fetch) : Option LockPage :=
  match f.call.answer with
  | .ok (.page page) => some page
  | _ => none

/-- The locks that the client got. -/
def locks (f : Fetch) : List Lock := (f.page?.map LockPage.locks).getD []

/-- The cursor for the next page. -/
def next? (f : Fetch) : Option String := f.page?.bind LockPage.nextCursor

/-- All that happened to the registry. -/
def dealings (f : Fetch) : List Dealing := f.others ++ [f.call]

end Fetch

/-- One visit with a cursor. -/
def fetch (r : Registry) (s : RegistryState) (cursor : Option String) (v : Visit) : Fetch where
  others := history r.answer s v.others
  cursor := cursor
  call := turn r.answer (final r.answer s v.others) (v.listing.task cursor v.limit)

/-- A walk that starts at a cursor. It ends with a page that names no other, or when the client
gets none. -/
def walk (r : Registry) (s : RegistryState) (cursor : Option String) : List Visit → List Fetch
  | [] => []
  | v :: visits =>
    r.fetch s cursor v ::
      match (r.fetch s cursor v).next? with
      | some next => r.walk (r.fetch s cursor v).call.after (some next) visits
      | none => []

/-! ## One page -/

/-- To list locks changes nothing, and brings the page of the active locks at the cursor. -/
theorem answer_listing (listing : Listing) (cursor : Option String) (limit : Int)
    (s : RegistryState) :
    r.answer (listing.task cursor limit) s =
      (((Paging.page r.pageSize s.table.active cursor limit).mapError .refusal).map .page, s) := by
  cases listing with
  | all ref =>
    have hall : (s.table.active.filter fun l => (none : Option String).all (l.path = ·) &&
        (none : Option String).all (l.id = ·)) = s.table.active := by simp
    rw [Listing.task, answer_list, hall]
  | toVerify ref user => exact r.answer_listToVerify s ref user cursor limit

/-- The lock does not stand in front of a cursor. -/
def From (r : Registry) (cursor : Option String) (l : Lock) : Prop :=
  ∀ c ∈ cursor, ∃ m n, m ≤ n ∧ r.newId m = c ∧ r.newId n = l.id

theorem Earlier.not_from (hinj : Function.Injective r.newId) {l l' : Lock} (h : r.Earlier l l') :
    ¬ r.From (some l'.id) l := by
  intro hfrom
  obtain ⟨m, n, hmn, hm, hn⟩ := h
  obtain ⟨m', n', hle, hm', hn'⟩ := hfrom _ rfl
  have heq : m' = n := hinj (hm'.trans hn.symm)
  have heq' : n' = m := hinj (hn'.trans hm.symm)
  omega

theorem Earlier.from {l l' : Lock} (h : r.Earlier l l') : r.From (some l.id) l' := by
  rintro c ⟨⟩
  obtain ⟨m, n, hmn, hm, hn⟩ := h
  exact ⟨m, n, Nat.le_of_lt hmn, hm, hn⟩

theorem Earlier.trans_from (hinj : Function.Injective r.newId) {l l' l'' : Lock}
    (h : r.Earlier l l') (hfrom : r.From (some l'.id) l'') : r.Earlier l l'' := by
  obtain ⟨m, n, hmn, hm, hn⟩ := h
  obtain ⟨m', n', hle, hm', hn'⟩ := hfrom _ rfl
  have heq : m' = n := hinj (hm'.trans hn.symm)
  exact ⟨m, n', by omega, hm, hn'⟩

theorem From.trans (hinj : Function.Injective r.newId) {l l' : Lock} (h : r.From cursor l)
    (hfrom : r.From (some l.id) l') : r.From cursor l' := by
  intro c hc
  obtain ⟨m, n, hle, hm, hn⟩ := h c hc
  obtain ⟨m', n', hle', hm', hn'⟩ := hfrom _ rfl
  have heq : m' = n := hinj (hm'.trans hn.symm)
  exact ⟨m, n', by omega, hm, hn'⟩

theorem Sound.from_self (hs : r.Sound s) {l : Lock} (hl : l ∈ s.table.active) :
    r.From (some l.id) l := by
  rintro c ⟨⟩
  obtain ⟨-, n, -, hid⟩ := hs.issued l hl
  exact ⟨n, n, Nat.le_refl n, hid, hid⟩

/-- What stands behind a lock in the row of active locks is not in front of it as a cursor. -/
theorem Sound.from_of_mem (hs : r.Sound s) {front rest : List Lock} {l : Lock}
    (hsplit : s.table.active = front ++ l :: rest) : ∀ l' ∈ l :: rest, r.From (some l.id) l' := by
  intro l' hl'
  have hl : l ∈ s.table.active := by rw [hsplit]; simp
  have hpair := hs.ordered
  rw [hsplit, List.pairwise_append, List.pairwise_cons] at hpair
  rcases List.mem_cons.1 hl' with rfl | hl'
  · exact hs.from_self hl
  · exact (hpair.2.1.1 l' hl').from

/-- The cursor, if there is one, is the identifier of an active lock. -/
def Opens (s : RegistryState) (cursor : Option String) : Prop :=
  ∀ c ∈ cursor, ∃ l ∈ s.table.active, l.id = c

/-- The active locks fall into those in front of a cursor and the rest; the page at the cursor has
the first few of the rest. -/
theorem page_eq (hsize : 1 ≤ r.pageSize) (hinj : Function.Injective r.newId) (hs : r.Sound s)
    (hcursor : Opens s cursor) (limit : Int) :
    ∃ front rest size, s.table.active = front ++ rest ∧ 1 ≤ size ∧
      (∀ l ∈ front, ¬ r.From cursor l) ∧ (∀ l ∈ rest, r.From cursor l) ∧
      Paging.page r.pageSize s.table.active cursor limit =
        .ok ⟨rest.take size, (rest.drop size).head?.map Lock.id⟩ := by
  cases cursor with
  | none =>
    refine ⟨[], s.table.active, Paging.room r.pageSize limit, rfl, Paging.room_pos hsize limit,
      fun l hl => (List.not_mem_nil hl).elim, fun l _ c hc => ?_, ?_⟩
    · cases hc
    · have hstart : Paging.startOf ([] ++ s.table.active) none = .ok ([] : List Lock).length := rfl
      exact Paging.page_append hsize limit hstart
  | some c =>
    obtain ⟨l, hl, rfl⟩ := hcursor c rfl
    obtain ⟨front, rest, hsplit⟩ := List.append_of_mem hl
    have hpair := hs.ordered
    rw [hsplit, List.pairwise_append] at hpair
    have hfront : ∀ x ∈ front, r.Earlier x l := fun x hx => hpair.2.2 x hx l List.mem_cons_self
    refine ⟨front, l :: rest, Paging.room r.pageSize limit, hsplit, Paging.room_pos hsize limit,
      fun x hx => (hfront x hx).not_from hinj, hs.from_of_mem hsplit, ?_⟩
    rw [hsplit]
    exact Paging.page_append hsize limit
      (Paging.startOf_append (hs.issued l hl).1 fun x hx => (hfront x hx).ne hinj)

/-! ## One request -/

variable {v : Visit}

theorem Sound.before (hinj : Function.Injective r.newId) (hs : r.Sound s)
    (cursor : Option String) (v : Visit) : r.Sound (r.fetch s cursor v).call.before :=
  (sound_history hinj hs v.others).2

theorem fetch_after (r : Registry) (s : RegistryState) (cursor : Option String) (v : Visit) :
    (r.fetch s cursor v).call.after = (r.fetch s cursor v).call.before := by
  simp only [fetch, turn, answer_listing]

theorem Sound.after (hinj : Function.Injective r.newId) (hs : r.Sound s)
    (cursor : Option String) (v : Visit) : r.Sound (r.fetch s cursor v).call.after := by
  rw [fetch_after]
  exact hs.before hinj cursor v

theorem fetch_opens (hsize : 1 ≤ r.pageSize) (hinj : Function.Injective r.newId) (hs : r.Sound s)
    (hopens : Opens (r.fetch s cursor v).call.before cursor) :
    ∃ front rest size, (r.fetch s cursor v).call.before.table.active = front ++ rest ∧ 1 ≤ size ∧
      (∀ l ∈ front, ¬ r.From cursor l) ∧ (∀ l ∈ rest, r.From cursor l) ∧
      (r.fetch s cursor v).call.answer =
        .ok (.page ⟨rest.take size, (rest.drop size).head?.map Lock.id⟩) := by
  obtain ⟨front, rest, size, hsplit, hpos, hfront, hrest, hpage⟩ :=
    page_eq hsize hinj (hs.before hinj cursor v) hopens v.limit
  refine ⟨front, rest, size, hsplit, hpos, hfront, hrest, ?_⟩
  simp only [fetch, turn, answer_listing] at hpage ⊢
  rw [hpage]
  rfl

theorem fetch_lost {c : String} (hne : c ≠ "")
    (hlost : ∀ l ∈ (r.fetch s (some c) v).call.before.table.active, l.id ≠ c) :
    (r.fetch s (some c) v).call.answer =
      .error (.refusal (.validation ("Invalid cursor: " ++ c))) := by
  have hpage : Paging.page r.pageSize _ _ _ = _ := Paging.page_unknown hne hlost v.limit
  simp only [fetch, turn, answer_listing] at hpage ⊢
  rw [hpage]
  rfl

/-- The cursor of a page is refused exactly when its lock was released in between. -/
theorem fetch_refused (hinj : Function.Injective r.newId)
    (hs : r.Sound s) {c : String} (hopens : Opens s (some c)) (v : Visit) :
    (∃ l ∈ releasedIn (r.fetch s (some c) v).others, l.id = c) ∧
        (r.fetch s (some c) v).call.answer =
          .error (.refusal (.validation ("Invalid cursor: " ++ c))) ∨
      (∀ l ∈ releasedIn (r.fetch s (some c) v).others, l.id ≠ c) ∧
        Opens (r.fetch s (some c) v).call.before (some c) := by
  obtain ⟨l, hl, rfl⟩ := hopens c rfl
  rcases active_or_spent_history hinj hs hl v.others with ⟨hstay, hother⟩ | ⟨hrel, hspent⟩
  · refine Or.inr ⟨hother, ?_⟩
    rintro c ⟨⟩
    exact ⟨l, hstay, rfl⟩
  · exact Or.inl ⟨⟨l, hrel, rfl⟩, fetch_lost (hs.issued l hl).1 hspent.2⟩

/-- What one request brings, when the cursor was good before others did something. -/
theorem fetch_cases (hsize : 1 ≤ r.pageSize) (hinj : Function.Injective r.newId)
    (hs : r.Sound s) (hopens : Opens s cursor) (v : Visit) :
    (∃ c, cursor = some c ∧ (∃ l ∈ releasedIn (r.fetch s cursor v).others, l.id = c) ∧
        (r.fetch s cursor v).call.answer =
          .error (.refusal (.validation ("Invalid cursor: " ++ c)))) ∨
      (∀ c ∈ cursor, ∀ l ∈ releasedIn (r.fetch s cursor v).others, l.id ≠ c) ∧
        ∃ front rest size,
          (r.fetch s cursor v).call.before.table.active = front ++ rest ∧ 1 ≤ size ∧
          (∀ l ∈ front, ¬ r.From cursor l) ∧ (∀ l ∈ rest, r.From cursor l) ∧
          (r.fetch s cursor v).call.answer =
            .ok (.page ⟨rest.take size, (rest.drop size).head?.map Lock.id⟩) := by
  cases cursor with
  | none =>
    have hopens : Opens (r.fetch s none v).call.before none := by rintro c ⟨⟩
    exact Or.inr ⟨by rintro c ⟨⟩, fetch_opens hsize hinj hs hopens⟩
  | some c =>
    rcases fetch_refused hinj hs hopens v with ⟨hrel, hanswer⟩ | ⟨hother, hopens⟩
    · exact Or.inl ⟨c, rfl, hrel, hanswer⟩
    · exact Or.inr ⟨by rintro _ ⟨⟩; exact hother, fetch_opens hsize hinj hs hopens⟩

theorem fetch_page {rest : List Lock} {size : Nat}
    (hanswer : (r.fetch s cursor v).call.answer =
      .ok (.page ⟨rest.take size, (rest.drop size).head?.map Lock.id⟩)) :
    (r.fetch s cursor v).locks = rest.take size ∧
      (r.fetch s cursor v).next? = (rest.drop size).head?.map Lock.id := by
  simp only [Fetch.locks, Fetch.next?, Fetch.page?, hanswer, Option.map_some, Option.getD_some,
    Option.bind_some, and_self]

theorem fetch_error {e : Failure} (hanswer : (r.fetch s cursor v).call.answer = .error e) :
    (r.fetch s cursor v).locks = [] ∧ (r.fetch s cursor v).next? = none := by
  simp only [Fetch.locks, Fetch.next?, Fetch.page?, hanswer, Option.map_none, Option.getD_none,
    Option.bind_none, and_self]

/-- The locks of a page are active when it is asked for. -/
theorem locks_active (hsize : 1 ≤ r.pageSize) (hinj : Function.Injective r.newId)
    (hs : r.Sound s) (hopens : Opens s cursor) :
    ∀ l ∈ (r.fetch s cursor v).locks, l ∈ (r.fetch s cursor v).call.before.table.active := by
  intro l hl
  rcases fetch_cases hsize hinj hs hopens v with ⟨c, -, -, hanswer⟩ |
    ⟨-, front, rest, size, hsplit, -, -, -, hanswer⟩
  · rw [(fetch_error hanswer).1] at hl
    cases hl
  · rw [(fetch_page hanswer).1] at hl
    rw [hsplit]
    exact List.mem_append_right _ (List.mem_of_mem_take hl)

/-- The cursor that a page names is good. -/
theorem opens_next (hsize : 1 ≤ r.pageSize) (hinj : Function.Injective r.newId) (hs : r.Sound s)
    (hopens : Opens s cursor) {next : String} (hnext : (r.fetch s cursor v).next? = some next) :
    Opens (r.fetch s cursor v).call.after (some next) := by
  rintro c ⟨⟩
  rw [fetch_after]
  rcases fetch_cases hsize hinj hs hopens v with ⟨c, -, -, hanswer⟩ |
    ⟨-, front, rest, size, hsplit, -, -, -, hanswer⟩
  · rw [(fetch_error hanswer).2] at hnext
    cases hnext
  · rw [(fetch_page hanswer).2, Option.map_eq_some_iff] at hnext
    obtain ⟨l, hl, hid⟩ := hnext
    refine ⟨l, ?_, hid⟩
    rw [hsplit]
    exact List.mem_append_right _ (List.mem_of_mem_drop (List.mem_of_mem_head? hl))

/-! ## Many requests -/

/-- What holds of each request with a good cursor holds of each request of a walk. -/
theorem walk_forall (hsize : 1 ≤ r.pageSize) (hinj : Function.Injective r.newId)
    {P : Fetch → Prop}
    (hP : ∀ s cursor v, r.Sound s → Opens s cursor → P (r.fetch s cursor v))
    (hs : r.Sound s) (hopens : Opens s cursor) (visits : List Visit) :
    ∀ f ∈ r.walk s cursor visits, P f := by
  induction visits generalizing s cursor with
  | nil => exact fun f hf => (List.not_mem_nil hf).elim
  | cons v visits ih =>
    intro f hf
    rw [walk] at hf
    rcases List.mem_cons.1 hf with rfl | hf
    · exact hP s cursor v hs hopens
    · cases hnext : (r.fetch s cursor v).next? with
      | none =>
        rw [hnext] at hf
        cases hf
      | some next =>
        rw [hnext] at hf
        exact ih (hs.after hinj cursor v) (opens_next hsize hinj hs hopens hnext) f hf

/-- All that happens during a walk is a history of the registry. -/
theorem walk_dealings (r : Registry) (s : RegistryState) (cursor : Option String)
    (visits : List Visit) :
    ∃ tasks, (r.walk s cursor visits).flatMap Fetch.dealings = history r.answer s tasks := by
  induction visits generalizing s cursor with
  | nil => exact ⟨[], rfl⟩
  | cons v visits ih =>
    have hcall : (r.fetch s cursor v).dealings =
        history r.answer s (v.others ++ [v.listing.task cursor v.limit]) := by
      rw [history_append]
      rfl
    rw [walk, List.flatMap_cons, hcall]
    cases (r.fetch s cursor v).next? with
    | none => exact ⟨_, List.append_nil _⟩
    | some next =>
      obtain ⟨tasks, htasks⟩ := ih (r.fetch s cursor v).call.after (some next)
      refine ⟨v.others ++ [v.listing.task cursor v.limit] ++ tasks, ?_⟩
      dsimp only
      rw [htasks, history_append r.answer s _ tasks, final_append]
      rfl

/-- Each request of a walk finds the registry as the tasks before it have left it. -/
theorem before_of_mem_walk {visits : List Visit} {f : Fetch} (hf : f ∈ r.walk s cursor visits) :
    ∃ tasks, f.call.before = final r.answer s tasks := by
  obtain ⟨all, hall⟩ := walk_dealings r s cursor visits
  have hmem : f.call ∈ history r.answer s all := by
    rw [← hall]
    exact List.mem_flatMap.2 ⟨f, hf, List.mem_append_right _ (List.mem_singleton.2 rfl)⟩
  obtain ⟨front, back, -, he⟩ := exists_of_mem_history hmem
  exact ⟨front, congrArg Turn.before he⟩

/-- Of the requests of a walk, the first finds the registry as the others have left it, and those
after it find it as later tasks have left it. -/
theorem before_of_mem_rest {visits : List Visit} {f : Fetch}
    (hf : f ∈ r.walk s cursor (v :: visits)) :
    ∃ tasks, f.call.before = final r.answer (r.fetch s cursor v).call.before tasks := by
  rw [walk] at hf
  rcases List.mem_cons.1 hf with rfl | hf
  · exact ⟨[], rfl⟩
  · cases hnext : (r.fetch s cursor v).next? with
    | none => rw [hnext] at hf; cases hf
    | some next =>
      rw [hnext] at hf
      obtain ⟨tasks, htasks⟩ := before_of_mem_walk hf
      rw [fetch_after] at htasks
      exact ⟨tasks, htasks⟩

/-- The locks of a walk come in the order in which they were made, and none stands in front of the
cursor at which the walk started. -/
theorem walk_ordered (hsize : 1 ≤ r.pageSize) (hinj : Function.Injective r.newId)
    (hs : r.Sound s) (hopens : Opens s cursor) (visits : List Visit) :
    ((r.walk s cursor visits).flatMap Fetch.locks).Pairwise r.Earlier ∧
      ∀ l ∈ (r.walk s cursor visits).flatMap Fetch.locks, r.From cursor l := by
  induction visits generalizing s cursor with
  | nil => exact ⟨List.Pairwise.nil, fun l hl => (List.not_mem_nil hl).elim⟩
  | cons v visits ih =>
    have hbefore := hs.before hinj cursor v
    rw [walk, List.flatMap_cons]
    rcases fetch_cases hsize hinj hs hopens v with ⟨c, -, -, hanswer⟩ |
      ⟨-, front, rest, size, hsplit, hpos, -, hrest, hanswer⟩
    · obtain ⟨hlocks, hnext⟩ := fetch_error hanswer
      rw [hlocks, hnext]
      exact ⟨List.Pairwise.nil, fun l hl => (List.not_mem_nil hl).elim⟩
    · obtain ⟨hlocks, hnext⟩ := fetch_page hanswer
      have hpair : rest.Pairwise r.Earlier := by
        have := hbefore.ordered
        rw [hsplit, List.pairwise_append] at this
        exact this.2.1
      have htake : ∀ l ∈ rest.take size, r.From cursor l := fun l hl =>
        hrest l (List.mem_of_mem_take hl)
      rw [hlocks, hnext]
      cases hdrop : rest.drop size with
      | nil =>
        simp only [List.head?_nil, Option.map_none, List.flatMap_nil, List.append_nil]
        exact ⟨hpair.sublist (List.take_sublist _ _), htake⟩
      | cons l₀ more =>
        have hrestSplit : rest = rest.take size ++ l₀ :: more := by
          rw [← hdrop, List.take_append_drop]
        rw [hrestSplit, List.pairwise_append] at hpair
        have hl₀ : l₀ ∈ rest := by rw [hrestSplit]; simp
        have hnext₀ : (r.fetch s cursor v).next? = some l₀.id := by rw [hnext, hdrop]; rfl
        obtain ⟨hlater, hfrom⟩ := ih (hs.after hinj cursor v)
          (opens_next hsize hinj hs hopens hnext₀)
        simp only [List.head?_cons, Option.map_some]
        refine ⟨List.pairwise_append.2 ⟨hpair.1, hlater, fun l hl l' hl' => ?_⟩, fun l hl => ?_⟩
        · exact (hpair.2.2 l hl l₀ List.mem_cons_self).trans_from hinj (hfrom l' hl')
        · rcases List.mem_append.1 hl with hl | hl
          · exact htake l hl
          · exact (hrest l₀ hl₀).trans hinj (hfrom l hl)

/-- Who is active before others do something, and is active at the end of the walk, is active when
the next page is asked for: locks that are gone do not come back. -/
theorem active_before (hinj : Function.Injective r.newId) (hs : r.Sound s) {visits : List Visit}
    {f : Fetch} (hf : f ∈ r.walk s cursor (v :: visits)) {l : Lock} (hl : l ∈ s.table.active)
    (hin : l ∈ f.call.before.table.active) :
    l ∈ (r.fetch s cursor v).call.before.table.active := by
  rcases active_or_spent_history hinj hs hl v.others with ⟨hstay, -⟩ | ⟨-, hspent⟩
  · exact hstay
  · obtain ⟨tasks, htasks⟩ := before_of_mem_rest hf
    rw [htasks] at hin
    have hgone := (spent_history hinj (hs.before hinj cursor v) hspent tasks).2 l hin
    exact absurd rfl hgone

/-- A page has each active lock that does not stand in front of its cursor, unless it names the
cursor of a page that may have it. -/
theorem mem_page_or_from (hsize : 1 ≤ r.pageSize) (hinj : Function.Injective r.newId)
    (hs : r.Sound s) (hopens : Opens s cursor) {page : LockPage}
    (hpage : (r.fetch s cursor v).page? = some page) {l : Lock}
    (hl : l ∈ (r.fetch s cursor v).call.before.table.active) (hfrom : r.From cursor l) :
    l ∈ (r.fetch s cursor v).locks ∨
      ∃ next, (r.fetch s cursor v).next? = some next ∧ r.From (some next) l := by
  rcases fetch_cases hsize hinj hs hopens v with ⟨c, -, -, hanswer⟩ |
    ⟨-, front, rest, size, hsplit, hpos, hfront, hrest, hanswer⟩
  · rw [Fetch.page?, hanswer] at hpage
    cases hpage
  · obtain ⟨hlocks, hnext⟩ := fetch_page hanswer
    have hrest : l ∈ rest := by
      rw [hsplit, List.mem_append] at hl
      exact hl.resolve_left fun hl => hfront l hl hfrom
    rw [← List.take_append_drop size rest, List.mem_append] at hrest
    rcases hrest with htake | hdrop
    · rw [hlocks]
      exact Or.inl htake
    · obtain ⟨l₀, more, hmore⟩ := List.exists_cons_of_ne_nil (List.ne_nil_of_mem hdrop)
      have hsplit₀ : (r.fetch s cursor v).call.before.table.active =
          (front ++ rest.take size) ++ l₀ :: more := by
        rw [hsplit, List.append_assoc, ← hmore, List.take_append_drop]
      refine Or.inr ⟨l₀.id, by rw [hnext, hmore]; rfl, ?_⟩
      exact (hs.before hinj cursor v).from_of_mem hsplit₀ l (hmore ▸ hdrop)

theorem mem_locks_of_end (hsize : 1 ≤ r.pageSize) (hinj : Function.Injective r.newId)
    (hs : r.Sound s) (hopens : Opens s cursor) {page : LockPage}
    (hpage : (r.fetch s cursor v).page? = some page) (hend : page.nextCursor = none) {l : Lock}
    (hl : l ∈ (r.fetch s cursor v).call.before.table.active) (hfrom : r.From cursor l)
    {visits : List Visit} : l ∈ (r.walk s cursor (v :: visits)).flatMap Fetch.locks := by
  rw [walk, List.flatMap_cons]
  refine List.mem_append_left _ ?_
  rcases mem_page_or_from hsize hinj hs hopens hpage hl hfrom with hl | ⟨next, hnext, -⟩
  · exact hl
  · rw [Fetch.next?, hpage, Option.bind_some, hend] at hnext
    cases hnext

/-- The last request of a walk is its first one, or the last one of the walk that goes on from the
next page. -/
theorem last_cases {visits : List Visit} {last : Fetch}
    (hlast : last ∈ (r.walk s cursor (v :: visits)).getLast?) :
    last = r.fetch s cursor v ∨ ∃ next v' more, visits = v' :: more ∧
      (r.fetch s cursor v).next? = some next ∧
      last ∈ (r.walk (r.fetch s cursor v).call.after (some next) (v' :: more)).getLast? := by
  rw [walk] at hlast
  cases hnext : (r.fetch s cursor v).next? with
  | none =>
    rw [hnext] at hlast
    exact Or.inl (Option.some.inj hlast).symm
  | some next =>
    rw [hnext] at hlast
    cases visits with
    | nil => exact Or.inl (Option.some.inj hlast).symm
    | cons v' more =>
      refine Or.inr ⟨next, v', more, rfl, rfl, ?_⟩
      dsimp only at hlast
      rw [walk] at hlast ⊢
      rwa [List.getLast?_cons_cons] at hlast

/-- A walk that comes to its end has brought each lock that does not stand in front of its start and
was active from the first request to the last. -/
theorem walk_complete (hsize : 1 ≤ r.pageSize) (hinj : Function.Injective r.newId)
    (hs : r.Sound s) (hopens : Opens s cursor) {visits : List Visit} {last : Fetch}
    (hlast : last ∈ (r.walk s cursor (v :: visits)).getLast?) {page : LockPage}
    (hpage : last.page? = some page) (hend : page.nextCursor = none) {l : Lock}
    (hl : l ∈ (r.fetch s cursor v).call.before.table.active) (hfrom : r.From cursor l)
    (hin : l ∈ last.call.before.table.active) :
    l ∈ (r.walk s cursor (v :: visits)).flatMap Fetch.locks := by
  induction visits generalizing s cursor v with
  | nil =>
    rcases last_cases hlast with rfl | ⟨_, _, _, hnil, -⟩
    · exact mem_locks_of_end hsize hinj hs hopens hpage hend hl hfrom
    · cases hnil
  | cons v' visits ih =>
    rcases last_cases hlast with rfl | ⟨next, _, _, ⟨⟩, hnext, hlater⟩
    · exact mem_locks_of_end hsize hinj hs hopens hpage hend hl hfrom
    · obtain ⟨page', hpage', -⟩ := Option.bind_eq_some_iff.1 hnext
      rw [walk, List.flatMap_cons, hnext]
      rcases mem_page_or_from hsize hinj hs hopens hpage' hl hfrom with hl' | ⟨_, hnext', hfrom'⟩
      · exact List.mem_append_left _ hl'
      · obtain rfl := Option.some.inj (hnext.symm.trans hnext')
        have hafter := hs.after hinj cursor v
        rw [← fetch_after] at hl
        have hl' := active_before hinj hafter (List.mem_of_mem_getLast? hlater) hl hin
        exact List.mem_append_right _
          (ih hafter (opens_next hsize hinj hs hopens hnext) hlater hl' hfrom')

/-! ## Walks from the start -/

/-- What a request of a walk brings: its cursor is refused exactly when the lock was released since
the cursor was named; whatever it brings, it changes nothing. -/
def Fetch.Faithful (f : Fetch) : Prop :=
  f.call.after = f.call.before ∧
    (f.cursor = none → ∃ page, f.call.answer = .ok (.page page)) ∧
    ∀ c ∈ f.cursor,
      ((∃ e, f.call.answer = .error e) ↔ ∃ l ∈ releasedIn f.others, l.id = c) ∧
      ∀ e, f.call.answer = .error e → e = .refusal (.validation ("Invalid cursor: " ++ c))

theorem faithful_fetch (hsize : 1 ≤ r.pageSize) (hinj : Function.Injective r.newId)
    (hs : r.Sound s) (hopens : Opens s cursor) (v : Visit) : (r.fetch s cursor v).Faithful := by
  refine ⟨fetch_after r s cursor v, ?_⟩
  rcases fetch_cases hsize hinj hs hopens v with ⟨c, rfl, hrel, hanswer⟩ |
    ⟨hother, front, rest, size, -, -, -, -, hanswer⟩
  · refine ⟨fun hnone => ?_, ?_⟩
    · cases hnone
    · rintro _ ⟨⟩
      refine ⟨⟨fun _ => hrel, fun _ => ⟨_, hanswer⟩⟩, fun e he => ?_⟩
      rw [hanswer] at he
      exact (Except.error.inj he).symm
  · refine ⟨fun _ => ⟨_, hanswer⟩, fun c hc => ?_⟩
    have hok : ∀ e, (r.fetch s cursor v).call.answer ≠ .error e := by
      intro e he
      rw [hanswer] at he
      cases he
    refine ⟨⟨fun ⟨e, he⟩ => absurd he (hok e), fun ⟨l, hl, hid⟩ => ?_⟩,
      fun e he => absurd he (hok e)⟩
    exact absurd hid (hother c hc l hl)

theorem nodup_ids_walk (hsize : 1 ≤ r.pageSize) (hinj : Function.Injective r.newId)
    (hs : r.Sound s) (hopens : Opens s cursor) (visits : List Visit) :
    (((r.walk s cursor visits).flatMap Fetch.locks).map Lock.id).Nodup := by
  obtain ⟨hpair, -⟩ := walk_ordered hsize hinj hs hopens visits
  exact List.pairwise_map.2 (hpair.imp fun h => h.ne hinj)

/-- The locks of a walk are among those that were made, and come in the same order. -/
theorem walk_sublist (hsize : 1 ≤ r.pageSize) (hinj : Function.Injective r.newId)
    (earlier : List Task) (visits : List Visit) :
    ((r.walk (final r.answer .empty earlier) none visits).flatMap Fetch.locks).Sublist
      (madeIn (history r.answer .empty earlier ++
        (r.walk (final r.answer .empty earlier) none visits).flatMap Fetch.dealings)) := by
  have hstart := (sound_history hinj (sound_empty r) earlier).2
  have hopens : Opens (final r.answer .empty earlier) none := by rintro c ⟨⟩
  obtain ⟨hpair, -⟩ := walk_ordered hsize hinj hstart hopens visits
  have hnodup := List.Nodup.of_map _ (nodup_ids_walk hsize hinj hstart hopens visits)
  obtain ⟨tasks, htasks⟩ := walk_dealings r (final r.answer .empty earlier) none visits
  have hdealings : history r.answer .empty earlier ++
      (r.walk (final r.answer .empty earlier) none visits).flatMap Fetch.dealings =
        history r.answer .empty (earlier ++ tasks) := by
    rw [history_append, ← htasks]
  have hactive := walk_forall hsize hinj
    (P := fun f => ∀ l ∈ f.locks, l ∈ f.call.before.table.active)
    (fun s cursor v hs ho => locks_active hsize hinj hs ho) hstart hopens visits
  have hsubset : (r.walk (final r.answer .empty earlier) none visits).flatMap Fetch.locks ⊆
      madeIn (history r.answer .empty (earlier ++ tasks)) := by
    intro l hl
    obtain ⟨f, hf, hl⟩ := List.mem_flatMap.1 hl
    have hcall : f.call ∈ history r.answer .empty (earlier ++ tasks) := by
      rw [← hdealings]
      refine List.mem_append_right _ (List.mem_flatMap.2 ⟨f, hf, ?_⟩)
      exact List.mem_append_right _ (List.mem_singleton.2 rfl)
    exact mem_madeIn_of_mem_history (fresh_history hinj _) hcall (hactive f hf l hl)
  rw [hdealings]
  have hmade := (madeIn_ordered hinj (sound_empty r) (earlier ++ tasks)).1
  have : Std.Antisymm r.Earlier := ⟨fun l l' h h' => absurd h'.from (h.not_from hinj)⟩
  exact List.sublist_of_subperm_of_pairwise (List.subperm_of_subset hnodup hsubset) hpair hmade

/-- A client walks all locks of a registry that never issues an identifier twice, while others do
what they like. No lock comes twice, and the locks come in the order in which they were made. A
cursor is refused exactly when its lock has been released. If the walk comes to its end, then each
lock that was active from the first request to the last has come once. -/
theorem walk_under_change (r : Registry) (hsize : 1 ≤ r.pageSize)
    (hinj : Function.Injective r.newId) (earlier : List Task) (visits : List Visit) :
    let fetches := r.walk (final r.answer .empty earlier) none visits
    let found := fetches.flatMap Fetch.locks
    let dealings := history r.answer .empty earlier ++ fetches.flatMap Fetch.dealings
    (found.map Lock.id).Nodup ∧ found.Sublist (madeIn dealings) ∧
      (∀ f ∈ fetches, f.Faithful) ∧
      ∀ first ∈ fetches.head?, ∀ last ∈ fetches.getLast?, ∀ page,
        last.call.answer = .ok (.page page) → page.nextCursor = none →
          ∀ l ∈ first.call.before.table.active, l ∈ last.call.before.table.active →
            found.count l = 1 := by
  intro fetches found dealings
  have hstart := (sound_history hinj (sound_empty r) earlier).2
  have hopens : Opens (final r.answer .empty earlier) none := by rintro c ⟨⟩
  have hids : (found.map Lock.id).Nodup := nodup_ids_walk hsize hinj hstart hopens visits
  have hnodup : found.Nodup := List.Nodup.of_map _ hids
  refine ⟨hids, walk_sublist hsize hinj earlier visits, ?_, ?_⟩
  · exact walk_forall hsize hinj (fun s cursor v hs ho => faithful_fetch hsize hinj hs ho v)
      hstart hopens visits
  · intro first hfirst last hlast page hanswer hend l hl hin
    refine List.count_eq_one_of_mem hnodup ?_
    cases visits with
    | nil => cases hfirst
    | cons v visits =>
      obtain rfl : r.fetch (final r.answer .empty earlier) none v = first :=
        Option.some.inj hfirst
      have hpage : last.page? = some page := by rw [Fetch.page?, hanswer]
      refine walk_complete hsize hinj hstart hopens hlast hpage hend hl ?_ hin
      rintro c ⟨⟩

/-- Three locks of ann's. -/
def stock : List Task :=
  [.create "a" none (some "ann"), .create "b" none (some "ann"), .create "c" none (some "ann")]

/-- A walk during which the first lock is released and another one is made. -/
def tour : List Visit :=
  [⟨[], .all none, 1⟩, ⟨[.delete "i" none (some "ann") false], .toVerify none (some "bob"), 1⟩,
    ⟨[.create "d" none (some "bob")], .all none, 0⟩]

theorem walk_under_change_tour :
    1 ≤ sample.pageSize ∧ Function.Injective sample.newId ∧
      (((sample.walk (final sample.answer .empty stock) none tour).flatMap Fetch.locks).map
        Lock.id).Nodup ∧
      ((sample.walk (final sample.answer .empty stock) none tour).flatMap Fetch.locks).map
        Lock.path = ["a", "b", "c", "d"] := by
  have hsize : 1 ≤ sample.pageSize := by decide
  exact ⟨hsize, sample_newId_injective,
    (walk_under_change sample hsize sample_newId_injective stock tour).1, by decide⟩

end GitLfs.Registry
