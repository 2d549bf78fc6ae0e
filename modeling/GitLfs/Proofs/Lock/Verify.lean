import GitLfs.Proofs.Lock.Browse
import GitLfs.Proofs.Lock.Custody

/-!
# Ours and theirs before a push

A client that is about to push asks for all locks and gets those of the user apart from the others.
`step_verify` says that this is the listing of all locks, page by page, cut in two by their owners:
where the listing fails the request fails alike, and no lock is lost or told twice.

`cuts_verifyAll` says the same of a client that follows the cursors from page to page, so what is
known of browsing holds of it too. `ours_and_theirs` puts both together.
-/

namespace GitLfs

/-! ## Whose a lock is -/

/-- The user has a name, and the lock was made for it. -/
def Owns (user : Option String) (l : Lock) : Prop :=
  ∃ name, user = some name ∧ l.ownerName = some name

theorem owns_iff {user : Option String} {l : Lock} :
    Owns user l ↔ (user.isSome && decide (l.ownerName = user)) = true := by
  unfold Owns
  cases user with
  | none => simp
  | some name => simp

instance (user : Option String) : DecidablePred (Owns user) := fun _ =>
  decidable_of_iff _ owns_iff.symm

/-- Nobody without a name owns a lock. -/
theorem not_owns_none (l : Lock) : ¬ Owns none l := by
  rintro ⟨name, hname, -⟩
  cases hname

namespace Locking

variable {σ : Type} {s : Locking σ} {r : Registry} {part : σ → RegistryState}
  {update : RegistryState → σ → σ} {p : Progress σ} {ref : Option Ref}
  {user path cursor : Option String} {limit : Int}

theorem split_eq (page : LockPage) (user : Option String) :
    split page user =
      ⟨page.locks.filter (Owns user ·), page.locks.filter (¬ Owns user ·), page.nextCursor⟩ := by
  have hmine : ∀ l : Lock, (user.isSome && decide (l.ownerName = user)) = decide (Owns user l) :=
    fun l => Bool.eq_iff_iff.2 (by rw [← owns_iff, decide_eq_true_eq])
  unfold split
  simp only [hmine, decide_not]

/-! ## One request -/

/-- The listing of all locks, page by page. -/
def listing (r : Registry) (b : RegistryState) (cursor : Option String) (limit : Int) :
    Except Failure LockPage :=
  (Paging.page r.pageSize b.table.active cursor limit).mapError .refusal

/-- To ask for locks without a path and an identifier is to ask for the listing. -/
theorem answer_list_all (r : Registry) (b : RegistryState) (cursor : Option String) (limit : Int)
    (refspec : Option String) :
    r.answer (.list none none cursor limit refspec) b =
      ((listing r b cursor limit).map .page, b) := by
  have hall : (b.table.active.filter fun l => (none : Option String).all (l.path = ·) &&
      (none : Option String).all (l.id = ·)) = b.table.active := by simp
  rw [Registry.answer_list, hall]
  rfl

/-- So it is to ask for the locks that matter before a push. -/
theorem answer_listToVerify (r : Registry) (b : RegistryState) (ref user : Option String)
    (cursor : Option String) (limit : Int) :
    r.answer (.listToVerify ref user cursor limit) b =
      ((listing r b cursor limit).map .page, b) :=
  r.answer_listToVerify b ref user cursor limit

/-- A request before a push that is let in is the listing, cut in two, and changes nothing. -/
theorem step_verify (h : s.Over r part update)
    (ha : s.Admits (.verify ⟨ref, cursor, limit⟩ user path) p) :
    (s.step (.verify ⟨ref, cursor, limit⟩ user path) p).1 =
        (listing r (part p.state) cursor limit).map (fun page => .split (split page user)) ∧
      part (s.step (.verify ⟨ref, cursor, limit⟩ user path) p).2.state = part p.state := by
  obtain ⟨hanswer, hstate⟩ := step_of_admits h ha
  rw [Task.onRegistry, answer_listToVerify] at hanswer hstate
  refine ⟨hanswer.trans ?_, hstate⟩
  cases listing r (part p.state) cursor limit <;> rfl

/-! ## From page to page -/

/-- What came of a request, and how far the service had come before and after. -/
abbrev Visit (σ : Type) := Turn (Progress σ) Task (Except Failure Reply)

/-- The page that a request before a push brought. -/
def split? (t : Visit σ) : Option VerifyPage :=
  match t.answer with
  | .ok (.split page) => some page
  | _ => none

/-- The locks of the user that a request brought. -/
def ours (t : Visit σ) : List Lock := (split? t).elim [] VerifyPage.ours

/-- The locks of others that a request brought. -/
def theirs (t : Visit σ) : List Lock := (split? t).elim [] VerifyPage.theirs

/-- The cursor of the page behind the one that a request brought. -/
def following? (t : Visit σ) : Option String := (split? t).bind VerifyPage.nextCursor

/-- What a client does before a push that has a limit for each of its requests, from a cursor on. It
stops at a page that names no other. -/
def verifyAll (s : Locking σ) (ref : Option Ref) (user path : Option String) (p : Progress σ)
    (cursor : Option String) : List Int → List (Visit σ)
  | [] => []
  | limit :: limits =>
    turn s.step p (.verify ⟨ref, cursor, limit⟩ user path) ::
      match following? (turn s.step p (.verify ⟨ref, cursor, limit⟩ user path)) with
      | some next =>
        s.verifyAll ref user path
          (turn s.step p (.verify ⟨ref, cursor, limit⟩ user path)).after (some next) limits
      | none => []

/-- A visit brought what a dealing with the registry brought, cut in two. -/
def Cuts (user : Option String) (t : Visit σ) (t' : Registry.Dealing) : Prop :=
  ∃ x : Except Failure LockPage, t.answer = x.map (fun page => .split (split page user)) ∧
    t'.answer = x.map .page

namespace Cuts

variable {t : Visit σ} {t' : Registry.Dealing}

theorem ours_eq (h : Cuts user t t') : ours t = (Registry.found t').filter (Owns user ·) := by
  obtain ⟨x, ht, ht'⟩ := h
  unfold ours split? Registry.found Registry.page?
  rw [ht, ht']
  cases x with
  | error e => rfl
  | ok page => exact congrArg VerifyPage.ours (split_eq page user)

theorem theirs_eq (h : Cuts user t t') : theirs t = (Registry.found t').filter (¬ Owns user ·) := by
  obtain ⟨x, ht, ht'⟩ := h
  unfold theirs split? Registry.found Registry.page?
  rw [ht, ht']
  cases x with
  | error e => rfl
  | ok page => exact congrArg VerifyPage.theirs (split_eq page user)

theorem following?_eq (h : Cuts user t t') : following? t = Registry.next? t' := by
  obtain ⟨x, ht, ht'⟩ := h
  unfold following? split? Registry.next? Registry.page?
  rw [ht, ht']
  cases x <;> rfl

end Cuts

/-- A client that is let in every time gets what it would get by browsing all locks, each page cut in
two. -/
theorem cuts_verifyAll (h : s.Over r part update) (limits : List Int)
    (hadmits : ∀ t ∈ s.verifyAll ref user path p cursor limits, s.Admits t.input t.before) :
    List.Forall₂ (Cuts user) (s.verifyAll ref user path p cursor limits)
      (r.browse (.toVerify (Ref.name? ref) user) (part p.state) cursor limits) := by
  induction limits generalizing p cursor with
  | nil => exact .nil
  | cons limit limits ih =>
    have hadmitted : s.Admits (.verify ⟨ref, cursor, limit⟩ user path) p :=
      hadmits _ List.mem_cons_self
    obtain ⟨hanswer, hstate⟩ := step_verify h hadmitted
    have hdealing : turn r.answer (part p.state)
        ((Registry.Search.toVerify (Ref.name? ref) user).task cursor limit) =
          ⟨part p.state, .listToVerify (Ref.name? ref) user cursor limit,
            (listing r (part p.state) cursor limit).map .page, part p.state⟩ := by
      simp only [turn, Registry.Search.task, answer_listToVerify]
    have hcuts : Cuts user (turn s.step p (.verify ⟨ref, cursor, limit⟩ user path))
        ⟨part p.state, .listToVerify (Ref.name? ref) user cursor limit,
          (listing r (part p.state) cursor limit).map .page, part p.state⟩ := ⟨_, hanswer, rfl⟩
    rw [Registry.browse, hdealing]
    rw [verifyAll, hcuts.following?_eq] at hadmits ⊢
    refine .cons hcuts ?_
    cases hnext : Registry.next? (⟨part p.state, .listToVerify (Ref.name? ref) user cursor limit,
        (listing r (part p.state) cursor limit).map .page, part p.state⟩ : Registry.Dealing) with
    | none => exact .nil
    | some next =>
      rw [hnext] at hadmits
      have hlater := ih (p := (s.step (.verify ⟨ref, cursor, limit⟩ user path) p).2)
        fun t ht => hadmits t (List.mem_cons_of_mem _ ht)
      rw [hstate] at hlater
      exact hlater

/-- Each visit is one request before a push, in the name of the same user. -/
theorem input_of_mem_verifyAll {limits : List Int} {t : Visit σ}
    (ht : t ∈ s.verifyAll ref user path p cursor limits) :
    ∃ cursor limit, t.input = .verify ⟨ref, cursor, limit⟩ user path := by
  induction limits generalizing p cursor with
  | nil => exact (List.not_mem_nil ht).elim
  | cons limit limits ih =>
    rw [verifyAll] at ht
    rcases List.mem_cons.1 ht with rfl | ht
    · exact ⟨cursor, limit, rfl⟩
    · split at ht
      · exact ih ht
      · exact (List.not_mem_nil ht).elim

section cuts

variable {visits : List (Visit σ)} {dealings : List Registry.Dealing}

/-- Visits and dealings that agree one by one in something give the same row of it. -/
theorem map_eq_of_cuts {α : Type} {f : Visit σ → α} {g : Registry.Dealing → α}
    (h : List.Forall₂ (Cuts user) visits dealings) (hfg : ∀ t t', Cuts user t t' → f t = g t') :
    visits.map f = dealings.map g := by
  rw [← List.forall₂_eq_eq_eq, List.forall₂_map_left_iff, List.forall₂_map_right_iff]
  exact h.imp hfg

/-- All that a client is told to own is what the user owns of all that is found. -/
theorem flatMap_ours (h : List.Forall₂ (Cuts user) visits dealings) :
    visits.flatMap ours = (dealings.flatMap Registry.found).filter (Owns user ·) := by
  rw [List.filter_flatMap, List.flatMap_def, List.flatMap_def,
    map_eq_of_cuts h fun _ _ hcuts => hcuts.ours_eq]

theorem flatMap_theirs (h : List.Forall₂ (Cuts user) visits dealings) :
    visits.flatMap theirs = (dealings.flatMap Registry.found).filter (¬ Owns user ·) := by
  rw [List.filter_flatMap, List.flatMap_def, List.flatMap_def,
    map_eq_of_cuts h fun _ _ hcuts => hcuts.theirs_eq]

/-- A client comes to a last page when browsing does. -/
theorem last_iff (h : List.Forall₂ (Cuts user) visits dealings) :
    (∃ t ∈ visits.getLast?, following? t = none) ↔
      ∃ t ∈ dealings.getLast?, Registry.next? t = none := by
  have hlast : visits.getLast?.map following? = dealings.getLast?.map Registry.next? := by
    rw [← List.getLast?_map, ← List.getLast?_map,
      map_eq_of_cuts h fun _ _ hcuts => hcuts.following?_eq]
  have hvisits : (∃ t ∈ visits.getLast?, following? t = none) ↔
      visits.getLast?.map following? = some none := by simp
  have hdealings : (∃ t ∈ dealings.getLast?, Registry.next? t = none) ↔
      dealings.getLast?.map Registry.next? = some none := by simp
  rw [hvisits, hdealings, hlast]

end cuts

/-- A user asks for the locks that matter before a push, in a registry after any tasks.

A request that is let in fails when the listing of all locks fails, and in the same way. Otherwise it
brings the page of that listing with the locks of the user apart from the others, both in their order,
and with the same cursor; nobody without a name owns any of them. Nothing is changed.

Where a lock is allowed on a page, a client that is let in each time comes to a last page, and then the
locks that it was told to be its own, page after page, are the active locks of the user in their order,
and the others are all other active locks. As long as fresh identifiers were drawn, the active locks are
those that were made and not released, in the order in which they were made. -/
theorem ours_and_theirs (s : Locking σ) (r : Registry) (part : σ → RegistryState)
    (update : RegistryState → σ → σ) (h : s.Over r part update) (earlier : List Registry.Task)
    (p : Progress σ) (hstate : part p.state = final r.answer .empty earlier) (ref : Option Ref)
    (user path : Option String) :
    (∀ cursor limit refspec, s.Admits (.verify ⟨ref, cursor, limit⟩ user path) p →
      let listed := r.answer (.list none none cursor limit refspec) (part p.state)
      let verified := s.step (.verify ⟨ref, cursor, limit⟩ user path) p
      ((∃ e, listed.1 = .error e ∧ verified.1 = .error e) ∨
        ∃ page ours theirs, listed.1 = .ok (.page page) ∧
          verified.1 = .ok (.split ⟨ours, theirs, page.nextCursor⟩) ∧
          ours = page.locks.filter (Owns user ·) ∧ theirs = page.locks.filter (¬ Owns user ·) ∧
          (ours ++ theirs).Perm page.locks ∧ (user = none → ours = [])) ∧
      part verified.2.state = part p.state) ∧
    (1 ≤ r.pageSize → ∀ limits,
      let visits := s.verifyAll ref user path p none limits
      (∀ t ∈ visits, s.Admits t.input t.before) →
      (max 1 (activeIn part p).length ≤ limits.length →
        ∃ t ∈ visits.getLast?, following? t = none) ∧
      ((∃ t ∈ visits.getLast?, following? t = none) →
        visits.flatMap ours = (activeIn part p).filter (Owns user ·) ∧
        visits.flatMap theirs = (activeIn part p).filter (¬ Owns user ·))) ∧
    ((∀ t ∈ history r.answer .empty earlier, r.Fresh t) →
      activeIn part p = Registry.outstanding (history r.answer .empty earlier)) := by
  have horderly : Registry.Orderly (part p.state) := by
    rw [hstate]
    exact Registry.orderly_final r earlier
  refine ⟨fun cursor limit refspec ha => ?_, fun hsize limits => ?_, fun hfresh => ?_⟩
  · obtain ⟨hanswer, hafter⟩ := step_verify h ha
    have hlisted := answer_list_all r (part p.state) cursor limit refspec
    refine ⟨?_, hafter⟩
    rw [hanswer, hlisted]
    cases listing r (part p.state) cursor limit with
    | error e => exact .inl ⟨e, rfl, rfl⟩
    | ok page =>
      refine .inr ⟨page, _, _, rfl, congrArg (Except.ok ∘ Reply.split) (split_eq page user), rfl,
        rfl, ?_, ?_⟩
      · simpa only [decide_not] using List.filter_append_perm (Owns user ·) page.locks
      · rintro rfl
        exact List.filter_eq_nil_iff.2 fun l _ => by simpa using not_owns_none l
  · intro visits hadmits
    have hcuts := cuts_verifyAll h limits hadmits
    have hall : (part p.state).table.active.filter
        (Registry.Search.toVerify (Ref.name? ref) user).finds = [] ++ activeIn part p :=
      List.filter_eq_self.2 fun _ _ => rfl
    have hbrowsed : Registry.Browsed r (part p.state) (activeIn part p) limits
        (r.browse (.toVerify (Ref.name? ref) user) (part p.state) none limits) :=
      Registry.browsed_browse hsize horderly.indexed.nodup_ids horderly.id_ne hall rfl limits
    refine ⟨fun hlimits => (last_iff hcuts).2 (hbrowsed.ends hsize hlimits), fun hlast => ?_⟩
    rw [flatMap_ours hcuts, flatMap_theirs hcuts, hbrowsed.found_eq ((last_iff hcuts).1 hlast)]
    exact ⟨rfl, rfl⟩
  · unfold activeIn
    rw [hstate]
    exact Registry.active_final LockTable.consistent_empty hfresh

/-- The service in front of a registry that holds locks of two users. -/
def halves : Progress RegistryState :=
  .start (final Registry.sample.answer .empty Registry.leftovers) .debug

theorem ours_and_theirs_desk :
    desk.Over .sample id (fun x _ => x) ∧
      halves.state = final Registry.sample.answer .empty Registry.leftovers ∧
      desk.Admits (.verify ⟨none, none, 2⟩ (some "ann") none) halves ∧
      1 ≤ Registry.sample.pageSize ∧
      ((desk.verifyAll none (some "ann") none halves none [2, 0, 5]).flatMap ours).map Lock.path =
        ["c"] ∧
      ((desk.verifyAll none (some "ann") none halves none [2, 0, 5]).flatMap theirs).map Lock.path =
        ["b", "a"] := by
  have hadmitted : ∀ cursor limit q,
      desk.Admits (.verify ⟨none, cursor, limit⟩ (some "ann") none) q := fun _ _ _ => ⟨_, rfl⟩
  have hadmits : ∀ t ∈ desk.verifyAll none (some "ann") none halves none [2, 0, 5],
      desk.Admits t.input t.before := by
    intro t ht
    obtain ⟨cursor, limit, hinput⟩ := input_of_mem_verifyAll ht
    rw [hinput]
    exact hadmitted cursor limit t.before
  have hsize : 1 ≤ Registry.sample.pageSize := by decide
  have hwalk := (ours_and_theirs desk .sample _ _ over_desk Registry.leftovers halves rfl none
    (some "ann") none).2.1 hsize [2, 0, 5] hadmits
  obtain ⟨hours, htheirs⟩ := hwalk.2 (hwalk.1 (by decide))
  refine ⟨over_desk, rfl, hadmitted _ _ _, hsize, ?_, ?_⟩
  · rw [hours]
    decide
  · rw [htheirs]
    decide

end Locking

end GitLfs
