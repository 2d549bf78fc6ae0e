import Mathlib.Algebra.Ring.Int.Defs
import GitLfs.Proofs.Http.Address
import GitLfs.Proofs.Http.Admission
import GitLfs.Proofs.Http.Shape
import GitLfs.Proofs.Lock.Undo

/-!
# Over HTTP too, making a lock can be undone

Where no gate is in the way, a request to the locking service does what one task does on the registry:
`serve_locks`. A request that is answered with 201 has made a lock that was new (`exists_made`); whoever
looks for it finds it alone (`serve_picked`), its owner releases it (`serve_release`), and from then on
listings are as if it had never been made (`same_listings`). `release_undoes_creation` says all of
that about each lock that is made in the course of any requests.
-/

namespace GitLfs

variable {σ : Type} {r : Registry} {part : σ → RegistryState} {update : RegistryState → σ → σ}

/-- Nobody is kept from the locks, and one registry keeps those of all repositories. -/
def Locking.Open (s : Locking σ) (r : Registry) (part : σ → RegistryState)
    (update : RegistryState → σ → σ) : Prop :=
  s = ⟨.fixed none, .fixed (some (r.keeper.focus part update))⟩

theorem Locking.Open.admits {s : Locking σ} (h : s.Open r part update) (task : Task)
    (p : Progress σ) : s.Admits task p := by
  rw [h]
  cases task <;> exact ⟨_, rfl⟩

namespace Http.Gateway

variable {g : Gateway σ} {request : Request} {endpoint : Endpoint} {tail fresh : String}
  {response : Response} {p p' q : Progress σ} {t : LockTable} {l : Lock}
  {batchMount mount : String}

/-! ## One request -/

/-- The response that shows what came of a task on a registry, if it can be shown. -/
def told (task : Locking.Task) (outcome : Except Failure Registry.Reply) :
    Except Failure Response :=
  Response.ofOutcome ((outcome.map task.reply).map replied)

/-- A request that the locking service lets in does one task on the registry. -/
theorem serve_admitted (h : g.Over r part update) {task : Locking.Task}
    (hrouted : g.routing request = .found endpoint tail)
    (hasks : Asks request endpoint tail (.locks task)) (fresh : String) {p : Progress σ}
    (hadmits : g.locking.Admits task (started fresh request p)) :
    let answer := r.answer (task.onRegistry r) (part p.state)
    ∃ q, perform (g.serve fresh request) p =
        (.ok (delivered (requestIdOf request fresh) (told task answer.1)), q) ∧
      part q.state = answer.2 := by
  intro answer
  obtain ⟨q, hq, hstate, -⟩ := serve_of_asks hrouted hasks fresh p
  obtain ⟨houtcome, hpart⟩ := Locking.step_of_admits h.locking hadmits
  unfold Locking.step at houtcome hpart
  rw [state_started] at houtcome hpart
  rw [fulfil, perform_map_eq] at hq hstate
  dsimp only at hq hstate
  rw [houtcome] at hq
  exact ⟨q, hq, by rw [hstate, hpart]⟩

/-- Where no gate is in the way, a request that asks for something of the locking service does one task
on the registry. -/
theorem serve_locks (h : g.Over r part update) (hopen : g.locking.Open r part update)
    {task : Locking.Task} (hrouted : g.routing request = .found endpoint tail)
    (hasks : Asks request endpoint tail (.locks task)) (fresh : String) (p : Progress σ) :
    let answer := r.answer (task.onRegistry r) (part p.state)
    ∃ q, perform (g.serve fresh request) p =
        (.ok (delivered (requestIdOf request fresh) (told task answer.1)), q) ∧
      part q.state = answer.2 :=
  serve_admitted h hrouted hasks fresh (hopen.admits task _)

/-- A response 201 tells of a lock that was new, and that belongs to the one who made the request. -/
theorem exists_made (h : g.Over r part update) (hopen : g.locking.Open r part update)
    (hc : (part p.state).table.Consistent)
    (hserve : perform (g.serve fresh request) p = (.ok response, q))
    (hfresh : Fresh r (part p.state) (part q.state)) (h201 : response.status = 201) :
    ∃ l name, request.principal = .ok (some name) ∧ l.ownerName = some name ∧
      (part p.state).table.New l ∧ response.body = bodyOf l ∧
      (part q.state).table = (part p.state).table.add l := by
  have hrouted : ∃ tail, g.routing request = .found .createLock tail := by
    obtain ⟨response', q', hserve', htold⟩ := told_serve h hc fresh request
    obtain ⟨rfl, rfl⟩ : response = response' ∧ q = q' := by
      cases hserve.symm.trans hserve'
      exact ⟨rfl, rfl⟩
    generalize part q.state = c at htold
    cases htold with
    | created routed => exact ⟨_, routed⟩
    | released _ status => exact absurd (status.symm.trans h201) (by decide)
    | kept _ not_created => exact absurd h201 not_created
  obtain ⟨tail, hrouted⟩ := hrouted
  cases hfault : firstFault? request .createLock tail with
  | some e =>
    obtain ⟨told, q', htold, hq, -, -⟩ := serve_of_fault hrouted hfault fresh p
    cases hserve.symm.trans hq
    have hstatus := le_status_ofFailure htold
    have h201 : told.status = 201 := h201
    omega
  | none =>
    obtain ⟨demand, hasks⟩ := exists_asks (by decide) hfault
    cases hasks with
    | @create _ user body who hbody =>
      obtain ⟨q', hq, hstate⟩ := serve_locks h hopen hrouted (.create who hbody) fresh p
      have heffect := r.effect_answer (part p.state) hc
        (.create body.path (Ref.name? body.ref) user)
      unfold Locking.Task.onRegistry at hq hstate
      generalize (r.answer _ _).1 = outcome at hq heffect
      generalize (r.answer _ _).2 = after at hstate heffect
      cases hserve.symm.trans hq
      cases heffect with
      | failed => exact absurd h201 (status_delivered _ _).2
      | @created _ _ name time named allowed free path_ne id_ne clock =>
        refine ⟨r.drawnLock (part p.state) body.path name time, name, who, rfl,
          ⟨id_ne, path_ne, ?_, hc.byPath_eq_none_iff.1 free⟩, rfl, ?_⟩
        · rw [hstate] at hfresh
          exact hfresh (Nat.succ_ne_self _)
        · rw [hstate]

/-! ## Looking for a lock -/

/-- The body of a page that shows one lock and no more. -/
def pageOf (l : Lock) : Body := .json (.object [("locks", .list [l.encode.withoutNulls])])

theorem body_page (l : Lock) :
    (Response.carrying 200 (LockPage.encode ⟨[l], none⟩)).body = pageOf l := by
  simp [Response.carrying, Response.json, pageOf, LockPage.encode, Json.Value.withoutNulls,
    Json.Value.membersWithoutNulls, Json.Value.listWithoutNulls, Json.Value.optional]

/-- Whoever looks for a new lock by its path or its identifier finds it alone. -/
theorem serve_picked (h : g.Over r part update) (hopen : g.locking.Open r part update)
    (hsize : 1 ≤ r.pageSize) (hnew : t.New l) (ht : t.Consistent)
    (htable : (part p.state).table = t.add l)
    (hrouted : g.routing request = .found .listLocks tail) {someone : Option String}
    (hwho : request.principal = .ok someone) {query : LockQuery}
    (hread : LockQuery.ofQuery request.query = .ok query) (hpicks : query.Picks l)
    (fresh : String) :
    ∃ response q, perform (g.serve fresh request) p = (.ok response, q) ∧ response.status = 200 ∧
      response.body = pageOf l := by
  obtain ⟨q, hq, -⟩ := serve_locks h hopen hrouted (.list hwho hread) fresh p
  unfold Locking.Task.onRegistry at hq
  rw [Registry.answer_list_picked hsize hnew ht htable hpicks] at hq
  exact ⟨_, q, hq, rfl, body_page l⟩

/-- A request for locks whose query cannot be read is told why, and no collaborator is called. -/
theorem serve_unread (hrouted : g.routing request = .found .listLocks tail)
    {someone : Option String} (hwho : request.principal = .ok someone) {e : Failure}
    (hread : LockQuery.ofQuery request.query = .error e) (fresh : String) (p : Progress σ) :
    ∃ response q, Response.ofFailure e = .ok response ∧ perform (g.serve fresh request) p =
        (.ok (response.withHeader requestIdHeader (requestIdOf request fresh)), q) ∧
      q.state = p.state ∧ q.calls = p.calls := by
  have hfault : firstFault? request .listLocks tail = some e := by
    rw [firstFault?_eq]
    simp [Stage.fault?, hwho, hread, Except.mapError, Http.failure?]
  exact serve_of_fault hrouted hfault fresh p

/-! ## Releasing it -/

/-- The owner of a lock releases it by a request without a body. -/
theorem serve_release (h : g.Over r part update) (hopen : g.locking.Open r part update)
    (hc : (part p.state).table.Consistent) (hl : l ∈ (part p.state).table.active)
    (hrouted : g.routing request = .found .releaseLock tail)
    (hid : Lock.idOfUnlockPath tail = .ok l.id) (hwho : request.principal = .ok l.ownerName)
    (hbody : request.body = []) (fresh : String) :
    ∃ response q, perform (g.serve fresh request) p = (.ok response, q) ∧ response.status = 200 ∧
      response.body = bodyOf l ∧ (part q.state).table = (part p.state).table.remove l := by
  have hread : parseBody ReleaseRequest.decode true request.body = .ok ⟨false, none⟩ := by
    rw [hbody]
    rfl
  obtain ⟨q, hq, hstate⟩ := serve_locks h hopen hrouted (.release hwho hid hread) fresh p
  unfold Locking.Task.onRegistry at hq hstate
  rw [Registry.answer_delete_own hc hl] at hq hstate
  exact ⟨_, q, hq, rfl, rfl, by rw [hstate]⟩

/-! ## Everything after it -/

/-- Where the table is the same, so is what becomes of it and what is told about it, as long as no lock
is made. -/
theorem serve_congr (h : g.Over r part update) (hopen : g.locking.Open r part update)
    (htable : (part p.state).table = (part p'.state).table)
    (hmakes : ∀ tail, g.routing request ≠ .found .createLock tail) (fresh : String) :
    ∃ response response' q q', perform (g.serve fresh request) p = (.ok response, q) ∧
      perform (g.serve fresh request) p' = (.ok response', q') ∧
      (part q.state).table = (part q'.state).table ∧
      ((∀ tail, g.routing request ≠ .found .batch tail) → response = response') := by
  cases hunserved : g.unserved? request with
  | some response =>
    obtain ⟨q, hq, hstate⟩ := perform_unserved hunserved fresh p
    obtain ⟨q', hq', hstate'⟩ := perform_unserved hunserved fresh p'
    exact ⟨_, _, q, q', hq, hq', by rw [hstate, hstate', htable], fun _ => rfl⟩
  | none =>
    obtain ⟨endpoint, tail, hrouted, hendpoint⟩ := routed_of_unserved? hunserved
    cases hfault : firstFault? request endpoint tail with
    | some e =>
      obtain ⟨told, q, htold, hq, hstate, -⟩ := serve_of_fault hrouted hfault fresh p
      obtain ⟨told', q', htold', hq', hstate', -⟩ := serve_of_fault hrouted hfault fresh p'
      cases htold.symm.trans htold'
      exact ⟨_, _, q, q', hq, hq', by rw [hstate, hstate', htable], fun _ => rfl⟩
    | none =>
      obtain ⟨demand, hasks⟩ := exists_asks hendpoint hfault
      cases demand with
      | batch task =>
        have hkeeps : Service.Keeps part (g.fulfil (.batch task)) :=
          (Exchange.keeps_batch h.exchange _ _ _ _).bind fun _ => Service.Keeps.ofExcept _
        have hbatch : endpoint = .batch := by
          cases hasks
          rfl
        obtain ⟨q, hq, hstate, -⟩ := serve_of_asks hrouted hasks fresh p
        obtain ⟨q', hq', hstate', -⟩ := serve_of_asks hrouted hasks fresh p'
        refine ⟨_, _, q, q', hq, hq', ?_, fun hnot => absurd hrouted ?_⟩
        · have hkept := hkeeps (started fresh request p)
          have hkept' := hkeeps (started fresh request p')
          dsimp only at hkept hkept'
          rw [hstate, hstate', hkept, hkept', state_started, state_started, htable]
        · rw [hbatch]
          exact hnot tail
      | locks task =>
        have htask : ∀ path ref user, task.onRegistry r ≠ .create path ref user := by
          cases hasks with
          | create => exact absurd hrouted (hmakes tail)
          | list | verify | release => intro path ref user heq; cases heq
        obtain ⟨q, hq, hstate⟩ := serve_locks h hopen hrouted hasks fresh p
        obtain ⟨q', hq', hstate'⟩ := serve_locks h hopen hrouted hasks fresh p'
        obtain ⟨houtcome, hafter⟩ := Registry.answer_congr (r := r) htable htask
        refine ⟨_, _, q, q', hq, hq', by rw [hstate, hstate', hafter], fun _ => ?_⟩
        rw [houtcome]

/-- Two visits by one request, with one answer if it asks for locks. -/
def SameListing (mount : String) (t t' : Visit σ) : Prop :=
  t.input = t'.input ∧
    (IsListing mount t.input.2 ∨ IsVerifying mount t.input.2 → t.answer = t'.answer)

section

variable (hbatch : g.batchMount = Pattern.ofText batchMount)
  (hlock : g.lockMount = Pattern.ofText mount)

include hbatch hlock

theorem routing_of_listing (hlisting : IsListing mount request) :
    ∃ tail, g.routing request = .found .listLocks tail := by
  rw [routing_eq hbatch hlock, hlisting.1]
  exact hlisting.2.found

theorem routing_of_verifying (hverifying : IsVerifying mount request) :
    ∃ tail, g.routing request = .found .verifyLocks tail := by
  rw [routing_eq hbatch hlock, hverifying.1]
  exact hverifying.2.found

theorem routing_of_unlocking
    (hnames : (Pattern.ofText (mount ++ belowLocksPath)).repeatedNames = []) {id : String}
    (hunlocking : IsUnlocking mount id request) :
    ∃ tail, g.routing request = .found .releaseLock tail ∧ Lock.idOfUnlockPath tail = .ok id := by
  rw [routing_eq hbatch hlock, hunlocking.1]
  obtain ⟨endpoint, tail, hrouted⟩ := hunlocking.2.exists_found batchMount
  obtain ⟨rfl, hid⟩ := hunlocking.2.found hnames hrouted
  exact ⟨tail, hrouted, hid⟩

/-- By induction on the requests: each leaves the tables the same. -/
theorem same_listings (h : g.Over r part update) (hopen : g.locking.Open r part update)
    (htable : (part p.state).table = (part p'.state).table) {later : List (String × Request)}
    (hmakes : ∀ i ∈ later, ¬ IsLocking mount i.2) :
    List.Forall₂ (SameListing mount) (history g.step p later) (history g.step p' later) := by
  induction later generalizing p p' with
  | nil => exact .nil
  | cons i later ih =>
    obtain ⟨fresh, request⟩ := i
    have hrouting : ∀ tail, g.routing request ≠ .found .createLock tail := by
      intro tail hrouted
      rw [routing_eq hbatch hlock] at hrouted
      exact hmakes _ List.mem_cons_self (IsLocksPath.of_found hrouted)
    obtain ⟨response, response', q, q', hq, hq', hafter, hsame⟩ :=
      serve_congr h hopen htable hrouting fresh
    have hstep : g.step (fresh, request) p = (.ok response, q) := hq
    have hstep' : g.step (fresh, request) p' = (.ok response', q') := hq'
    unfold history turn
    rw [hstep, hstep']
    refine .cons ⟨rfl, fun hlook => ?_⟩ (ih hafter fun i hi => hmakes i (List.mem_cons_of_mem _ hi))
    -- what asks for locks is no batch request
    have hlooking : ∃ endpoint tail, g.routing request = .found endpoint tail ∧ endpoint ≠ .batch := by
      rcases hlook with hlisting | hverifying
      · obtain ⟨tail, hrouted⟩ := routing_of_listing hbatch hlock hlisting
        exact ⟨_, tail, hrouted, by decide⟩
      · obtain ⟨tail, hrouted⟩ := routing_of_verifying hbatch hlock hverifying
        exact ⟨_, tail, hrouted, by decide⟩
    obtain ⟨endpoint, tail, hrouted, hendpoint⟩ := hlooking
    refine congrArg Except.ok (hsame fun tail' hbatched => ?_)
    rw [hrouted] at hbatched
    cases hbatched
    exact hendpoint rfl

end

/-- Whatever requests come to a gateway that is made from settings, has no gate in front of its locks,
and is over a lock registry that starts without locks: take one that is answered with 201. Its answer
shows a lock, of the user who made the request. As long as the table is what it was then,

* whoever looks for the lock by its path, by its identifier or by both, and whose query is read, gets a
  page with that lock and no more, whatever the limit is. How a query is written does not matter, but its
  limit must not have more digits than are read; a longer one is answered with 500;
* the lock is released by a request of its user without a body. That answers with the lock and leaves the
  table as it was before the lock was made; from then on all listings are as if the lock had never been
  made, whatever comes between them, until another lock is made.

Below a mount without parameters the lock has the address at which it is released. -/
theorem release_undoes_creation {host : Deployment.Host} {origin : String} {c : Config}
    {exchange : Option (Exchange World)} {locking : Option (Locking World)} {g : Gateway World}
    {level : Level} (hmade : ofConfig host origin c exchange locking = .ok (g, level))
    {r : Registry} {part : World → RegistryState} {update : RegistryState → World → World}
    (hover : g.Over r part update) (hopen : g.locking.Open r part update) (hsize : 1 ≤ r.pageSize)
    {start : Progress World} (hstart : part start.state = .empty)
    (requests : List (String × Request))
    (hfresh : ∀ t ∈ history g.step start requests,
      Fresh r (part t.before.state) (part t.after.state)) :
    ∀ t ∈ history g.step start requests, ∀ made, t.answer = .ok made → made.status = 201 →
      let before := (part t.before.state).table
      let after := (part t.after.state).table
      ∃ l user, t.input.2.principal = .ok (some user) ∧ made.body = bodyOf l ∧
        after.active = before.active ++ [l] ∧
        (∀ query, query.Picks l → ∀ fresh request someone p, IsListing c.locksMount request →
          request.principal = .ok someone → (part p.state).table = after →
          (LockQuery.ofQuery request.query = .ok query →
            ∃ response q, g.step (fresh, request) p = (.ok response, q) ∧
              response.status = 200 ∧ response.body = pageOf l) ∧
          ∀ keep explicit, Text.Percent.Plain keep → query.refspec ≠ some "" →
            request.query = query.write keep explicit →
            ∃ response q, g.step (fresh, request) p = (.ok response, q) ∧
              if Number.Decimal.Short query.limit then
                response.status = 200 ∧ response.body = pageOf l
              else response.status = 500) ∧
        (∀ fresh request p, IsUnlocking c.locksMount l.id request →
          request.principal = .ok (some user) → request.body = [] → (part p.state).table = after →
          ∃ response q, g.step (fresh, request) p = (.ok response, q) ∧ response.status = 200 ∧
            response.body = bodyOf l ∧ (part q.state).table = before ∧
            ∀ later, (∀ i ∈ later, ¬ IsLocking c.locksMount i.2) →
              List.Forall₂ (SameListing c.locksMount) (history g.step q later)
                (history g.step t.before later)) ∧
        ('\x7b' ∉ c.locksMount.toList → '/' ∉ l.id.toList → '\n' ∉ l.id.toList →
          IsLocksPath c.locksMount (c.locksMount ++ locksPath) ∧
          IsUnlockPath c.locksMount (c.locksMount ++ locksPath ++ "/" ++ l.id ++ "/unlock") l.id) := by
  intro t ht made hanswer h201 before after
  obtain ⟨hbatch, hlock, hnames⟩ := mounts_of_ofConfig hmade
  have hempty : (part start.state).table.Consistent := by
    rw [hstart]
    exact LockTable.consistent_empty
  have hc : before.Consistent := consistent_history hover hempty hfresh t ht
  have hserve : perform (g.serve t.input.1 t.input.2) t.before = (.ok made, t.after) := by
    have hturn := eq_turn_of_mem_history ht
    have hpair : (t.answer, t.after) = perform (g.serve t.input.1 t.input.2) t.before := by
      rw [hturn]
      rfl
    rw [← hpair, hanswer]
  obtain ⟨l, user, hprincipal, howner, hnew, hbody, hadded⟩ :=
    exists_made hover hopen hc hserve (hfresh t ht) h201
  have hafter : after = before.add l := hadded
  have hactive : after.active = before.active ++ [l] := by
    rw [hafter]
    exact hnew.active_add hc
  refine ⟨l, user, hprincipal, hbody, hactive, ?_, ?_, ?_⟩
  · intro query hpicks fresh request someone p hlisting hwho htable
    obtain ⟨tail, hrouted⟩ := routing_of_listing hbatch hlock hlisting
    have hread : LockQuery.ofQuery request.query = .ok query →
        ∃ response q, g.step (fresh, request) p = (.ok response, q) ∧
          response.status = 200 ∧ response.body = pageOf l := fun hread =>
      serve_picked hover hopen hsize hnew hc (htable.trans hafter) hrouted hwho hread hpicks fresh
    refine ⟨hread, fun keep explicit hkeep hrefspec hquery => ?_⟩
    have hwritten := LockQuery.ofQuery_write hkeep explicit (hpicks.full hnew hrefspec)
    rw [← hquery] at hwritten
    split at hwritten
    · next hshort =>
      obtain ⟨response, q, hstep, hfound⟩ := hread hwritten
      exact ⟨response, q, hstep, by rwa [if_pos hshort]⟩
    · next hlong =>
      obtain ⟨told, q, htold, hstep, -, -⟩ := serve_unread hrouted hwho hwritten fresh p
      cases htold
      exact ⟨_, q, hstep, by rw [if_neg hlong]; rfl⟩
  · intro fresh request p hunlocking hwho hempty htable
    obtain ⟨tail, hrouted, hid⟩ := routing_of_unlocking hbatch hlock hnames hunlocking
    have hp : (part p.state).table = before.add l := htable.trans hafter
    have hheld : l ∈ (part p.state).table.active := by
      rw [hp, hnew.active_add hc]
      exact List.mem_append_right _ List.mem_cons_self
    have hconsistent : (part p.state).table.Consistent := by
      rw [hp]
      exact hnew.consistent_add hc
    rw [← howner] at hwho
    obtain ⟨response, q, hstep, h200, hshown, hremoved⟩ :=
      serve_release hover hopen hconsistent hheld hrouted hid hwho hempty fresh
    have hrestored : (part q.state).table = before := by
      rw [hremoved, hp]
      exact hnew.remove_add hc
    exact ⟨response, q, hstep, h200, hshown, hrestored, fun later hmakes =>
      same_listings hbatch hlock hover hopen hrestored hmakes⟩
  · intro hmount hslash hline
    exact ⟨.of_notMem hmount, .of_notMem hmount hnew.id_ne hslash hline⟩

/-- Bob asks the lodge for locks. -/
def lookUp (query : LockQuery) : String × Request :=
  ("visit", ⟨"GET", "/info/lfs/locks", query.write Char.isAlphanum false, [], [],
    some ⟨true, some "bob"⟩⟩)

theorem plain_isAlphanum : Text.Percent.Plain Char.isAlphanum := by
  simp [Text.Percent.Plain]

/-- What to ask for, for the lock with a path. -/
def queryFor (path : String) (limit : Int) : LockQuery := ⟨some path, none, none, limit, none⟩

theorem picks_queryFor (limit : Int) : (queryFor "a" limit).Picks annsLock :=
  ⟨.inr rfl, .inl rfl, .inl (by simp [queryFor]), rfl⟩

theorem isListing_lookUp (query : LockQuery) : IsListing "/info/lfs" (lookUp query).2 := by
  have hpath : "/info/lfs/locks" = "/info/lfs" ++ locksPath := by decide
  refine ⟨rfl, ?_⟩
  change IsLocksPath "/info/lfs" "/info/lfs/locks"
  rw [hpath]
  exact .of_notMem (by decide)

theorem principal_visit (name path body : String) (h : name ≠ "") :
    (visit name path body).2.principal = .ok (some name) := by
  simp [visit, Request.principal, Principal.ofTransport, Principal.resolve, h]

theorem principal_lookUp (query : LockQuery) : (lookUp query).2.principal = .ok (some "bob") := by
  simp [lookUp, Request.principal, Principal.ofTransport, Principal.resolve]

/-- Bob finds the lock that Ann has made, and Ann undoes it. -/
theorem release_undoes_creation_taken :
    let requests := [visit "ann" "/locks" "\x7b\"path\":\"a\"\x7d"]
    ofConfig porter "http://lodge" settings none none = .ok (lodge, .debug) ∧
      lodge.Over Registry.sample (World.registries · none) (World.setRegistry none) ∧
      lodge.locking.Open Registry.sample (World.registries · none) (World.setRegistry none) ∧
      1 ≤ Registry.sample.pageSize ∧
      (∀ t ∈ history lodge.step (.start World.empty .debug) requests,
        Fresh Registry.sample (t.before.state.registries none) (t.after.state.registries none)) ∧
      (∃ response q, lodge.step (lookUp (queryFor "a" 1)) taken = (.ok response, q) ∧
        response.status = 200 ∧ response.body = pageOf annsLock) ∧
      ∃ response q, lodge.step (visit "ann" "/locks/i/unlock" "") taken = (.ok response, q) ∧
        response.status = 200 ∧ (q.state.registries none).table = LockTable.empty := by
  intro requests
  have hopen : lodge.locking.Open Registry.sample (World.registries · none)
      (World.setRegistry none) := rfl
  have hsize : 1 ≤ Registry.sample.pageSize := by decide
  have hfresh : ∀ t ∈ history lodge.step (.start World.empty .debug) requests,
      Fresh Registry.sample (t.before.state.registries none) (t.after.state.registries none) := by
    unfold Fresh
    decide +kernel
  refine ⟨ofConfig_settings, over_lodge, hopen, hsize, hfresh, ?_⟩
  -- the only turn of the history leads to the lodge where Ann has made her lock
  obtain ⟨t, ht, hafter⟩ : ∃ t ∈ history lodge.step (.start World.empty .debug) requests,
      t.after = taken := ⟨_, List.mem_cons_self, rfl⟩
  have hall : ∀ t ∈ history lodge.step (.start World.empty .debug) requests,
      t.answer.toOption.map Response.status = some 201 ∧ t.before.state.registries none = .empty ∧
        t.input.2.principal.toOption = some (some "ann") := by decide +kernel
  obtain ⟨hstatus, hbefore, hann⟩ := hall t ht
  have hactive : (taken.state.registries none).table.active = [annsLock] := by decide +kernel
  cases hanswer : t.answer with
  | error e =>
    rw [hanswer] at hstatus
    cases hstatus
  | ok made =>
    rw [hanswer] at hstatus
    obtain ⟨l, user, hwho, -, hadded, hfound, hreleased, -⟩ :=
      release_undoes_creation ofConfig_settings over_lodge hopen hsize rfl requests hfresh t ht made
        hanswer (Option.some.inj hstatus)
    rw [hafter, hactive, hbefore] at hadded
    obtain rfl : annsLock = l := List.head_eq_of_cons_eq hadded
    rw [hwho] at hann
    obtain rfl : user = "ann" := Option.some.inj (Option.some.inj hann)
    rw [hafter] at hfound hreleased
    rw [hbefore] at hreleased
    have hlisting := isListing_lookUp (queryFor "a" 1)
    have hunlocking : IsUnlocking "/info/lfs" "i" (visit "ann" "/locks/i/unlock" "").2 := by
      have hpath : "/info/lfs" ++ "/locks/i/unlock" =
          "/info/lfs" ++ locksPath ++ "/" ++ "i" ++ "/unlock" := by decide
      refine ⟨rfl, ?_⟩
      change IsUnlockPath "/info/lfs" ("/info/lfs" ++ "/locks/i/unlock") "i"
      rw [hpath]
      exact .of_notMem (by decide) (by decide) (by decide) (by decide)
    refine ⟨?_, ?_⟩
    · obtain ⟨-, hwritten⟩ := hfound (queryFor "a" 1) (picks_queryFor 1) "visit" _ _ taken hlisting
        (principal_lookUp _) rfl
      obtain ⟨response, q, hstep, hshown⟩ :=
        hwritten Char.isAlphanum false plain_isAlphanum (by simp [queryFor]) rfl
      rw [if_pos (by decide)] at hshown
      exact ⟨response, q, hstep, hshown⟩
    · obtain ⟨response, q, hstep, h200, -, hrestored, -⟩ := hreleased "visit" _ taken hunlocking
        (principal_visit "ann" _ _ (by decide)) (by decide +kernel) rfl
      exact ⟨response, q, hstep, h200, hrestored⟩

/-- With a limit of 4301 digits, Bob does not find the lock that is there. -/
theorem overlong_lookUp_fails :
    let query := queryFor "a" (10 ^ Number.Decimal.maxDigits)
    (taken.state.registries none).table.active = [annsLock] ∧ query.Picks annsLock ∧
      LockQuery.ofQuery (query.write Char.isAlphanum false) = .error (LockQuery.oversized query.limit) ∧
      ∃ response q, lodge.step (lookUp query) taken = (.ok response, q) ∧ response.status = 500 := by
  intro query
  have hpow : ∀ k : Nat, ¬ ((10 : Int) ^ k).natAbs < 10 ^ k := fun k hlt => by
    rw [Int.natAbs_pow] at hlt
    exact Nat.lt_irrefl _ hlt
  have hlong : ¬ Number.Decimal.Short query.limit := fun hshort =>
    hpow Number.Decimal.maxDigits (Number.Decimal.short_iff.1 hshort)
  have hfull : query.Full :=
    { path := by simp [query, queryFor]
      id := by simp [query, queryFor]
      cursor := by simp [query, queryFor]
      refspec := by simp [query, queryFor] }
  have hread : LockQuery.ofQuery (query.write Char.isAlphanum false) =
      .error (LockQuery.oversized query.limit) := by
    rw [LockQuery.ofQuery_write plain_isAlphanum false hfull, if_neg hlong]
  have hmount : lodge.batchMount = Pattern.ofText "/info/lfs" := rfl
  obtain ⟨tail, hrouted⟩ := routing_of_listing hmount rfl (isListing_lookUp query)
  obtain ⟨told, q, htold, hstep, -, -⟩ :=
    serve_unread hrouted (principal_lookUp query) hread "visit" taken
  cases htold
  exact ⟨by decide +kernel, picks_queryFor _, hread, _, q, hstep, rfl⟩

end Http.Gateway

end GitLfs
