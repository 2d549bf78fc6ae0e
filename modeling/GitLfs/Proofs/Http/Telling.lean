import GitLfs.Proofs.Http.Answer
import GitLfs.Proofs.Http.Body
import GitLfs.Proofs.Http.Route
import GitLfs.Proofs.Lock.Locking
import GitLfs.Proofs.Storage.Exchange

/-!
# What a response tells about the lock table

A gateway over a lock registry changes the lock table in two places: a lock is added in front of a
response 201 to a request to lock a path, and removed in front of a response 200 to a request to
release one. Any other response comes with the table that was there before. `told_serve` says so for
one request, whatever it asks for.
-/

namespace GitLfs.Http.Gateway

variable {σ : Type} {g : Gateway σ} {r : Registry} {part : σ → RegistryState}
  {update : RegistryState → σ → σ}

/-- The locking service of the gateway is over a registry that its batch service takes no notice of.
-/
structure Over (g : Gateway σ) (r : Registry) (part : σ → RegistryState)
    (update : RegistryState → σ → σ) : Prop where
  locking : g.locking.Over r part update
  exchange : g.exchange.Keeps part

/-- The body that shows a lock. -/
def bodyOf (l : Lock) : Body := .json (LockAnswer.encode ⟨l⟩).withoutNulls

/-! ## Handlers that only look -/

theorem keeps_handleBatch (h : g.Over r part update) (request : Request) :
    Service.Keeps part (g.handleBatch request) :=
  (keeps_principal request).bind fun _ => (Service.Keeps.ofExcept _).bind fun _ =>
    (Exchange.keeps_batch h.exchange _ _ _ _).bind fun _ => Service.Keeps.ofExcept _

theorem keeps_handleListLocks (h : g.Over r part update) (request : Request) :
    Service.Keeps part (g.handleListLocks request) :=
  (keeps_principal request).bind fun _ => (Service.Keeps.ofExcept _).bind fun _ =>
    (Locking.keeps_list h.locking _ _ _).bind fun _ => Service.Keeps.ofExcept _

theorem keeps_handleVerifyLocks (h : g.Over r part update) (request : Request) :
    Service.Keeps part (g.handleVerifyLocks request) :=
  (keeps_principal request).bind fun _ => (Service.Keeps.ofExcept _).bind fun _ =>
    (Locking.keeps_listToVerify h.locking _ _ _).bind fun _ => Service.Keeps.ofExcept _

/-! ## Handlers that change something -/

theorem perform_handleCreateLock (h : g.Over r part update) {p : Progress σ}
    (hc : (part p.state).table.Consistent) (request : Request) :
    (∃ l q, perform (g.handleCreateLock request) p =
        (.ok (Response.carrying 201 (LockAnswer.encode ⟨l⟩)), q) ∧
      l.id = r.newId (part p.state).drawn ∧ (∀ l' ∈ (part p.state).table.active, l'.path ≠ l.path) ∧
      part q.state = ⟨(part p.state).table.add l, (part p.state).drawn + 1⟩) ∨
    ∃ e q, perform (g.handleCreateLock request) p = (.error e, q) ∧
      (part q.state).table = (part p.state).table := by
  unfold handleCreateLock
  rw [perform_bind, perform_principal]
  cases request.principal with
  | error e => exact Or.inr ⟨.refusal e, p, rfl, rfl⟩
  | ok user =>
    simp only [Except.mapError, perform_bind, Service.perform_ofExcept]
    cases parseBody CreateRequest.decode false request.body with
    | error e => exact Or.inr ⟨e, p, rfl, rfl⟩
    | ok body =>
      obtain ⟨l, q, hq, hl⟩ | ⟨e, q, hq, htable⟩ :=
        Locking.perform_create h.locking hc body user (repository request locksPath)
      · exact Or.inl ⟨l, q, by simp only [hq, Response.success_lockAnswer], hl⟩
      · exact Or.inr ⟨e, q, by simp only [hq], htable⟩

theorem perform_handleReleaseLock (h : g.Over r part update) {p : Progress σ}
    (hc : (part p.state).table.Consistent) (request : Request) (tail : String) :
    (∃ l q, perform (g.handleReleaseLock request tail) p =
        (.ok (Response.carrying 200 (LockAnswer.encode ⟨l⟩)), q) ∧
      Lock.idOfUnlockPath tail = .ok l.id ∧ l ∈ (part p.state).table.active ∧
      part q.state = { part p.state with table := (part p.state).table.remove l }) ∨
    ∃ e q, perform (g.handleReleaseLock request tail) p = (.error e, q) ∧
      (part q.state).table = (part p.state).table := by
  unfold handleReleaseLock
  rw [perform_bind, perform_principal]
  cases request.principal with
  | error e => exact Or.inr ⟨.refusal e, p, rfl, rfl⟩
  | ok user =>
    simp only [Except.mapError]
    cases hid : Lock.idOfUnlockPath tail with
    | error e => exact Or.inr ⟨.refusal e, p, rfl, rfl⟩
    | ok id =>
      simp only [perform_bind, perform_pure, Service.perform_ofExcept]
      cases parseBody ReleaseRequest.decode true request.body with
      | error e => exact Or.inr ⟨e, p, rfl, rfl⟩
      | ok body =>
        obtain ⟨l, q, hq, rfl, hl⟩ | ⟨e, q, hq, htable⟩ :=
          Locking.perform_release h.locking hc id body user
            (repository request (locksPath ++ "/" ++ tail))
        · exact Or.inl ⟨l, q, by simp only [hq, Response.success_lockAnswer], rfl, hl⟩
        · exact Or.inr ⟨e, q, by simp only [hq], htable⟩

/-! ## One request -/

/-- What a response tells about the registry: that a lock was made, that one was released, or that
the table is what it was. -/
inductive Told (g : Gateway σ) (r : Registry) (request : Request) (b : RegistryState) :
    Response → RegistryState → Prop where
  | created {response : Response} {tail : String} {l : Lock}
      (routed : g.routing request = .found .createLock tail) (status : response.status = 201)
      (shows : response.body = bodyOf l) (drawn : l.id = r.newId b.drawn)
      (free : ∀ l' ∈ b.table.active, l'.path ≠ l.path) :
      Told g r request b response ⟨b.table.add l, b.drawn + 1⟩
  | released {response : Response} {tail : String} {l : Lock}
      (routed : g.routing request = .found .releaseLock tail) (status : response.status = 200)
      (shows : response.body = bodyOf l) (named : Lock.idOfUnlockPath tail = .ok l.id)
      (held : l ∈ b.table.active) :
      Told g r request b response { b with table := b.table.remove l }
  | kept {response : Response} {c : RegistryState} (same : c.table = b.table)
      (not_created : response.status ≠ 201)
      (not_released : response.status = 200 → ∃ endpoint tail,
        g.routing request = .found endpoint tail ∧ endpoint ≠ .releaseLock) :
      Told g r request b response c

/-- A response with another status tells that nothing happened. -/
theorem told_kept {request : Request} {b c : RegistryState} {response : Response}
    (h : c.table = b.table) (hstatus : response.status ≠ 200 ∧ response.status ≠ 201) :
    g.Told r request b response c :=
  .kept h hstatus.2 fun h200 => absurd h200 hstatus.1

/-- A handler that fails without changing the table is answered for. -/
theorem told_error {request : Request} {x : Service σ Response} {e : Failure} {p q : Progress σ}
    (logger : String) (hx : perform x p = (.error e, q))
    (htable : (part q.state).table = (part p.state).table) :
    ∃ outcome q', perform (answering logger x) p = (outcome, q') ∧
      ∀ id, g.Told r request (part p.state) (delivered id outcome) (part q'.state) := by
  obtain ⟨q', hq', hstate, -⟩ := perform_answering_error logger hx
  refine ⟨Response.ofFailure e, q', hq', fun id => told_kept ?_ (status_delivered e id)⟩
  rw [hstate, htable]

/-- A handler that only looks is answered for, and leaves the table as it was. -/
theorem told_looking {request : Request} {endpoint : Endpoint} {tail logger : String}
    {x : Service σ Response} (hrouted : g.routing request = .found endpoint tail)
    (hendpoint : endpoint ≠ .releaseLock) (hkeeps : Service.Keeps part x)
    (hstatus : Answers 200 x) (p : Progress σ) :
    ∃ outcome q, perform (answering logger x) p = (outcome, q) ∧
      ∀ id, g.Told r request (part p.state) (delivered id outcome) (part q.state) := by
  have htable := congrArg RegistryState.table (hkeeps p)
  rcases hx : perform x p with ⟨e | response, q⟩ <;> rw [hx] at htable
  · exact told_error logger hx htable
  · have h200 : response.status = 200 := hstatus p response q hx
    refine ⟨.ok response, q, perform_answering_ok logger hx, fun id => .kept htable ?_
      fun _ => ⟨endpoint, tail, hrouted, hendpoint⟩⟩
    change response.status ≠ 201
    rw [h200]
    decide

theorem told_handle (h : g.Over r part update) {p : Progress σ}
    (hc : (part p.state).table.Consistent) {request : Request} {endpoint : Endpoint}
    {tail : String} (hrouted : g.routing request = .found endpoint tail) :
    ∃ outcome q, perform (g.handle request tail endpoint) p = (outcome, q) ∧
      ∀ id, g.Told r request (part p.state) (delivered id outcome) (part q.state) := by
  cases endpoint with
  | batch =>
    exact told_looking hrouted (by decide) (keeps_handleBatch h request)
      (.bind fun _ => .bind fun _ => .bind fun _ => .ofExcept_success _) p
  | listLocks =>
    exact told_looking hrouted (by decide) (keeps_handleListLocks h request)
      (.bind fun _ => .bind fun _ => .bind fun _ => .ofExcept_success _) p
  | listBelow =>
    exact told_looking hrouted (by decide) (Keeps.throw _) (.refuse _) p
  | verifyLocks =>
    exact told_looking hrouted (by decide) (keeps_handleVerifyLocks h request)
      (.bind fun _ => .bind fun _ => .bind fun _ => .ofExcept_success _) p
  | createLock =>
    obtain ⟨l, q, hq, hid, hfree, hstate⟩ | ⟨e, q, hq, htable⟩ :=
      perform_handleCreateLock h hc request
    · refine ⟨_, q, perform_answering_ok "locks.routes" hq, fun id => ?_⟩
      rw [hstate]
      exact .created hrouted rfl rfl hid hfree
    · exact told_error "locks.routes" hq htable
  | releaseLock =>
    obtain ⟨l, q, hq, hid, hheld, hstate⟩ | ⟨e, q, hq, htable⟩ :=
      perform_handleReleaseLock h hc request tail
    · refine ⟨_, q, perform_answering_ok "locks.routes" hq, fun id => ?_⟩
      rw [hstate]
      exact .released hrouted rfl rfl hid hheld
    · exact told_error "locks.routes" hq htable
  | health =>
    exact ⟨_, p, rfl, fun id => .kept rfl (show 200 ≠ 201 by decide)
      fun _ => ⟨_, _, hrouted, by decide⟩⟩

/-- Something comes of each request, and what is delivered tells the truth about the registry. -/
theorem told_dispatch (h : g.Over r part update) {p : Progress σ}
    (hc : (part p.state).table.Consistent) (request : Request) :
    ∃ outcome q, perform (g.dispatch request) p = (outcome, q) ∧
      ∀ id, g.Told r request (part p.state) (delivered id outcome) (part q.state) := by
  unfold dispatch
  cases hrouted : g.routing request with
  | found endpoint tail => exact told_handle h hc hrouted
  | methodNotAllowed allowed =>
    exact ⟨_, p, rfl, fun id => told_kept rfl (show 405 ≠ 200 ∧ 405 ≠ 201 by decide)⟩
  | redirect path =>
    exact ⟨_, p, rfl, fun id => told_kept rfl (show 307 ≠ 200 ∧ 307 ≠ 201 by decide)⟩
  | notFound =>
    exact ⟨_, p, rfl, fun id => told_kept rfl (show 404 ≠ 200 ∧ 404 ≠ 201 by decide)⟩

/-- Each request is answered, and the answer tells the truth about the registry. -/
theorem told_serve (h : g.Over r part update) {p : Progress σ}
    (hc : (part p.state).table.Consistent) (fresh : String) (request : Request) :
    ∃ response q, perform (g.serve fresh request) p = (.ok response, q) ∧
      g.Told r request (part p.state) response (part q.state) := by
  have hstart : part (started fresh request p).state = part p.state := by rw [state_started]
  obtain ⟨outcome, q, hq, htold⟩ :=
    told_dispatch h (p := started fresh request p) (by rwa [hstart]) request
  obtain ⟨q', hq', hstate, -⟩ := perform_serve hq
  rw [hstart, ← hstate] at htold
  exact ⟨_, q', hq', htold _⟩

end GitLfs.Http.Gateway
