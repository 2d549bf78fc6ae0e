import GitLfs.Proofs.Deployment
import GitLfs.Proofs.Http.Body
import GitLfs.Proofs.Storage.Dialogue

/-!
# Requests are looked through before a service is turned to

What is wrong with a request can be told from the request alone, at four stages: who makes it, its
path, its query and its body. `firstFault?` looks for the first fault in this order. `Asks` says what
a request asks of which service, without saying in which order this is found out; a request asks for
something exactly when it has no fault. `vetted` says what a gateway makes of both, whatever the
collaborators of its services are.
-/

namespace GitLfs.Http

variable {σ : Type}

/-! ## What can be wrong with a request -/

/-- What is looked at in a request before a service is turned to. -/
inductive Stage where
  | authorization
  | path
  | query
  | body
  deriving DecidableEq, Repr

/-- The failure of something that has been tried. -/
def failure? {α : Type} : Except Failure α → Option Failure
  | .ok _ => none
  | .error e => some e

namespace Stage

/-- The stages in their order. -/
def all : List Stage := [authorization, path, query, body]

/-- What is wrong with a request at a stage; the rest of a path below that of all locks is `tail`. An
endpoint makes use of some stages only. -/
def fault? (r : Request) (tail : String) : Endpoint → Stage → Option Failure
  | .batch, authorization | .listLocks, authorization | .createLock, authorization
  | .verifyLocks, authorization | .releaseLock, authorization =>
    failure? (r.principal.mapError .refusal)
  | .listBelow, path =>
    some (.refusal (.internal ("Invalid path info in the GET request: /" ++ tail)))
  | .releaseLock, path => failure? ((Lock.idOfUnlockPath tail).mapError .refusal)
  | .listLocks, query => failure? (LockQuery.ofQuery r.query)
  | .batch, body => failure? (parseBody BatchRequest.decode false r.body)
  | .createLock, body => failure? (parseBody CreateRequest.decode false r.body)
  | .verifyLocks, body => failure? (parseBody VerifyRequest.decode true r.body)
  | .releaseLock, body => failure? (parseBody ReleaseRequest.decode true r.body)
  | _, _ => none

end Stage

/-- What is wrong with a request at the first stage at which something is. -/
def firstFault? (r : Request) (endpoint : Endpoint) (tail : String) : Option Failure :=
  Stage.all.findSome? (Stage.fault? r tail endpoint)

/-! ## What a request asks for -/

/-- What a request can ask of a service. -/
inductive Demand where
  | batch (task : Exchange.Task)
  | locks (task : Locking.Task)
  deriving DecidableEq, Repr

open Gateway (repository) in
/-- What a request to an endpoint asks of which service, and for whom. -/
inductive Asks (r : Request) : Endpoint → String → Demand → Prop where
  | batch {tail : String} {user : Option String} {request : BatchRequest}
      (who : r.principal = .ok user)
      (body : parseBody BatchRequest.decode false r.body = .ok request) :
      Asks r .batch tail (.batch ⟨request, user, repository r batchPath, r.authorization?⟩)
  | list {tail : String} {user : Option String} {query : LockQuery}
      (who : r.principal = .ok user) (query_eq : LockQuery.ofQuery r.query = .ok query) :
      Asks r .listLocks tail (.locks (.list query user (repository r locksPath)))
  | create {tail : String} {user : Option String} {request : CreateRequest}
      (who : r.principal = .ok user)
      (body : parseBody CreateRequest.decode false r.body = .ok request) :
      Asks r .createLock tail (.locks (.create request user (repository r locksPath)))
  | verify {tail : String} {user : Option String} {request : VerifyRequest}
      (who : r.principal = .ok user)
      (body : parseBody VerifyRequest.decode true r.body = .ok request) :
      Asks r .verifyLocks tail (.locks (.verify request user (repository r verifyPath)))
  | release {tail id : String} {user : Option String} {request : ReleaseRequest}
      (who : r.principal = .ok user) (path : Lock.idOfUnlockPath tail = .ok id)
      (body : parseBody ReleaseRequest.decode true r.body = .ok request) :
      Asks r .releaseLock tail
        (.locks (.release id request user (repository r (locksPath ++ "/" ++ tail))))

section

variable {r : Request} {endpoint : Endpoint} {tail : String} {demand : Demand}

/-- The first fault is that of the first stage that has one. -/
theorem firstFault?_eq (r : Request) (endpoint : Endpoint) (tail : String) :
    firstFault? r endpoint tail =
      (Stage.fault? r tail endpoint .authorization).or
        ((Stage.fault? r tail endpoint .path).or
          ((Stage.fault? r tail endpoint .query).or (Stage.fault? r tail endpoint .body))) := by
  simp only [firstFault?, Stage.all, List.findSome?_cons, List.findSome?_nil]
  cases Stage.fault? r tail endpoint .authorization <;>
    cases Stage.fault? r tail endpoint .path <;>
    cases Stage.fault? r tail endpoint .query <;>
    cases Stage.fault? r tail endpoint .body <;> rfl

theorem failure?_eq_none {α : Type} {x : Except Failure α} (h : failure? x = none) :
    ∃ a, x = .ok a := by
  cases x with
  | ok a => exact ⟨a, rfl⟩
  | error e => cases h

theorem failure?_eq_some {α : Type} {x : Except Failure α} {e : Failure} (h : failure? x = some e) :
    x = .error e := by
  cases x with
  | ok a => cases h
  | error e' => exact congrArg Except.error (Option.some.inj h)

/-- Someone makes a request in whose authorization nothing is wrong. -/
theorem principal_of_failure? (h : failure? (r.principal.mapError Failure.refusal) = none) :
    ∃ user, r.principal = .ok user := by
  cases hp : r.principal with
  | ok user => exact ⟨user, rfl⟩
  | error e =>
    rw [hp] at h
    cases h

/-- A request without a fault asks for something. -/
theorem exists_asks (hendpoint : endpoint ≠ .health) (h : firstFault? r endpoint tail = none) :
    ∃ demand, Asks r endpoint tail demand := by
  have hstage : ∀ stage ∈ Stage.all, Stage.fault? r tail endpoint stage = none :=
    List.findSome?_eq_none_iff.1 h
  have hauthorization := hstage .authorization (by decide)
  have hpath := hstage .path (by decide)
  have hquery := hstage .query (by decide)
  have hbody := hstage .body (by decide)
  cases endpoint with
  | batch =>
    obtain ⟨user, huser⟩ := principal_of_failure? hauthorization
    obtain ⟨request, hrequest⟩ := failure?_eq_none hbody
    exact ⟨_, .batch huser hrequest⟩
  | listLocks =>
    obtain ⟨user, huser⟩ := principal_of_failure? hauthorization
    obtain ⟨query, hq⟩ := failure?_eq_none hquery
    exact ⟨_, .list huser hq⟩
  | listBelow => cases hpath
  | createLock =>
    obtain ⟨user, huser⟩ := principal_of_failure? hauthorization
    obtain ⟨request, hrequest⟩ := failure?_eq_none hbody
    exact ⟨_, .create huser hrequest⟩
  | verifyLocks =>
    obtain ⟨user, huser⟩ := principal_of_failure? hauthorization
    obtain ⟨request, hrequest⟩ := failure?_eq_none hbody
    exact ⟨_, .verify huser hrequest⟩
  | releaseLock =>
    obtain ⟨user, huser⟩ := principal_of_failure? hauthorization
    obtain ⟨request, hrequest⟩ := failure?_eq_none hbody
    cases hid : Lock.idOfUnlockPath tail with
    | ok id => exact ⟨_, .release huser hid hrequest⟩
    | error e =>
      simp only [Stage.fault?, hid] at hpath
      cases hpath
  | health => exact absurd rfl hendpoint

/-- A request that asks for something has no fault. -/
theorem Asks.firstFault?_eq_none (h : Asks r endpoint tail demand) :
    firstFault? r endpoint tail = none := by
  refine List.findSome?_eq_none_iff.2 fun stage _ => ?_
  cases h with
  | batch who body => cases stage <;> simp [Stage.fault?, who, body, Except.mapError, failure?]
  | list who query => cases stage <;> simp [Stage.fault?, who, query, Except.mapError, failure?]
  | create who body => cases stage <;> simp [Stage.fault?, who, body, Except.mapError, failure?]
  | verify who body => cases stage <;> simp [Stage.fault?, who, body, Except.mapError, failure?]
  | release who path body =>
    cases stage <;> simp [Stage.fault?, who, path, body, Except.mapError, failure?]

end

/-! ## What is wrong with a request can be told -/

section

variable {r : Request} {endpoint : Endpoint} {tail : String} {e : Failure}

theorem tellable_of_ofAuthorization {header : Option String} {refusal : Refusal}
    (h : Principal.ofAuthorization header = .error refusal) : Tellable (.refusal refusal) := by
  unfold Principal.ofAuthorization at h
  dsimp only at h
  split at h
  · cases h
  · split at h
    · cases h
      exact ⟨_, rfl⟩
    · split at h <;> cases h
      exact ⟨_, rfl⟩

theorem tellable_of_principal {refusal : Refusal} (h : r.principal = .error refusal) :
    Tellable (.refusal refusal) := by
  unfold Request.principal Principal.resolve at h
  split at h
  · split at h
    · exact tellable_of_ofAuthorization h
    · cases h
  · exact tellable_of_ofAuthorization h

theorem tellable_of_idOfUnlockPath {refusal : Refusal} (h : Lock.idOfUnlockPath tail = .error refusal) :
    Tellable (.refusal refusal) := by
  unfold Lock.idOfUnlockPath at h
  split at h
  · split at h <;> cases h
    exact ⟨_, rfl⟩
  · cases h
    exact ⟨_, rfl⟩

theorem tellable_of_ofQuery {query : String} (h : LockQuery.ofQuery query = .error e) :
    Tellable e := by
  unfold LockQuery.ofQuery at h
  have hraw : LockQuery.readLimit (Text.Form.first? (Text.Form.pairs query) "limit") = .error e := by
    cases hlimit : LockQuery.readLimit (Text.Form.first? (Text.Form.pairs query) "limit") <;>
      simp only [hlimit] at h <;> cases h
    rfl
  unfold LockQuery.readLimit at hraw
  split at hraw
  · cases hraw
  · dsimp only at hraw
    split at hraw
    · split at hraw <;> cases hraw
      trivial
    · cases hraw
      exact ⟨_, rfl⟩

theorem tellable_of_parseBody {α : Type} {decode : Decoder α} {allowEmpty : Bool}
    {bytes : List UInt8} (h : parseBody decode allowEmpty bytes = .error e) : Tellable e := by
  unfold parseBody at h
  dsimp only at h
  split at h
  · cases h
    exact ⟨_, rfl⟩
  · split at h
    · unfold Failure.ofChecked at h
      split at h <;> cases h
      trivial
    · split at h
      · cases h
        exact ⟨_, rfl⟩
      · split at h <;> cases h
        exact ⟨_, rfl⟩

/-- Whatever is wrong with a request, its client can be told. -/
theorem tellable_of_firstFault? (h : firstFault? r endpoint tail = some e) : Tellable e := by
  obtain ⟨stage, -, hfault⟩ := List.exists_of_findSome?_eq_some h
  have hwho (h : failure? (r.principal.mapError .refusal) = some e) : Tellable e := by
    cases hp : r.principal with
    | ok user =>
      rw [hp] at h
      cases h
    | error refusal =>
      rw [hp] at h
      cases h
      exact tellable_of_principal hp
  have hbody {α : Type} {decode : Decoder α} {allowEmpty : Bool}
      (h : failure? (parseBody decode allowEmpty r.body) = some e) : Tellable e :=
    tellable_of_parseBody (failure?_eq_some h)
  cases stage with
  | authorization =>
    cases endpoint with
    | batch | listLocks | createLock | verifyLocks | releaseLock => exact hwho hfault
    | listBelow | health => cases hfault
  | path =>
    cases endpoint with
    | listBelow =>
      cases hfault
      exact ⟨_, rfl⟩
    | releaseLock =>
      cases hid : Lock.idOfUnlockPath tail with
      | ok id =>
        simp only [Stage.fault?, hid] at hfault
        cases hfault
      | error refusal =>
        simp only [Stage.fault?, hid] at hfault
        cases hfault
        exact tellable_of_idOfUnlockPath hid
    | batch | listLocks | createLock | verifyLocks | health => cases hfault
  | query =>
    cases endpoint with
    | listLocks => exact tellable_of_ofQuery (failure?_eq_some hfault)
    | batch | listBelow | createLock | verifyLocks | releaseLock | health => cases hfault
  | body =>
    cases endpoint with
    | batch | createLock | verifyLocks | releaseLock => exact hbody hfault
    | listLocks | listBelow | health => cases hfault

end

/-! ## Handlers -/

/-- The response that shows what came of a request to the locking service. -/
def replied : Locking.Reply → Response
  | .created lock => Response.carrying 201 (LockAnswer.encode ⟨lock⟩)
  | .page page => Response.carrying 200 page.encode
  | .split page => Response.carrying 200 page.encode
  | .released lock => Response.carrying 200 (LockAnswer.encode ⟨lock⟩)

/-- The logger that a handler reports to. -/
def Endpoint.logger : Endpoint → String
  | .batch => "batch.routes"
  | _ => "locks.routes"

/-- The response that shows an outcome, if it can be shown. -/
def Response.ofOutcome : Except Failure Response → Except Failure Response
  | .ok response => .ok response
  | .error e => ofFailure e

namespace Gateway

variable {g : Gateway σ} {r : Request} {endpoint : Endpoint} {tail : String} {demand : Demand}

/-- Turns to the service that a request asks. -/
def fulfil (g : Gateway σ) : Demand → Service σ Response
  | .batch task => g.exchange.serve task >>= fun a => Service.ofExcept (Response.success 200 a.encode)
  | .locks task => replied <$> g.locking.serve task

/-- What the handler of an endpoint does before its failure, if it fails, is answered for. -/
def conduct (g : Gateway σ) (r : Request) (tail : String) : Endpoint → Service σ Response
  | .batch => g.handleBatch r
  | .listLocks => g.handleListLocks r
  | .listBelow => handleListBelow tail
  | .createLock => g.handleCreateLock r
  | .verifyLocks => g.handleVerifyLocks r
  | .releaseLock => g.handleReleaseLock r tail
  | .health => pure g.healthResponse

theorem handle_eq (g : Gateway σ) (r : Request) (tail : String) (h : endpoint ≠ .health) :
    g.handle r tail endpoint = answering endpoint.logger (g.conduct r tail endpoint) := by
  cases endpoint with
  | health => exact absurd rfl h
  | _ => rfl

/-- A handler does nothing but turn to the service that a request asks, with what it asks for. -/
theorem conduct_of_asks (h : Asks r endpoint tail demand) :
    g.conduct r tail endpoint = g.fulfil demand := by
  cases h with
  | batch who body =>
    simp [conduct, handleBatch, principal, who, body, Service.ofExcept, fulfil, Exchange.serve]
  | list who query =>
    simp [conduct, handleListLocks, principal, who, query, Service.ofExcept, fulfil, Locking.serve,
      replied, Response.success_lockPage]
  | create who body =>
    simp [conduct, handleCreateLock, principal, who, body, Service.ofExcept, fulfil, Locking.serve,
      replied, Response.success_lockAnswer]
  | verify who body =>
    simp [conduct, handleVerifyLocks, principal, who, body, Service.ofExcept, fulfil,
      Locking.serve, replied, Response.success_verifyPage]
  | release who path body =>
    simp [conduct, handleReleaseLock, principal, who, path, body, Service.ofExcept, fulfil,
      Locking.serve, replied, Response.success_lockAnswer]

/-- What needs someone who asks and something that was read fails for want of the first that is
missing. -/
theorem principal_bind_of_fault {α : Type} {x : Except Failure α}
    {f : Option String → α → Service σ Response} {e : Failure}
    (h : (failure? (r.principal.mapError .refusal)).or (failure? x) = some e) :
    (principal r >>= fun user => Service.ofExcept x >>= f user) = throw e := by
  cases hp : r.principal with
  | error refusal =>
    rw [hp] at h
    cases h
    simp [principal, hp, Service.refuse]
  | ok user =>
    rw [hp] at h
    cases x with
    | ok a => cases h
    | error e =>
      cases h
      simp [principal, hp, Service.ofExcept]

/-- A handler turns a request with a fault away, and turns to no service. -/
theorem conduct_of_fault {e : Failure} (h : firstFault? r endpoint tail = some e) :
    g.conduct r tail endpoint = throw e := by
  rw [firstFault?_eq] at h
  cases endpoint with
  | batch => exact principal_bind_of_fault h
  | listLocks =>
    simp only [Stage.fault?, Option.none_or, Option.or_none] at h
    exact principal_bind_of_fault h
  | listBelow =>
    cases h
    rfl
  | createLock => exact principal_bind_of_fault h
  | verifyLocks => exact principal_bind_of_fault h
  | releaseLock =>
    simp only [Stage.fault?, Option.none_or] at h
    simp only [conduct, handleReleaseLock, principal]
    cases hp : r.principal with
    | error refusal =>
      rw [hp] at h
      cases h
      simp [Service.refuse]
    | ok user =>
      cases hid : Lock.idOfUnlockPath tail with
      | error refusal =>
        rw [hp, hid] at h
        cases h
        simp [Service.refuse]
      | ok id =>
        cases hbody : parseBody ReleaseRequest.decode true r.body with
        | error failure =>
          rw [hp, hid, hbody] at h
          cases h
          simp [Service.ofExcept]
        | ok request =>
          rw [hp, hid, hbody] at h
          cases h
  | health => cases h

/-! ## Responses -/

/-- What comes of a handler shows what it comes to; besides, only log records are made. -/
theorem perform_answering (logger : String) (x : Service σ Response) (p : Progress σ) :
    ∃ q, perform (answering logger x) p = (Response.ofOutcome (perform x p).1, q) ∧
      q.state = (perform x p).2.state ∧ q.calls = (perform x p).2.calls := by
  rcases hx : perform x p with ⟨e | response, q⟩
  · exact perform_answering_error logger hx
  · exact ⟨q, perform_answering_ok logger hx, rfl, rfl⟩

/-- The response to a request that takes a route shows what the handler of the route comes to when it
is run once. -/
theorem serve_of_routed (hrouted : g.routing r = .found endpoint tail)
    (hendpoint : endpoint ≠ .health) (fresh : String) (p : Progress σ) :
    let run := perform (g.conduct r tail endpoint) (started fresh r p)
    ∃ q, perform (g.serve fresh r) p =
        (.ok (delivered (requestIdOf r fresh) (Response.ofOutcome run.1)), q) ∧
      q.state = run.2.state ∧ q.calls = run.2.calls := by
  intro run
  have hdispatch : g.dispatch r = answering endpoint.logger (g.conduct r tail endpoint) := by
    unfold dispatch
    rw [hrouted]
    exact handle_eq g r tail hendpoint
  obtain ⟨q, hq, hstate, hcalls⟩ :=
    perform_answering endpoint.logger (g.conduct r tail endpoint) (started fresh r p)
  rw [← hdispatch] at hq
  obtain ⟨q', hq', hstate', hcalls'⟩ := perform_serve hq
  exact ⟨q', hq', hstate'.trans hstate, hcalls'.trans hcalls⟩

/-- What comes of a request with a fault. -/
theorem serve_of_fault (hrouted : g.routing r = .found endpoint tail) {e : Failure}
    (h : firstFault? r endpoint tail = some e) (fresh : String) (p : Progress σ) :
    ∃ response q, Response.ofFailure e = .ok response ∧ perform (g.serve fresh r) p =
        (.ok (response.withHeader requestIdHeader (requestIdOf r fresh)), q) ∧
      q.state = p.state ∧ q.calls = p.calls := by
  have hendpoint : endpoint ≠ .health := by
    rintro rfl
    cases h
  obtain ⟨response, hresponse⟩ := (tellable_of_firstFault? h).exists_ofFailure
  obtain ⟨q, hq, hstate, hcalls⟩ := serve_of_routed hrouted hendpoint fresh p
  rw [conduct_of_fault h] at hq hstate hcalls
  have hshown : Response.ofOutcome (perform (throw e : Service σ Response) (started fresh r p)).1 =
      .ok response := hresponse
  rw [hshown] at hq
  exact ⟨response, q, hresponse, hq, hstate.trans (state_started fresh r p),
    hcalls.trans (calls_started fresh r p)⟩

/-- What comes of a request that asks for something. -/
theorem serve_of_asks (hrouted : g.routing r = .found endpoint tail)
    (h : Asks r endpoint tail demand) (fresh : String) (p : Progress σ) :
    let run := perform (g.fulfil demand) (started fresh r p)
    ∃ q, perform (g.serve fresh r) p =
        (.ok (delivered (requestIdOf r fresh) (Response.ofOutcome run.1)), q) ∧
      q.state = run.2.state ∧ q.calls = run.2.calls := by
  have hendpoint : endpoint ≠ .health := by cases h <;> decide
  obtain ⟨q, hq, hstate, hcalls⟩ := serve_of_routed hrouted hendpoint fresh p
  rw [conduct_of_asks h] at hq hstate hcalls
  exact ⟨q, hq, hstate, hcalls⟩

/-- Whatever the services of a gateway and their collaborators are, each request to an endpoint for
batches or locks is answered. When something is wrong with the request itself, the answer is an error
that tells the first fault, in the order of authorization, path, query and body; no collaborator is
called, and no state changes. When nothing is wrong, the request asks for something; then the one
service that it asks is turned to once, for the user who makes the request and with what was read
from it, and what comes of that is what comes of the request. -/
theorem vetted (g : Gateway σ) (hrouted : g.routing r = .found endpoint tail)
    (hendpoint : endpoint ≠ .health) (fresh : String) (p : Progress σ) :
    let answered (shown : Except Failure Response) : Except Failure Response :=
      .ok (delivered (requestIdOf r fresh) shown)
    let outcome := perform (g.serve fresh r) p
    (∀ e, firstFault? r endpoint tail = some e →
      ∃ response, Response.ofFailure e = .ok response ∧ outcome.1 = answered (.ok response) ∧
        400 ≤ response.status ∧ outcome.2.state = p.state ∧ outcome.2.calls = p.calls) ∧
    (firstFault? r endpoint tail = none ↔ ∃ demand, Asks r endpoint tail demand) ∧
    ∀ demand, Asks r endpoint tail demand →
      let run := perform (g.fulfil demand) (started fresh r p)
      outcome.1 = answered (Response.ofOutcome run.1) ∧ outcome.2.state = run.2.state ∧
        outcome.2.calls = run.2.calls := by
  intro answered outcome
  refine ⟨fun e he => ?_, ⟨exists_asks hendpoint, fun ⟨_, h⟩ => h.firstFault?_eq_none⟩,
    fun demand h => ?_⟩
  · obtain ⟨response, q, hresponse, hq, hstate, hcalls⟩ := serve_of_fault hrouted he fresh p
    have houtcome : outcome = (answered (.ok response), q) := hq
    rw [houtcome]
    exact ⟨response, hresponse, rfl, le_status_ofFailure hresponse, hstate, hcalls⟩
  · obtain ⟨q, hq, hstate, hcalls⟩ := serve_of_asks hrouted h fresh p
    have houtcome : outcome = (answered (Response.ofOutcome _), q) := hq
    rw [houtcome]
    exact ⟨rfl, hstate, hcalls⟩

/-- A request to release a lock in which nothing is right but the method. -/
def slip : Request :=
  ⟨"POST", "/info/lfs/locks/i/lock", "", [("Authorization", "Bearer i")], "?".toUTF8.toList, none⟩

/-- It is refused for its authorization. -/
theorem vetted_slip :
    lodge.routing slip = .found .releaseLock "i/lock" ∧ Endpoint.releaseLock ≠ .health ∧
      (Stage.all.map fun stage =>
        (Stage.fault? slip "i/lock" .releaseLock stage).isSome) = [true, true, false, true] ∧
      ∃ response q, perform (lodge.serve "slip" slip) (.start World.empty .debug) =
          (.ok response, q) ∧ response.status = 422 ∧ q.calls = [] := by
  have hrouted : lodge.routing slip = .found .releaseLock "i/lock" := by decide +kernel
  have hfault : firstFault? slip .releaseLock "i/lock" = some (.refusal (.validation
      "Only 'Basic' authentication is allowed, not Bearer")) := by decide +kernel
  obtain ⟨response, hresponse, hanswer, -, -, hcalls⟩ :=
    (vetted lodge hrouted (by decide) "slip" (.start World.empty .debug)).1 _ hfault
  cases hresponse
  exact ⟨hrouted, by decide, by decide +kernel, _, _, Prod.ext hanswer rfl, rfl, hcalls⟩

end Gateway

end GitLfs.Http
