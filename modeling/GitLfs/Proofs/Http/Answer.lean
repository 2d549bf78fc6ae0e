import GitLfs.Http.Gateway
import GitLfs.Proofs.Effect

/-!
# From failures to responses

What fails is answered with a response whose status is that of no success, as long as the failure can
be told. The context of a request adds log records and a header, and changes nothing else. What comes of
a request is `delivered`, whatever it is: in want of a response, the last resort.
-/

namespace GitLfs.Http

variable {σ ν : Type} {part : σ → ν}

theorem perform_principal (r : Request) (p : Progress σ) :
    perform (Gateway.principal r) p = (r.principal.mapError .refusal, p) := by
  unfold Gateway.principal
  cases r.principal <;> rfl

theorem keeps_principal (r : Request) : Service.Keeps part (Gateway.principal r) := fun p => by
  rw [perform_principal]

/-- Whenever there is a response, it has this status. -/
def Answers (status : Nat) (x : Service σ Response) : Prop :=
  ∀ p response q, perform x p = (.ok response, q) → response.status = status

namespace Answers

variable {status : Nat}

theorem ofExcept_success (body : Json.Value) :
    Answers status (Service.ofExcept (Response.success status body) : Service σ Response) := by
  intro p response q h
  unfold Response.success at h
  split at h <;> cases h
  rfl

theorem refuse (r : Refusal) : Answers status (Service.refuse r : Service σ Response) := by
  intro p response q h
  cases h

theorem bind {α : Type} {x : Service σ α} {f : α → Service σ Response}
    (hf : ∀ a, Answers status (f a)) : Answers status (x >>= f) := by
  intro p response q h
  obtain ⟨a, t, -, ht⟩ := perform_bind_eq_ok.1 h
  exact hf a t response q ht

end Answers

/-! ## Failures -/

section

variable {e : Failure} {response : Response} {outcome : Except Failure Response}

/-- A defect is told, by words that do not depend on it. -/
theorem ofFailure_defect (d : Defect) :
    Response.ofFailure (.defect d) =
      .ok (Response.message RefusalKind.internal.status Failure.genericMessage []) := rfl

/-- A refusal is told by its words, if they can be sent, with the status of its kind. -/
theorem ofFailure_refusal_eq_ok_iff {r : Refusal} :
    Response.ofFailure (.refusal r) = .ok response ↔
      ∃ message, r.message.sent = .ok message ∧
        response = Response.json r.kind.status (r.bodySaying message) [] := by
  unfold Response.ofFailure Failure.answer
  dsimp only
  unfold Refusal.body
  cases r.message.sent with
  | error d => simp [Except.map]
  | ok message => simp [Except.map, eq_comm]

/-- A refusal with words that are characters is told by them. -/
theorem ofFailure_of_message {r : Refusal} {message : String} (h : r.message = message) :
    Response.ofFailure (.refusal r) =
      .ok (Response.json r.kind.status (r.bodySaying message) []) :=
  ofFailure_refusal_eq_ok_iff.2 ⟨message, Words.sent_eq_ok_iff.2 h, rfl⟩

/-- A failure can be told, unless it is a refusal that has other words than characters. -/
def Tellable : Failure → Prop
  | .refusal r => ∃ message : String, r.message = message
  | .defect _ => True

/-- What can be told is told by a response. -/
theorem Tellable.exists_ofFailure (h : Tellable e) : ∃ response, Response.ofFailure e = .ok response := by
  cases e with
  | defect d => exact ⟨_, ofFailure_defect d⟩
  | refusal r =>
    obtain ⟨message, hmessage⟩ := h
    exact ⟨_, ofFailure_of_message hmessage⟩

/-- What cannot be told is not. -/
theorem ofFailure_of_not_tellable (h : ¬ Tellable e) : ∃ e', Response.ofFailure e = .error e' := by
  cases hresponse : Response.ofFailure e with
  | error e' => exact ⟨e', rfl⟩
  | ok response =>
    refine absurd ?_ h
    cases e with
    | defect d => trivial
    | refusal r =>
      obtain ⟨message, hsent, -⟩ := ofFailure_refusal_eq_ok_iff.1 hresponse
      exact ⟨message, Words.sent_eq_ok_iff.1 hsent⟩

/-- The status of a response to a failure is that of an error. -/
theorem le_status_ofFailure (h : Response.ofFailure e = .ok response) : 400 ≤ response.status := by
  cases e with
  | defect d =>
    cases h
    decide
  | refusal r =>
    obtain ⟨message, -, rfl⟩ := ofFailure_refusal_eq_ok_iff.1 h
    change 400 ≤ r.kind.status
    cases r.kind <;> decide

/-- What leaves the gateway when something has come of a request: a response, with the identifier of the
request, or the last resort. -/
def delivered (id : String) : Except Failure Response → Response
  | .ok response => response.withHeader requestIdHeader id
  | .error _ => .lastResort

theorem le_status_delivered (e : Failure) (id : String) :
    400 ≤ (delivered id (Response.ofFailure e)).status := by
  have hlast : 400 ≤ Response.lastResort.status := by decide
  rcases h : Response.ofFailure e with e' | response
  · exact hlast
  · exact (le_status_ofFailure h :)

/-- What is delivered after a failure says neither that something was found nor that something was
made. -/
theorem status_delivered (e : Failure) (id : String) :
    (delivered id (Response.ofFailure e)).status ≠ 200 ∧
      (delivered id (Response.ofFailure e)).status ≠ 201 := by
  have h := le_status_delivered e id
  omega

end

/-- A handler that succeeds is not interfered with. -/
theorem perform_answering_ok (logger : String) {x : Service σ Response} {p q : Progress σ}
    {response : Response} (h : perform x p = (.ok response, q)) :
    perform (answering logger x) p = (.ok response, q) := by
  unfold answering
  rw [perform_bind, Service.perform_attempt, h]
  rfl

/-- A handler that fails is answered for, if its failure can be told. -/
theorem perform_answering_error (logger : String) {x : Service σ Response} {p q : Progress σ}
    {e : Failure} (h : perform x p = (.error e, q)) :
    ∃ q', perform (answering logger x) p = (Response.ofFailure e, q') ∧
      q'.state = q.state ∧ q'.calls = q.calls := by
  have hstate := Progress.state_report [⟨(failureEvent e).1, Log.logger logger, (failureEvent e).2⟩] q
  have hcalls := Progress.calls_report [⟨(failureEvent e).1, Log.logger logger, (failureEvent e).2⟩] q
  unfold answering
  rw [perform_bind, Service.perform_attempt, h]
  refine ⟨_, Service.perform_ofExcept .., hstate, hcalls⟩

/-! ## The context of a request -/

theorem perform_get (p : Progress σ) : perform (get : Service σ (Progress σ)) p = (.ok p, p) := rfl

theorem perform_setRequestId (id : Option String) (p : Progress σ) :
    perform (setRequestId id) p = (.ok (), { p with requestId := id }) := rfl

/-- How far a request has come when its start has been reported. -/
def started (fresh : String) (r : Request) (p : Progress σ) : Progress σ :=
  Progress.add { gatewayRecord .info "request.start" (requestIdOf r fresh)
      (endpointLabel (shownPath r.path)) with
    path := some (shownPath r.path), method := some r.method }
    { p with requestId := some (requestIdOf r fresh) }

theorem state_started (fresh : String) (r : Request) (p : Progress σ) :
    (started fresh r p).state = p.state := Progress.state_add _ _

theorem calls_started (fresh : String) (r : Request) (p : Progress σ) :
    (started fresh r p).calls = p.calls := Progress.calls_add _ _

/-- The record that a request has been answered. -/
def endRecord (id : String) (r : Request) (status : Nat) : Record :=
  { gatewayRecord .info "request.end" id (endpointLabel (shownPath r.path)) with
    status := some status }

/-- The record that a request has come to nothing. -/
def exceptionRecord (id : String) (r : Request) : Record :=
  gatewayRecord .error "request.exception" id (endpointLabel (shownPath r.path))

/-- How far a request has come when its end has been reported: what was being answered before it is
being answered again. -/
def ended (id : String) (r : Request) (outcome : Except Failure Response) (outer : Option String)
    (q : Progress σ) : Progress σ :=
  match outcome with
  | .ok response => Progress.add (endRecord id r response.status) { q with requestId := outer }
  | .error _ => { Progress.add (exceptionRecord id r) q with requestId := outer }

section

variable {id : String} {r : Request} {outcome : Except Failure Response} {outer : Option String}
  {q : Progress σ}

theorem state_ended : (ended id r outcome outer q).state = q.state := by
  cases outcome with
  | ok response => exact Progress.state_add _ _
  | error e => exact Progress.state_add _ q

theorem calls_ended : (ended id r outcome outer q).calls = q.calls := by
  cases outcome with
  | ok response => exact Progress.calls_add _ _
  | error e => exact Progress.calls_add _ q

end

/-- What comes of a request in its context: a response bears its identifier, and its start and its end
are reported. -/
theorem perform_inContext {fresh : String} {r : Request} (inner : String → Service σ Response)
    {p q : Progress σ} {outcome : Except Failure Response}
    (h : perform (inner (requestIdOf r fresh)) (started fresh r p) = (outcome, q)) :
    perform (inContext fresh r inner) p =
      (outcome.map (·.withHeader requestIdHeader (requestIdOf r fresh)),
        ended (requestIdOf r fresh) r outcome p.requestId q) := by
  unfold started at h
  unfold inContext
  simp only [perform_bind, perform_get, perform_setRequestId, Service.perform_record,
    Service.perform_attempt, h]
  cases outcome <;> rfl

namespace Gateway

variable {g : Gateway σ} {fresh : String} {r : Request} {p q : Progress σ}
  {outcome : Except Failure Response}

/-- What comes of a request is delivered. -/
theorem perform_serve_eq (h : perform (g.dispatch r) (started fresh r p) = (outcome, q)) :
    perform (g.serve fresh r) p =
      (.ok (delivered (requestIdOf r fresh) outcome),
        ended (requestIdOf r fresh) r outcome p.requestId q) := by
  unfold serve
  rw [perform_bind, Service.perform_attempt, perform_inContext (fun _ => g.dispatch r) h]
  cases outcome <;> rfl

/-- What is delivered comes with the same calls, and leaves the collaborators in the same state. -/
theorem perform_serve (h : perform (g.dispatch r) (started fresh r p) = (outcome, q)) :
    ∃ q', perform (g.serve fresh r) p = (.ok (delivered (requestIdOf r fresh) outcome), q') ∧
      q'.state = q.state ∧ q'.calls = q.calls :=
  ⟨_, perform_serve_eq h, state_ended, calls_ended⟩

end Gateway

end GitLfs.Http
