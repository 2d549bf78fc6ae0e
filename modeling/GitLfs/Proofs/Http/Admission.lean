import GitLfs.Proofs.Access.Roster
import GitLfs.Proofs.Http.Truth
import GitLfs.Proofs.Http.Vetting
import GitLfs.Proofs.Lock.Dialogue

/-!
# Who gets what from a gateway with a roster

Each demand on a service passes the gate first: `exists_fulfil_eq`. Where both services go by one
roster, whoever the roster does not entitle is refused there, and nothing happens:
`perform_fulfil_refused`. So whatever a request gets, or changes, is something that its user is
entitled to. `admission` says so of all requests that come to a gateway made from settings.
-/

namespace GitLfs.Http

variable {σ : Type}

/-! ## What the gate is asked -/

namespace Demand

/-- Who demands something. -/
def user : Demand → Option String
  | .batch task => task.user
  | .locks task => task.user

/-- What the gate is asked about. -/
def operation : Demand → Operation
  | .batch task => task.operation
  | .locks task => task.operation

end Demand

/-- The user of a demand is the one who makes the request. -/
theorem Asks.principal_eq {request : Request} {endpoint : Endpoint} {tail : String}
    {demand : Demand} (h : Asks request endpoint tail demand) :
    request.principal = .ok demand.user := by
  cases h <;> assumption

namespace Gateway

variable {g : Gateway σ} {r : Roster} {demand : Demand}

/-- Both services go by one roster. -/
structure Guarded (g : Gateway σ) (r : Roster) : Prop where
  exchange : g.exchange.policies = .fixed (some r.policy)
  locking : g.locking.policies = .fixed (some r.policy)

/-- The gate that a demand has to pass. -/
def gate (g : Gateway σ) : Demand → Service σ Unit
  | .batch task => Gate.pass g.exchange.policies task.path task.operation task.ref task.user
  | .locks task => Gate.pass g.locking.policies task.path task.operation task.ref task.user

/-- Nothing is done about a demand before it has passed the gate. -/
theorem exists_fulfil_eq (g : Gateway σ) (demand : Demand) :
    ∃ rest : Unit → Service σ Response, g.fulfil demand = g.gate demand >>= rest := by
  cases demand with
  | batch task =>
    rw [fulfil, Exchange.serve, Exchange.batch, bind_assoc]
    exact ⟨_, rfl⟩
  | locks task =>
    have hentrance : ∃ path op ref user, task.entrance g.locking =
        g.locking.entrance path op ref user ∧ g.gate (.locks task) =
          Gate.pass g.locking.policies path op ref user := by
      cases task <;> exact ⟨_, _, _, _, rfl, rfl⟩
    obtain ⟨path, op, ref, user, hentrance, hgate⟩ := hentrance
    rw [fulfil, Locking.serve_eq, hentrance, hgate, Locking.entrance, bind_assoc, map_bind]
    exact ⟨_, rfl⟩

theorem perform_gate (h : g.Guarded r) (demand : Demand) (p : Progress σ) :
    ∃ q, perform (g.gate demand) p =
        ((r.decision demand.operation demand.user).mapError .refusal, q) ∧ q.state = p.state := by
  cases demand with
  | batch task =>
    unfold gate
    rw [h.exchange]
    exact Gate.perform_pass_roster _ _ _ _ _ _
  | locks task =>
    unfold gate
    rw [h.locking]
    exact Gate.perform_pass_roster _ _ _ _ _ _

/-- Who is not entitled to what they demand is refused, and no state changes. -/
theorem perform_fulfil_refused (h : g.Guarded r) {e : Refusal}
    (he : r.decision demand.operation demand.user = .error e) (p : Progress σ) :
    ∃ q, perform (g.fulfil demand) p = (.error (.refusal e), q) ∧ q.state = p.state := by
  obtain ⟨rest, hrest⟩ := g.exists_fulfil_eq demand
  obtain ⟨q, hq, hstate⟩ := perform_gate h demand p
  rw [he] at hq
  rw [hrest, perform_bind, hq]
  exact ⟨q, rfl, hstate⟩

theorem exists_decision_error {op : Operation} {user : Option String} (h : ¬ r.Entitles op user) :
    ∃ e, r.decision op user = .error e := by
  cases he : r.decision op user with
  | ok => exact absurd (Roster.decision_eq_ok_iff.1 he) h
  | error e => exact ⟨e, rfl⟩

/-- The gate refuses those who are not entitled, and nobody else. -/
theorem gate_refuses_iff (h : g.Guarded r) (demand : Demand) (p : Progress σ) :
    (∃ e, (perform (g.gate demand) p).1 = .error e) ↔
      ¬ r.Entitles demand.operation demand.user := by
  obtain ⟨q, hq, -⟩ := perform_gate h demand p
  rw [hq, ← Roster.decision_eq_ok_iff]
  cases r.decision demand.operation demand.user <;> simp [Except.mapError]

/-! ## One request -/

section

variable {reg : Registry} {part : σ → RegistryState} {update : RegistryState → σ → σ}
  {request : Request} {endpoint : Endpoint} {tail fresh : String} {response : Response}
  {p q : Progress σ}

/-- A request that demands nothing changes nothing. -/
theorem serve_of_not_asks
    (h : ¬ ∃ endpoint tail demand, g.routing request = .found endpoint tail ∧
      Asks request endpoint tail demand) (fresh : String) (p : Progress σ) :
    ∃ response q, perform (g.serve fresh request) p = (.ok response, q) ∧ q.state = p.state ∧
      (response.status = 200 → ∀ endpoint tail, g.routing request = .found endpoint tail →
        endpoint = .health) := by
  -- what is answered without any service
  have hplain : ∀ response, perform (g.dispatch request) (started fresh request p) =
      (.ok response, started fresh request p) →
        ∃ q, perform (g.serve fresh request) p =
          (.ok (response.withHeader requestIdHeader (requestIdOf request fresh)), q) ∧
            q.state = p.state := by
    intro response hresponse
    obtain ⟨q, hq, hstate, -⟩ := perform_serve hresponse
    exact ⟨q, hq, hstate.trans (state_started fresh request p)⟩
  cases hrouted : g.routing request with
  | found endpoint tail =>
    by_cases hendpoint : endpoint = .health
    · subst hendpoint
      obtain ⟨q, hq, hstate⟩ := hplain g.healthResponse (by rw [dispatch, hrouted]; rfl)
      refine ⟨_, q, hq, hstate, fun _ endpoint' tail' hrouted' => ?_⟩
      cases hrouted'
      rfl
    · cases hfault : firstFault? request endpoint tail with
      | none =>
        obtain ⟨demand, hasks⟩ := exists_asks hendpoint hfault
        exact absurd ⟨endpoint, tail, demand, hrouted, hasks⟩ h
      | some e =>
        obtain ⟨response, q, hresponse, hq, hstate, -⟩ := serve_of_fault hrouted hfault fresh p
        have hstatus := le_status_ofFailure hresponse
        refine ⟨_, q, hq, hstate, fun h200 => ?_⟩
        have h200 : response.status = 200 := h200
        omega
  | methodNotAllowed _ | redirect _ | notFound =>
    obtain ⟨q, hq, hstate⟩ := hplain _ (by rw [dispatch, hrouted]; rfl)
    exact ⟨_, q, hq, hstate, fun _ _ _ hrouted' => by cases hrouted'⟩

/-- Each request is answered. -/
theorem exists_response (g : Gateway σ) (fresh : String) (request : Request) (p : Progress σ) :
    ∃ response q, perform (g.serve fresh request) p = (.ok response, q) := by
  by_cases hasks : ∃ endpoint tail demand, g.routing request = .found endpoint tail ∧
      Asks request endpoint tail demand
  · obtain ⟨endpoint, tail, demand, hrouted, hasks⟩ := hasks
    obtain ⟨q, hserve, -⟩ := serve_of_asks hrouted hasks fresh p
    exact ⟨_, q, hserve⟩
  · obtain ⟨response, q, hserve, -⟩ := serve_of_not_asks hasks fresh p
    exact ⟨response, q, hserve⟩

/-- Whoever is not entitled to what a request demands is told so, and no state changes. -/
theorem serve_refused (h : g.Guarded r) (hrouted : g.routing request = .found endpoint tail)
    (hasks : Asks request endpoint tail demand)
    (hnot : ¬ r.Entitles demand.operation demand.user) (fresh : String) (p : Progress σ) :
    ∃ response q, perform (g.serve fresh request) p = (.ok response, q) ∧ q.state = p.state ∧
      400 ≤ response.status ∧ (demand.user = none → response.status = 401) ∧
      (demand.user ≠ none → ¬ r.Reads demand.user → response.status = 404) ∧
      (demand.user ≠ none → r.Reads demand.user → response.status = 403) := by
  obtain ⟨e, he⟩ := exists_decision_error hnot
  obtain ⟨q, hq, hstate, -⟩ := serve_of_asks hrouted hasks fresh p
  obtain ⟨q', hq', hstate'⟩ := perform_fulfil_refused h he (started fresh request p)
  rw [hq'] at hq hstate
  obtain ⟨message, hmessage⟩ := Roster.message_of_decision he
  have htold := ofFailure_of_message hmessage
  have hstatus : 400 ≤ e.kind.status := le_status_ofFailure htold
  dsimp only [Response.ofOutcome] at hq
  rw [htold] at hq
  exact ⟨_, q, hq, (hstate.trans hstate').trans (state_started fresh request p), hstatus,
    Roster.status_of_decision he⟩

/-- Whoever gets something from a service, or changes a state, is entitled to what the request
demands. -/
theorem exists_entitled (h : g.Guarded r)
    (hserve : perform (g.serve fresh request) p = (.ok response, q))
    (hgot : q.state ≠ p.state ∨ response.status = 200 ∧
      ∃ endpoint tail, g.routing request = .found endpoint tail ∧ endpoint ≠ .health) :
    ∃ endpoint tail demand, g.routing request = .found endpoint tail ∧
      Asks request endpoint tail demand ∧ r.Entitles demand.operation demand.user ∧
      q.state = (perform (g.fulfil demand) (started fresh request p)).2.state := by
  by_cases hasks : ∃ endpoint tail demand, g.routing request = .found endpoint tail ∧
      Asks request endpoint tail demand
  · obtain ⟨endpoint, tail, demand, hrouted, hasks⟩ := hasks
    refine ⟨endpoint, tail, demand, hrouted, hasks, ?_, ?_⟩
    · by_contra hnot
      obtain ⟨response', q', hserve', hstate, hstatus, -⟩ :=
        serve_refused h hrouted hasks hnot fresh p
      cases hserve.symm.trans hserve'
      rcases hgot with hchange | ⟨h200, -⟩
      · exact hchange hstate
      · omega
    · obtain ⟨q', hserve', hstate, -⟩ := serve_of_asks hrouted hasks fresh p
      cases hserve.symm.trans hserve'
      exact hstate
  · obtain ⟨response', q', hserve', hstate, hhealth⟩ := serve_of_not_asks hasks fresh p
    cases hserve.symm.trans hserve'
    rcases hgot with hchange | ⟨h200, endpoint, tail, hrouted, hendpoint⟩
    · exact absurd hstate hchange
    · exact absurd (hhealth h200 endpoint tail hrouted) hendpoint

/-- Whoever changes a lock may write. -/
theorem writes_of_change (h : g.Guarded r) (hover : g.Over reg part update)
    (hserve : perform (g.serve fresh request) p = (.ok response, q))
    (hchange : (part q.state).table ≠ (part p.state).table) :
    ∃ user, request.principal = .ok user ∧ r.Writes user := by
  have hstate : q.state ≠ p.state := fun he => hchange (by rw [he])
  obtain ⟨endpoint, tail, demand, -, hasks, hentitled, hq⟩ :=
    exists_entitled h hserve (Or.inl hstate)
  -- a demand that keeps the locks would not have changed one
  have hkept : ¬ Service.Keeps part (g.fulfil demand) := by
    intro hkeeps
    have hsame : part (perform (g.fulfil demand) (started fresh request p)).2.state =
        part (started fresh request p).state := hkeeps _
    rw [← hq, state_started] at hsame
    exact hchange (congrArg RegistryState.table hsame)
  refine ⟨demand.user, hasks.principal_eq, ?_⟩
  cases hasks with
  | batch who body =>
    exact absurd ((Exchange.keeps_batch hover.exchange _ _ _ _).bind fun _ =>
      Service.Keeps.ofExcept _) hkept
  | list who query =>
    refine absurd ?_ hkept
    rw [fulfil, Locking.serve, map_eq_pure_bind, map_eq_pure_bind]
    exact ((Locking.keeps_list hover.locking _ _ _).bind fun _ => Keeps.pure _).bind fun _ =>
      Keeps.pure _
  | verify who body => exact hentitled
  | create who body => exact hentitled
  | release who path body => exact hentitled

end

/-! ## Gateways made from settings -/

/-- A batch request. -/
def IsBatching (mount : String) (request : Request) : Prop :=
  request.method = "POST" ∧ IsBatchPath mount request.path

/-- A request for locks. -/
def IsListing (mount : String) (request : Request) : Prop :=
  request.method = "GET" ∧ IsLocksPath mount request.path

/-- A request for the locks that matter before a push. -/
def IsVerifying (mount : String) (request : Request) : Prop :=
  request.method = "POST" ∧ IsVerifyPath mount request.path

section

variable {host : Deployment.Host} {origin : String} {c : Config} {writers : List String}
  {g : Gateway World} {level : Level}

/-- The services of a gateway made from settings with writers go by the roster of the settings. -/
theorem guarded_of_ofConfig (h : ofConfig host origin c none none = .ok (g, level))
    (hwriters : c.writers = some writers) :
    g.Guarded ⟨writers, c.readers, c.anonymousRead⟩ := by
  obtain ⟨-, -, hservices⟩ := parts_of_ofConfig h
  obtain ⟨d, hd, hexchange, hlocking⟩ := hservices rfl rfl
  have hroster : d.roster = some ⟨writers, c.readers, c.anonymousRead⟩ := by
    rw [Deployment.roster_of_ofConfig hd, Deployment.rosterOf, hwriters]
    rfl
  have hpolicy : d.policy = .fixed (some (Roster.policy ⟨writers, c.readers, c.anonymousRead⟩)) := by
    rw [Deployment.policy, hroster]
    rfl
  exact ⟨hexchange ▸ hpolicy, hlocking ▸ hpolicy⟩

/-- Whatever requests come to a gateway made from settings that ask for collaborators in memory and
name the writers, each is answered, and nobody gets past the roster of the settings. Whoever changes a
lock, gets the locks that matter before a push, or has an upload answered, may write. Whoever gets a
listing of locks or has a download answered may read. The gate refuses those who are not entitled to
what they ask for, and nobody else: without a name they are told to give one; those who may not read
are told that there is no such repository, and those who may only read that they may not write. What
is refused changes nothing. -/
theorem admission (hmade : ofConfig host origin c none none = .ok (g, level))
    (hbackend : c.backend.toList.map Char.toLower = "inmemory".toList)
    (hwriters : c.writers = some writers) (start : Progress World)
    (requests : List (String × Request)) :
    let roster : Roster := ⟨writers, c.readers, c.anonymousRead⟩
    ∀ t ∈ history g.step start requests,
      let request := t.input.2
      ∃ response, t.answer = .ok response ∧
        ((t.after.state.registries none).table ≠ (t.before.state.registries none).table →
          ∃ user, request.principal = .ok user ∧ roster.Writes user) ∧
        (response.status = 200 → IsVerifying c.locksMount request →
          ∃ user, request.principal = .ok user ∧ roster.Writes user) ∧
        (response.status = 200 → IsListing c.locksMount request →
          ∃ user, request.principal = .ok user ∧ roster.Reads user) ∧
        (response.status = 200 → IsBatching c.batchMount request →
          ∃ user body, request.principal = .ok user ∧
            parseBody BatchRequest.decode false request.body = .ok body ∧
            (body.operation = .upload → roster.Writes user) ∧
            (body.operation = .download → roster.Reads user)) ∧
        ∀ endpoint tail demand, g.routing request = .found endpoint tail →
          Asks request endpoint tail demand →
          let user := demand.user
          ((∃ e, (perform (g.gate demand) t.before).1 = .error e) ↔
            ¬ roster.Entitles demand.operation user) ∧
          (¬ roster.Entitles demand.operation user →
            (user = none → response.status = 401) ∧
            (user ≠ none → ¬ roster.Reads user → response.status = 404) ∧
            (user ≠ none → roster.Reads user → response.status = 403) ∧
            t.after.state = t.before.state) := by
  intro roster t ht request
  have hguarded : g.Guarded roster := guarded_of_ofConfig hmade hwriters
  obtain ⟨repository, hover⟩ := over_of_ofConfig hmade hbackend
  obtain ⟨hbatch, hlock, -⟩ := mounts_of_ofConfig hmade
  obtain ⟨response, q, hserve⟩ := g.exists_response t.input.1 request t.before
  obtain ⟨hanswer, rfl⟩ : t.answer = .ok response ∧ t.after = q := by
    rw [eq_turn_of_mem_history ht]
    unfold turn step
    rw [hserve]
    exact ⟨rfl, rfl⟩
  -- what is got from an endpoint has been demanded by someone who is entitled to it
  have hgot : ∀ endpoint tail, response.status = 200 →
      g.routing request = .found endpoint tail → endpoint ≠ .health →
        ∃ demand, Asks request endpoint tail demand ∧
          roster.Entitles demand.operation demand.user := by
    intro endpoint tail h200 hrouted hendpoint
    obtain ⟨endpoint', tail', demand, hrouted', hasks, hentitled, -⟩ :=
      exists_entitled hguarded hserve (Or.inr ⟨h200, endpoint, tail, hrouted, hendpoint⟩)
    cases hrouted.symm.trans hrouted'
    exact ⟨demand, hasks, hentitled⟩
  refine ⟨response, hanswer, writes_of_change hguarded hover hserve, ?_, ?_, ?_, ?_⟩
  · rintro h200 ⟨hpost, hpath⟩
    obtain ⟨tail, hrouted⟩ : ∃ tail, g.routing request = .found .verifyLocks tail := by
      rw [routing_eq hbatch hlock, hpost]
      exact hpath.found
    obtain ⟨demand, hasks, hentitled⟩ := hgot _ _ h200 hrouted (by decide)
    refine ⟨demand.user, hasks.principal_eq, ?_⟩
    cases hasks with
    | verify who body => exact hentitled
  · rintro h200 ⟨hget, hpath⟩
    obtain ⟨tail, hrouted⟩ : ∃ tail, g.routing request = .found .listLocks tail := by
      rw [routing_eq hbatch hlock, hget]
      exact hpath.found
    obtain ⟨demand, hasks, hentitled⟩ := hgot _ _ h200 hrouted (by decide)
    refine ⟨demand.user, hasks.principal_eq, ?_⟩
    cases hasks with
    | list who query => exact hentitled
  · rintro h200 ⟨hpost, hpath⟩
    obtain ⟨tail, hrouted⟩ : ∃ tail, g.routing request = .found .batch tail := by
      rw [routing_eq hbatch hlock, hpost]
      exact hpath.found
    obtain ⟨demand, hasks, hentitled⟩ := hgot _ _ h200 hrouted (by decide)
    refine ⟨demand.user, ?_⟩
    have hprincipal := hasks.principal_eq
    cases hasks with
    | @batch _ user body who hbody =>
      have hentitled : roster.Entitles (.ofBatch body.operation) user := hentitled
      refine ⟨body, hprincipal, hbody, fun hop => ?_, fun hop => ?_⟩
      · rw [hop] at hentitled
        exact hentitled
      · rw [hop] at hentitled
        exact hentitled
  · intro endpoint tail demand hrouted hasks user
    refine ⟨gate_refuses_iff hguarded demand t.before, fun hnot => ?_⟩
    obtain ⟨response', q', hserve', hstate, -, h401, h404, h403⟩ :=
      serve_refused hguarded hrouted hasks hnot t.input.1 t.before
    cases hserve.symm.trans hserve'
    exact ⟨h401, h404, h403, hstate⟩

/-- Settings that let one person write and another one read. -/
def clubSettings : Config := { settings with writers := some ["ann"], readers := some ["bob"] }

/-- The collaborators that these settings ask for. -/
def clubStaff : Deployment := { staff with roster := some ⟨["ann"], some ["bob"], false⟩ }

/-- The gateway that these settings ask for. -/
def club : Gateway World := { lodge with exchange := clubStaff.exchange, locking := clubStaff.locking }

/-- The writer, the reader, a stranger and someone without a name come to the gateway. -/
def callers : List (String × Request) :=
  [visit "ann" "/locks" "\x7b\"path\":\"a\"\x7d", visit "bob" "/locks" "\x7b\"path\":\"b\"\x7d",
    visit "eve" "/locks/verify" "", ("visit", ⟨"GET", "/info/lfs/locks", "", [], [], none⟩),
    ("visit", ⟨"GET", "/info/lfs/locks", "", [], [], some ⟨true, some "bob"⟩⟩)]

theorem admission_callers :
    ofConfig porter "http://lodge" clubSettings none none = .ok (club, .debug) ∧
      clubSettings.backend.toList.map Char.toLower = "inmemory".toList ∧
      clubSettings.writers = some ["ann"] ∧
      (history club.step (.start World.empty .debug) callers).map
        (fun t => t.answer.toOption.map Response.status) =
          [some 201, some 403, some 404, some 401, some 200] ∧
      ∀ t ∈ history club.step (.start World.empty .debug) callers,
        (t.after.state.registries none).table ≠ (t.before.state.registries none).table →
          t.input.2.principal = .ok (some "ann") := by
  have hmade : ofConfig porter "http://lodge" clubSettings none none = .ok (club, .debug) := by
    have hstaff : Deployment.ofConfig porter clubSettings = .ok clubStaff := rfl
    have hbatch : mountOf clubSettings.batchMount [batchPath] = _ := batchMount_settings
    have hlocks : mountOf clubSettings.locksMount [locksPath, belowLocksPath] = _ :=
      locksMount_settings
    simp only [ofConfig, hstaff, hbatch, hlocks]
    rfl
  have hbackend : clubSettings.backend.toList.map Char.toLower = "inmemory".toList := by decide
  refine ⟨hmade, hbackend, rfl, by decide +kernel, fun t ht hchange => ?_⟩
  obtain ⟨response, -, hlocks, -⟩ :=
    admission hmade hbackend rfl (.start World.empty .debug) callers t ht
  obtain ⟨user, huser, name, rfl, hname⟩ := hlocks hchange
  rw [huser, List.mem_singleton.1 hname]

end

end Gateway

end GitLfs.Http
