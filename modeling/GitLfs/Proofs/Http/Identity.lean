import GitLfs.Proofs.Access.Principal
import GitLfs.Proofs.Http.Admission

/-!
# What a name is good for

Whoever gives no name and whoever gives an empty one make no lock, as neither has anything to own it
by. The gate tells them apart: `nameless_callers` says what it tells each of them where the anonymous may
not read, and that an empty name is a name to it.

`access_by_identity` compares what the gate lets one request do without a name and with one. It lets the
same request do more with a name, but for one case: where the anonymous may read and there is a list of
readers, a name on no list is worse than none.
-/

namespace GitLfs

namespace Roster

variable {r : Roster} {op : Operation} {name : String}

/-- The operation is one of reading, a list says who may read, and the name is on no list. -/
def HidesFrom (r : Roster) (op : Operation) (name : String) : Prop :=
  op.requiredAccess = some .read ∧ r.readers ≠ none ∧ r.Omits name

theorem not_entitles_nameless (hanonymous : r.anonymousRead = false)
    (hop : op.requiredAccess ≠ none) : ¬ r.Entitles op none := by
  rw [← decision_eq_ok_iff, decision_nameless hanonymous hop]
  intro h
  cases h

theorem not_entitles_stranger (hreaders : r.readers ≠ none) (h : r.Omits name)
    (hop : op.requiredAccess ≠ none) : ¬ r.Entitles op (some name) := by
  rw [← decision_eq_ok_iff, decision_stranger hreaders h hop]
  intro h
  cases h

/-- A name is good for what needs none, unless the repository is hidden from it. -/
theorem entitles_named_iff (hnone : r.Entitles op none) :
    r.Entitles op (some name) ↔ ¬ r.HidesFrom op name := by
  unfold HidesFrom
  unfold Entitles at hnone ⊢
  cases haccess : op.requiredAccess with
  | none => simp
  | some access =>
    cases access with
    | write =>
      rw [haccess] at hnone
      obtain ⟨_, hname, -⟩ := hnone
      cases hname
    | read =>
      show r.Reads (some name) ↔ _
      constructor
      · rintro hreads ⟨-, hreaders, homits⟩
        rcases hreads with hopen | ⟨readers, hlist, hname⟩ | hname
        · exact hreaders hopen
        · exact homits.readers readers hlist hname
        · exact homits.writers hname
      · intro hnot
        by_contra hreads
        refine hnot ⟨rfl, fun hopen => hreads (Or.inl hopen), ?_, fun readers hlist hname => ?_⟩
        · exact fun hname => hreads (Or.inr (Or.inr hname))
        · exact hreads (Or.inr (Or.inl ⟨readers, hlist, hname⟩))

end Roster

namespace Http

variable {σ : Type}

/-! ## One request without a name and with one -/

/-- The second request is the first one with credentials that give a name. -/
structure Named (name : String) (request request' : Request) : Prop where
  method : request'.method = request.method
  path : request'.path = request.path
  query : request'.query = request.query
  body : request'.body = request.body
  user : request'.user = request.user
  gives : Principal.Gives request'.authorization? name

namespace Named

variable {name : String} {request request' : Request} {endpoint : Endpoint} {tail : String}
  {demand : Demand}

theorem routing_eq (h : Named name request request') (g : Gateway σ) :
    g.routing request' = g.routing request := by
  unfold Gateway.routing
  rw [h.method, h.path]

theorem principal_eq (h : Named name request request') (hnone : request.principal = .ok none) :
    request'.principal = .ok (some name) := by
  have htransport : Principal.ofTransport request.user = none :=
    (Principal.resolve_eq_none_iff.1 hnone).1
  rw [← h.user] at htransport
  exact Principal.resolve_eq_some_iff.2 (Or.inr ⟨htransport, h.gives⟩)

/-- With a name a request asks for the same. -/
theorem exists_asks (h : Named name request request') (hnone : request.principal = .ok none)
    (hasks : Asks request endpoint tail demand) :
    ∃ demand', Asks request' endpoint tail demand' ∧ demand'.user = some name ∧
      demand'.operation = demand.operation := by
  have hwho := h.principal_eq hnone
  cases hasks with
  | batch who body => exact ⟨_, .batch hwho (h.body ▸ body), rfl, rfl⟩
  | list who query => exact ⟨_, .list hwho (h.query ▸ query), rfl, rfl⟩
  | create who body => exact ⟨_, .create hwho (h.body ▸ body), rfl, rfl⟩
  | verify who body => exact ⟨_, .verify hwho (h.body ▸ body), rfl, rfl⟩
  | release who path body => exact ⟨_, .release hwho path (h.body ▸ body), rfl, rfl⟩

end Named

namespace Gateway

variable {g : Gateway σ} {r : Roster}

theorem gate_eq_ok_iff (h : g.Guarded r) {demand : Demand} {p : Progress σ} :
    (perform (g.gate demand) p).1 = .ok () ↔ r.Entitles demand.operation demand.user := by
  obtain ⟨q, hq, -⟩ := perform_gate h demand p
  rw [hq, mapError_eq_ok_iff, Roster.decision_eq_ok_iff]

/-! ## Without a name -/

section

variable {request : Request} {endpoint : Endpoint} {tail : String} {demand : Demand}

/-- What a request gets that names nobody and needs a right, where the anonymous may not read. -/
theorem serve_nameless (h : g.Guarded r) (hanonymous : r.anonymousRead = false)
    (hempty : r.Omits "") (hrouted : g.routing request = .found endpoint tail)
    (hasks : Asks request endpoint tail demand) (hop : demand.operation.requiredAccess ≠ none)
    (fresh : String) (p : Progress σ) :
    ∃ response q, perform (g.serve fresh request) p = (.ok response, q) ∧
      (demand.user = none → response.status = 401 ∧ q.state = p.state) ∧
      (demand.user = some "" → r.readers ≠ none → response.status = 404 ∧ q.state = p.state) ∧
      (demand.user = some "" → r.readers = none → demand.operation.requiredAccess = some .write →
        response.status = 403 ∧ q.state = p.state) := by
  by_cases hentitled : r.Entitles demand.operation demand.user
  · -- that is someone with an empty name who wants to read
    obtain ⟨response, q, hserve⟩ := g.exists_response fresh request p
    refine ⟨response, q, hserve, ?_, ?_, ?_⟩
    · intro huser
      rw [huser] at hentitled
      exact absurd hentitled (Roster.not_entitles_nameless hanonymous hop)
    · intro huser hreaders
      rw [huser] at hentitled
      exact absurd hentitled (Roster.not_entitles_stranger hreaders hempty hop)
    · intro huser hreaders hwrite
      rw [huser, ← Roster.decision_eq_ok_iff,
        (Roster.decision_guest hreaders hempty).2 hwrite] at hentitled
      cases hentitled
  · obtain ⟨response, q, hserve, hstate, -, h401, h404, h403⟩ :=
      serve_refused h hrouted hasks hentitled fresh p
    refine ⟨response, q, hserve, fun huser => ⟨h401 huser, hstate⟩, ?_, ?_⟩
    · intro huser hreaders
      have hnone : demand.user ≠ none := by simp [huser]
      have hdownload : ¬ r.Entitles .download (some "") :=
        Roster.not_entitles_stranger hreaders hempty (by decide)
      have hreads : ¬ r.Reads demand.user := by
        rw [huser]
        exact hdownload
      exact ⟨h404 hnone hreads, hstate⟩
    · intro huser hreaders _
      have hnone : demand.user ≠ none := by simp [huser]
      have hreads : r.Reads demand.user := by
        rw [huser]
        exact Or.inl hreaders
      exact ⟨h403 hnone hreads, hstate⟩

/-- A lock keeper takes those who give no name and those who give an empty one for nameless, and makes
no lock for them. A gate that goes by a roster on which no name is empty, and that lets nobody read
anonymously, tells the former to give a name, whatever they want. The latter it takes for somebody
whom it does not know: where there is a list of readers, there is nothing for them; and where there is
none, they may not write, but they may read. -/
theorem nameless_callers (h : g.Guarded r) (hanonymous : r.anonymousRead = false)
    (hempty : r.Omits "") :
    (∀ (keeper : Registry) path ref user scene,
      (perform (keeper.create path ref user) scene).1 =
          .error (.refusal (.unauthorized "Authentication required to create a lock")) ↔
        user = none ∨ user = some "") ∧
    (∀ op ref (p : Progress σ), op.requiredAccess ≠ none →
      let told user := (perform (Gate.check (some r.policy) op ref user) p).1
      told none = .error (.refusal (.unauthorized "Authentication required")) ∧
      (r.readers ≠ none → told (some "") =
        .error (.refusal (.plain .repositoryNotFound "Repository not found"))) ∧
      (r.readers = none → op.requiredAccess = some .write → told (some "") =
        .error (.refusal (.plain .repositoryReadOnly "User  has read-only access"))) ∧
      (r.readers = none → op.requiredAccess = some .read → told (some "") = .ok ())) ∧
    ∀ request,
      (request.principal = .ok none ↔ Principal.ofTransport request.user = none ∧
        Principal.IsBlank request.authorization?) ∧
      (request.principal = .ok (some "") ↔ Principal.ofTransport request.user = none ∧
        Principal.Gives request.authorization? "") ∧
      ∀ endpoint tail demand fresh p, g.routing request = .found endpoint tail →
        Asks request endpoint tail demand → demand.operation.requiredAccess ≠ none →
        ∃ response q, perform (g.serve fresh request) p = (.ok response, q) ∧
          (demand.user = none → response.status = 401 ∧ q.state = p.state) ∧
          (demand.user = some "" → r.readers ≠ none →
            response.status = 404 ∧ q.state = p.state) ∧
          (demand.user = some "" → r.readers = none →
            demand.operation.requiredAccess = some .write →
              response.status = 403 ∧ q.state = p.state) := by
  refine ⟨?_, ?_, ?_⟩
  · intro keeper path ref user scene
    exact Registry.create_unauthorized_iff
  · intro op ref p hop told
    have htold : ∀ user, told user = (r.decision op user).mapError .refusal :=
      fun user => Gate.outcome_check_roster r op ref user p
    rw [htold none, htold (some ""), Roster.decision_nameless hanonymous hop]
    refine ⟨rfl, fun hreaders => ?_, fun hreaders hwrite => ?_, fun hreaders hread => ?_⟩
    · rw [Roster.decision_stranger hreaders hempty hop]
      rfl
    · rw [(Roster.decision_guest hreaders hempty).2 hwrite]
      rfl
    · rw [(Roster.decision_guest hreaders hempty).1 hread]
      rfl
  · intro request
    refine ⟨Principal.resolve_eq_none_iff, Principal.resolve_eq_empty_iff, ?_⟩
    intro endpoint tail demand fresh p hrouted hasks hop
    exact serve_nameless h hanonymous hempty hrouted hasks hop fresh p

end

/-- The gateway to try things on, with a roster. -/
def guardedBy (r : Roster) : Gateway World :=
  { lodge with
    exchange := { lodge.exchange with policies := .fixed (some r.policy) }
    locking := { lodge.locking with policies := .fixed (some r.policy) } }

theorem guarded_guardedBy (r : Roster) : (guardedBy r).Guarded r := ⟨rfl, rfl⟩

/-- A roster with one writer, whom everybody with a name may watch. -/
def window : Roster := ⟨["alice"], none, false⟩

/-- A request for locks, with credentials. -/
def listingBy (credentials : String) : Request :=
  ⟨"GET", "/info/lfs/locks", "", [("Authorization", "Basic " ++ credentials)], [], none⟩

/-- The same request without credentials. -/
def listing : Request := ⟨"GET", "/info/lfs/locks", "", [], [], none⟩

/-- What a request for all locks demands. -/
def listingDemand (user : Option String) : Demand :=
  .locks (.list ⟨none, none, none, 0, none⟩ user (some "/info/lfs"))

theorem asks_listing : Asks listing .listLocks "" (listingDemand none) :=
  .list (by decide +kernel) (by decide +kernel)

theorem routing_listing (r : Roster) : (guardedBy r).routing listing = .found .listLocks "" := by
  have hlodge : lodge.routing listing = .found .listLocks "" := by decide +kernel
  exact hlodge

/-- Nobody without a name sees the locks. -/
theorem nameless_callers_window :
    (guardedBy window).Guarded window ∧ window.anonymousRead = false ∧ window.Omits "" ∧
      listing.principal = .ok none ∧
      ∃ response q, perform ((guardedBy window).serve "visit" listing)
        (.start World.empty .debug) = (.ok response, q) ∧ response.status = 401 := by
  have hguarded := guarded_guardedBy window
  have hempty : window.Omits "" := ⟨by decide, by simp [window]⟩
  obtain ⟨-, -, hrequest⟩ := nameless_callers hguarded rfl hempty
  obtain ⟨-, -, hserve⟩ := hrequest listing
  obtain ⟨response, q, hresponse, hnone, -⟩ :=
    hserve .listLocks "" (listingDemand none) "visit" (.start World.empty .debug)
      (routing_listing window) asks_listing (by decide)
  exact ⟨hguarded, rfl, hempty, asks_listing.principal_eq, response, q, hresponse, (hnone rfl).1⟩

/-- Whoever gives an empty name makes no lock for want of a name, and still sees the locks. -/
theorem window_open_to_empty_name :
    (listingBy "OnB3").principal = .ok (some "") ∧
      (Registry.sample.answer (.create "a" none (some "")) .empty).1 =
        .error (.refusal (.unauthorized "Authentication required to create a lock")) ∧
      (perform (Gate.check (some window.policy) .listLocks none (some ""))
        (Progress.start World.empty .debug)).1 = .ok () ∧
      (perform ((guardedBy window).serve "visit" (listingBy "OnB3"))
        (.start World.empty .debug)).1.toOption.map Response.status = some 200 := by
  decide +kernel

/-! ## With a name and without -/

/-- What the gate lets pass without a name it lets pass with any name, unless the repository is hidden
from that name: then reading is refused, whether or not the anonymous may read. Whoever may write may
read. So a request that passes the gate without credentials passes it with credentials that give a
name, unless it wants to read and the repository is hidden from the name. -/
theorem access_by_identity (h : g.Guarded r) :
    (∀ op ref name (p : Progress σ),
      let told user := (perform (Gate.check (some r.policy) op ref user) p).1
      (told none = .ok () → ¬ r.HidesFrom op name → told (some name) = .ok ()) ∧
      (r.HidesFrom op name → told (some name) =
        .error (.refusal (.plain .repositoryNotFound "Repository not found")))) ∧
    (∀ writing reading : Operation, writing.requiredAccess = some .write →
      reading.requiredAccess = some .read → ∀ ref user (p : Progress σ),
        (perform (Gate.check (some r.policy) writing ref user) p).1 = .ok () →
          (perform (Gate.check (some r.policy) reading ref user) p).1 = .ok ()) ∧
    ∀ name request request' endpoint tail demand, ∀ p p' : Progress σ,
      Named name request request' → request.principal = .ok none →
      g.routing request = .found endpoint tail → Asks request endpoint tail demand →
      (perform (g.gate demand) p).1 = .ok () →
        g.routing request' = .found endpoint tail ∧
        ∃ demand', Asks request' endpoint tail demand' ∧ demand'.user = some name ∧
          demand'.operation = demand.operation ∧
          ((∃ e, (perform (g.gate demand') p').1 = .error e) ↔
            r.HidesFrom demand.operation name) := by
  refine ⟨?_, ?_, ?_⟩
  · intro op ref name p told
    refine ⟨fun hnone hshown => ?_, fun hhidden => ?_⟩
    · have hentitled : r.Entitles op none := Gate.check_eq_ok_iff.1 hnone
      exact Gate.check_eq_ok_iff.2 ((Roster.entitles_named_iff hentitled).2 hshown)
    · obtain ⟨hread, hreaders, homits⟩ := hhidden
      have hop : op.requiredAccess ≠ none := by simp [hread]
      have htold : told (some name) = (r.decision op (some name)).mapError .refusal :=
        Gate.outcome_check_roster r op ref (some name) p
      rw [htold, Roster.decision_stranger hreaders homits hop]
      rfl
  · intro writing reading hwriting hreading ref user p hwrites
    have hentitled : r.Entitles writing user := Gate.check_eq_ok_iff.1 hwrites
    have hwriter : r.Writes user := by
      unfold Roster.Entitles at hentitled
      rwa [hwriting] at hentitled
    have hreader : r.Entitles reading user := by
      unfold Roster.Entitles
      rw [hreading]
      exact hwriter.reads
    exact Gate.check_eq_ok_iff.2 hreader
  · intro name request request' endpoint tail demand p p' hnamed hnone hrouted hasks hpassed
    have hentitled : r.Entitles demand.operation none := by
      have huser := hasks.principal_eq.symm.trans hnone
      have hdemand := (gate_eq_ok_iff h).1 hpassed
      rwa [Except.ok.inj huser] at hdemand
    obtain ⟨demand', hasks', huser', hoperation⟩ := hnamed.exists_asks hnone hasks
    refine ⟨(hnamed.routing_eq g).trans hrouted, demand', hasks', huser', hoperation, ?_⟩
    rw [gate_refuses_iff h, huser', hoperation, Roster.entitles_named_iff hentitled,
      Classical.not_not]

/-- A roster with a list of readers that lets the anonymous read. -/
def arcade : Roster := ⟨["alice"], some ["bob"], true⟩

/-- Bob sees the locks, as everybody without a name does. -/
theorem access_by_identity_arcade :
    (guardedBy arcade).Guarded arcade ∧ Named "bob" listing (listingBy "Ym9iOnB3") ∧
      listing.principal = .ok none ∧ (guardedBy arcade).routing listing = .found .listLocks "" ∧
      Asks listing .listLocks "" (listingDemand none) ∧
      (perform ((guardedBy arcade).gate (listingDemand none))
        (.start World.empty .debug)).1 = .ok () ∧
      ∃ demand, Asks (listingBy "Ym9iOnB3") .listLocks "" demand ∧
        ¬ ∃ e, (perform ((guardedBy arcade).gate demand)
          (.start World.empty .debug)).1 = .error e := by
  have hguarded := guarded_guardedBy arcade
  have hnone : listing.principal = .ok none := asks_listing.principal_eq
  have hgives : Principal.Gives (listingBy "Ym9iOnB3").authorization? "bob" :=
    Principal.ofAuthorization_eq_some_iff.1 (by decide +kernel)
  have hnamed : Named "bob" listing (listingBy "Ym9iOnB3") := ⟨rfl, rfl, rfl, rfl, rfl, hgives⟩
  have hpassed : (perform ((guardedBy arcade).gate (listingDemand none))
      (.start World.empty .debug)).1 = .ok () := (gate_eq_ok_iff hguarded).2 rfl
  obtain ⟨-, -, hrequests⟩ := access_by_identity hguarded
  obtain ⟨-, demand, hasks, -, -, hrefused⟩ :=
    hrequests "bob" listing (listingBy "Ym9iOnB3") .listLocks "" (listingDemand none)
      (.start World.empty .debug) (.start World.empty .debug) hnamed hnone
      (routing_listing arcade) asks_listing hpassed
  refine ⟨hguarded, hnamed, hnone, routing_listing arcade, asks_listing, hpassed, demand, hasks, ?_⟩
  rw [hrefused]
  rintro ⟨-, -, homits⟩
  exact homits.readers ["bob"] rfl (by decide)

/-- Mallory, whom nobody has put on a list, sees less than those without a name. -/
theorem arcade_hidden_from_stranger :
    let status (request : Request) := (perform ((guardedBy arcade).serve "visit" request)
      (.start World.empty .debug)).1.toOption.map Response.status
    (perform (Gate.check (some arcade.policy) .listLocks none none)
        (Progress.start World.empty .debug)).1 = .ok () ∧
      (perform (Gate.check (some arcade.policy) .listLocks none (some "mallory"))
        (Progress.start World.empty .debug)).1 =
          .error (.refusal (.plain .repositoryNotFound "Repository not found")) ∧
      (listingBy "bWFsbG9yeTpwdw==").principal = .ok (some "mallory") ∧
      status listing = some 200 ∧ status (listingBy "bWFsbG9yeTpwdw==") = some 404 := by
  decide +kernel

end Gateway

end Http

end GitLfs
