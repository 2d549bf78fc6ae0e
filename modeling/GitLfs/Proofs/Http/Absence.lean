import GitLfs.Proofs.Git.Exact
import GitLfs.Proofs.Http.Undo

/-!
# What is told about paths that cannot be locked

A registry with a git repository locks only what is present there. `absence_told` says for each
repository, revision and path what the check comes to, and what is told over HTTP to someone who wants
to lock the path: a path that is absent is refused by name. An obstacle is a defect; where a path goes
on below a link to another repository, where a revision leads to something that is no commit or is the
beginning of several identifiers, where symbolic refs lead too far, and where a text has no bytes,
nobody is told that the path is not there.
-/

namespace GitLfs

variable {σ : Type} {r : Registry} {repository : Git.Repository} {part : σ → RegistryState}
  {update : RegistryState → σ → σ} {path : String} {ref : Option String}

theorem Registry.verdict_of_absent (hrepository : r.repository = some repository)
    (h : repository.Absent (ref.map .ofText) path) :
    r.verdict path ref = .error (.refusal (pathAbsent path ref)) := by
  unfold verdict
  rw [hrepository]
  dsimp only
  rw [Git.Repository.presence_eq_ok_false_iff.2 h]

theorem Registry.verdict_of_obstacle (hrepository : r.repository = some repository) {d : Defect}
    (h : repository.Obstacle (ref.map .ofText) path d) : r.verdict path ref = .error (.defect d) := by
  unfold verdict
  rw [hrepository]
  dsimp only
  rw [Git.Repository.presence_eq_error_iff.2 h]

namespace Http.Gateway

variable {g : Gateway σ} {request : Request} {tail name : String} {body : CreateRequest}
  {place : Option String}

/-- Whoever asks for a lock on a path that does not pass is told why, and no lock is made. -/
theorem serve_turnedAway (h : g.Over r part update)
    (hrouted : g.routing request = .found .createLock tail)
    (hasks : Asks request .createLock tail (.locks (.create body (some name) place)))
    (hname : name ≠ "") (fresh : String) {p : Progress σ}
    (hadmits : g.locking.Admits (.create body (some name) place) (started fresh request p))
    {e : Failure} (hverdict : r.verdict body.path (Ref.name? body.ref) = .error e) :
    ∃ q, perform (g.serve fresh request) p =
        (.ok (delivered (requestIdOf request fresh) (Response.ofFailure e)), q) ∧
      part q.state = part p.state := by
  obtain ⟨q, hq, hstate⟩ := serve_admitted h hrouted hasks fresh hadmits
  unfold Locking.Task.onRegistry at hq hstate
  rw [Registry.answer_create_turnedAway _ hname hverdict] at hq hstate
  exact ⟨q, hq, hstate⟩

/-- What the check of a path tells, for each repository, revision and path: that the path is present
just when it is, that it is absent just when it is, and else the defect of an obstacle; it tells one
thing and no more. Take a gateway over a registry with this repository, and a request to lock a path that
the gate lets in and someone with a name makes. If the path is absent, the answer is 422, and it tells
so of this path at this revision. If an obstacle stands in the way, the answer is 500, and it tells
nothing. Either way the registry is left as it was. -/
theorem absence_told (h : g.Over r part update) (hrepository : r.repository = some repository) :
    (∀ ref path,
      (repository.Tells ref path (.ok true) ↔ repository.Present ref path) ∧
      (repository.Tells ref path (.ok false) ↔ repository.Absent ref path) ∧
      (∀ e, repository.Tells ref path (.error e) ↔
        ∃ d, e = .defect d ∧ repository.Obstacle ref path d) ∧
      ∃! outcome, repository.Tells ref path outcome) ∧
    ∀ request tail body name place, g.routing request = .found .createLock tail →
      Asks request .createLock tail (.locks (.create body (some name) place)) → name ≠ "" →
      ∀ fresh p, g.locking.Admits (.create body (some name) place) (started fresh request p) →
        let ref := Ref.name? body.ref
        let told (status : Nat) (message : String) := ∃ q, part q.state = part p.state ∧
          perform (g.serve fresh request) p =
            (.ok (delivered (requestIdOf request fresh) (.ok (.message status message []))), q)
        (repository.Absent (ref.map .ofText) body.path →
          told 422 ("Path " ++ body.path ++ " does not exist at " ++ Git.Repository.revisionOr ref)) ∧
        ∀ d, repository.Obstacle (ref.map .ofText) body.path d → told 500 "Internal server error" := by
  refine ⟨fun ref path => ⟨?_, ?_, fun e => Git.Repository.tells_error_iff, ?_⟩, ?_⟩
  · rw [Git.Repository.tells_ok_iff, Git.Repository.presence_eq_ok_true_iff]
  · rw [Git.Repository.tells_ok_iff, Git.Repository.presence_eq_ok_false_iff]
  · simp only [Git.Repository.tells_iff]
    exact ⟨_, rfl, fun outcome houtcome => houtcome.symm⟩
  · intro request tail body name place hrouted hasks hname fresh p hadmits ref told
    refine ⟨fun habsent => ?_, fun d hobstacle => ?_⟩
    · obtain ⟨q, hq, hstate⟩ := serve_turnedAway h hrouted hasks hname fresh hadmits
        (Registry.verdict_of_absent hrepository habsent)
      exact ⟨q, hstate, hq⟩
    · obtain ⟨q, hq, hstate⟩ := serve_turnedAway h hrouted hasks hname fresh hadmits
        (Registry.verdict_of_obstacle hrepository hobstacle)
      exact ⟨q, hstate, hq⟩

/-- The registry of the sample, for the repository with the link. -/
def archivist : Registry := { Registry.sample with repository := some Git.Repository.annex }

/-- The lodge, with this registry. -/
def archive : Gateway World :=
  { lodge with locking := ({ staff with registry := some archivist } : Deployment).locking }

theorem over_archive :
    archive.Over archivist (World.registries · none) (World.setRegistry none) :=
  ⟨Deployment.over_locking rfl, staff.keeps_exchange⟩

theorem open_archive :
    archive.locking.Open archivist (World.registries · none) (World.setRegistry none) := rfl

/-- Ann asks for a lock on a path in the main branch. -/
def sought (path : String) : Request :=
  (visit "ann" "/locks"
    ("\x7b\"path\":\"" ++ path ++ "\",\"ref\":\x7b\"name\":\"refs/heads/main\"\x7d\x7d")).2

/-- What she asks for. -/
def seeking (path : String) : CreateRequest := ⟨path, some ⟨"refs/heads/main"⟩⟩

theorem asks_sought {path : String}
    (hbody : parseBody CreateRequest.decode false (sought path).body = .ok (seeking path)) :
    Asks (sought path) .createLock "" (.locks (.create (seeking path) (some "ann")
      (Gateway.repository (sought path) locksPath))) :=
  .create (principal_visit "ann" _ _ (by decide)) hbody

/-- There is no such document. -/
theorem absence_told_archive :
    archive.Over archivist (World.registries · none) (World.setRegistry none) ∧
      archivist.repository = some Git.Repository.annex ∧
      ∃ q, perform (archive.serve "visit" (sought "docs/list.md")) (.start World.empty .debug) =
        (.ok (delivered "visit" (.ok (.message 422
          "Path docs/list.md does not exist at refs/heads/main" []))), q) := by
  have hbody : parseBody CreateRequest.decode false (sought "docs/list.md").body =
      .ok (seeking "docs/list.md") := by decide +kernel
  have hrouted : archive.routing (sought "docs/list.md") = .found .createLock "" := by decide +kernel
  have habsent : Git.Repository.annex.Absent (some ↑"refs/heads/main") "docs/list.md" :=
    Git.Repository.presence_eq_ok_false_iff.1 (by decide)
  obtain ⟨hmissing, -⟩ := (absence_told over_archive rfl).2 _ _ _ _ _ hrouted (asks_sought hbody)
    (by decide) "visit" (.start World.empty .debug) (open_archive.admits _ _)
  obtain ⟨q, -, hq⟩ := hmissing habsent
  exact ⟨over_archive, rfl, q, hq⟩

/-- A repository of two commits whose identifiers begin alike. -/
def twins : Git.Repository where
  objects := [("cafe000000000000000000000000000000000001", .commit "t"),
    ("cafe000000000000000000000000000000000002", .commit "t"), ("t", .tree [⟨"docs", false, "d"⟩])]
  refs := []
  refsInFiles := false

/-- A text from the host that has no bytes. -/
def bytesless : Text.Raw := ⟨"docs", [(strayByte, "")]⟩

/-- Obstacles: the link, the tag of a tree, the row of symbolic refs, the beginning that two commits
share, and texts without bytes. Whoever asks for a lock on something below the link is told that the
server failed. -/
theorem annex_obstacles :
    Git.Repository.annex.Tells (some ↑"refs/heads/main") "lib/x"
        (.error (.defect .belowSubmodule)) ∧
      Git.Repository.annex.Tells (some ↑"docs") "docs" (.error (.defect (.notACommit "tree"))) ∧
      Git.Repository.annex.Tells (some ↑"refs/a") "docs" (.error (.defect .refTooDeep)) ∧
      twins.Tells (some ↑"cafe") "docs" (.error (.defect .ambiguousId)) ∧
      Git.Repository.annex.Tells (some bytesless) "docs" (.error (.defect .unencodable)) ∧
      Git.Repository.annex.Tells none bytesless (.error (.defect .unencodable)) ∧
      ∃ q, perform (archive.serve "visit" (sought "lib/x")) (.start World.empty .debug) =
        (.ok (delivered "visit" (.ok (.message 500 "Internal server error" []))), q) := by
  have hlink : Git.Repository.annex.presence (some ↑"refs/heads/main") "lib/x" =
      .error .belowSubmodule := by decide
  have hbody : parseBody CreateRequest.decode false (sought "lib/x").body =
      .ok (seeking "lib/x") := by decide +kernel
  have hrouted : archive.routing (sought "lib/x") = .found .createLock "" := by decide +kernel
  have hobstacle := Git.Repository.presence_eq_error_iff.1 hlink
  obtain ⟨q, hq, -⟩ := serve_turnedAway over_archive hrouted (asks_sought hbody) (by decide) "visit"
    (open_archive.admits _ (started "visit" (sought "lib/x") (.start World.empty .debug)))
    (Registry.verdict_of_obstacle rfl hobstacle)
  have htells {repository : Git.Repository} {revision : Option Text.Raw} {path : Text.Raw}
      {d : Defect} (h : repository.presence revision path = .error d) :
      repository.Tells revision path (.error (.defect d)) :=
    Git.Repository.tells_iff.2 (by rw [h]; rfl)
  exact ⟨htells hlink, htells (by decide), htells (by decide), htells (by decide),
    htells (by decide), htells (by decide), q, hq⟩

end Http.Gateway

end GitLfs
