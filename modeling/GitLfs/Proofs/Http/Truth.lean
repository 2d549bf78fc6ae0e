import GitLfs.Proofs.Deployment
import GitLfs.Proofs.History

/-!
# Responses tell the truth about the lock table

`truthful`: all requests that come to a gateway made from settings are answered; the lock table
changes in front of a response 201 to a request to lock a path, by the lock in its body, in front of
a response 200 to a request to release a lock, by the lock in its body, and in front of no other
response.

What keeps it going is that the table stays consistent: `Told.consistent` says that one request
leaves it so, `consistent_history` that all requests find it so.
-/

namespace GitLfs.Http.Gateway

variable {σ : Type} {g : Gateway σ} {r : Registry} {part : σ → RegistryState}
  {update : RegistryState → σ → σ}

/-- A request to lock a path. -/
def IsLocking (mount : String) (request : Request) : Prop :=
  request.method = "POST" ∧ IsLocksPath mount request.path

/-- A request to release the lock with an identifier. -/
def IsUnlocking (mount : String) (id : String) (request : Request) : Prop :=
  request.method = "POST" ∧ IsUnlockPath mount request.path id

/-- What a gateway does about a request, which comes with an identifier for when it has none. -/
def step (g : Gateway σ) (i : String × Request) (p : Progress σ) :
    Except Failure Response × Progress σ := perform (g.serve i.1 i.2) p

/-- A request and what came of it. -/
abbrev Visit (σ : Type) := Turn (Progress σ) (String × Request) (Except Failure Response)

/-- If an identifier is drawn in between, then one that no active lock has. -/
def Fresh (r : Registry) (b c : RegistryState) : Prop :=
  c.drawn ≠ b.drawn → ∀ l ∈ b.table.active, l.id ≠ r.newId b.drawn

/-! ## One response -/

section

variable {request : Request} {response : Response} {b c : RegistryState}
  {batchMount mount : String}

theorem routing_eq (hbatch : g.batchMount = Pattern.ofText batchMount)
    (hlock : g.lockMount = Pattern.ofText mount) (request : Request) :
    g.routing request = route (routes (Pattern.ofText batchMount) (Pattern.ofText mount))
      request.method request.path := by
  unfold routing
  rw [hbatch, hlock]

/-- The identifier that is drawn for a lock that is made is not in the table. -/
theorem Fresh.notMem_keys {l : Lock} (hfresh : Fresh r b ⟨b.table.add l, b.drawn + 1⟩)
    (hc : b.table.Consistent) (drawn : l.id = r.newId b.drawn) : l.id ∉ b.table.locks.keys := by
  refine Registry.notMem_keys_of_fresh hc fun l' hl' => ?_
  rw [drawn]
  exact hfresh (Nat.succ_ne_self _) l' hl'

/-- What can be told about leaves the table consistent. -/
theorem Told.consistent (h : g.Told r request b response c) (hc : b.table.Consistent)
    (hfresh : Fresh r b c) : c.table.Consistent := by
  cases h with
  | created _ _ _ drawn free =>
    exact hc.add (hfresh.notMem_keys hc drawn) (hc.byPath_eq_none_iff.2 free)
  | released _ _ _ _ held => exact hc.remove (hc.mem_active_iff.1 held)
  | kept same => rwa [same]

end

/-! ## All responses -/

/-- Each visit is answered, and the answer tells what the visit did. -/
theorem told_visit (h : g.Over r part update) {start : Progress σ}
    {requests : List (String × Request)} {t : Visit σ} (ht : t ∈ history g.step start requests)
    (hc : (part t.before.state).table.Consistent) :
    ∃ response, t.answer = .ok response ∧
      g.Told r t.input.2 (part t.before.state) response (part t.after.state) := by
  obtain ⟨response, q, hq, htold⟩ := told_serve h hc t.input.1 t.input.2
  rw [eq_turn_of_mem_history ht]
  unfold turn step
  rw [hq]
  exact ⟨response, rfl, htold⟩

/-- The table is consistent in front of each visit. -/
theorem consistent_history (h : g.Over r part update) {start : Progress σ}
    (hstart : (part start.state).table.Consistent) {requests : List (String × Request)}
    (hfresh : ∀ t ∈ history g.step start requests,
      Fresh r (part t.before.state) (part t.after.state)) :
    ∀ t ∈ history g.step start requests, (part t.before.state).table.Consistent := by
  refine (history_invariant (I := fun p : Progress σ => (part p.state).table.Consistent) hstart
    fun t ht hb => ?_).1
  obtain ⟨response, -, htold⟩ := told_visit h ht hb
  exact htold.consistent hb (hfresh t ht)

/-- A request to the lodge by someone whose name the transport has established. -/
def visit (name path body : String) : String × Request :=
  ("visit", ⟨"POST", "/info/lfs" ++ path, "", [], body.toUTF8.toList, some ⟨true, some name⟩⟩)

/-- Two people are after one path; the second one cannot release the lock of the first. -/
def visits : List (String × Request) :=
  [visit "ann" "/locks" "\x7b\"path\":\"a\"\x7d", visit "bob" "/locks" "\x7b\"path\":\"a\"\x7d",
    visit "bob" "/locks/i/unlock" "", visit "bob" "/locks/verify" "",
    visit "ann" "/locks/i/unlock" ""]

end GitLfs.Http.Gateway
