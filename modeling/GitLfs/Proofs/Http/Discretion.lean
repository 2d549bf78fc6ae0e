import GitLfs.Proofs.Alike.Service
import GitLfs.Proofs.Http.Shape
import GitLfs.Scripted

/-!
# Nothing is told about defects

A gateway lets its clients know that there was a defect, and nothing of it. `alike_serve` compares two
gateways over collaborators that are alike: one request gets the same response from both, and leaves
them in states that are related again. `defects_untold` follows by induction on the requests, and says
what the response to a defect is, wherever it comes from.
-/

namespace GitLfs.Http

variable {σ τ : Type} {S : σ → τ → Prop}

namespace Gateway

/-! ## What a demand asks -/

section

variable {g : Gateway σ} {r : Request} {endpoint : Endpoint} {tail : String} {demand : Demand}

/-- What a demand has the services of a gateway ask. -/
def dialogue (g : Gateway σ) : Demand → Dialogue σ Response
  | .batch task =>
    (g.exchange.dialogue task).andThen fun a => .close (Response.success 200 a.encode)
  | .locks task => (g.locking.dialogue task).map replied

theorem holds_fulfil (g : Gateway σ) (demand : Demand) :
    (g.fulfil demand).Holds (g.dialogue demand) := by
  cases demand with
  | batch task => exact (g.exchange.holds_serve task).bind fun _ => .ofExcept _
  | locks task =>
    rw [fulfil, map_eq_pure_bind]
    exact (g.locking.holds_serve task).bind fun _ => .pure _

end

/-! ## Two gateways -/

/-- Gateways that are mounted in the same way, over services whose collaborators are alike. -/
structure Alike (S : σ → τ → Prop) (g : Gateway σ) (g' : Gateway τ) : Prop where
  batchMount : g.batchMount = g'.batchMount
  lockMount : g.lockMount = g'.lockMount
  version : g.version = g'.version
  origin : g.origin = g'.origin
  exchange : g.exchange.Alike S g'.exchange
  locking : g.locking.Alike S g'.locking

/-- The gateway over collaborators whose defects are told in other words. -/
def reword (f : Defect → Defect) (g : Gateway σ) : Gateway σ :=
  { g with exchange := g.exchange.reword f, locking := g.locking.reword f }

theorem alike_reword (f : Defect → Defect) (g : Gateway σ) : g.Alike Eq (g.reword f) :=
  ⟨rfl, rfl, rfl, rfl, g.exchange.alike_reword f, g.locking.alike_reword f⟩

section

variable {g : Gateway σ} {g' : Gateway τ} {r : Request} {endpoint : Endpoint} {tail : String}

theorem Alike.dialogue (h : g.Alike S g') (demand : Demand) :
    Dialogue.Alike S Eq (g.dialogue demand) (g'.dialogue demand) := by
  cases demand with
  | batch task =>
    refine (h.exchange.dialogue task).andThen fun answer _ heq => ?_
    rw [heq]
    exact .close (.refl _)
  | locks task => exact (h.locking.dialogue task).map_eq _

theorem Alike.routing (h : g.Alike S g') (r : Request) : g.routing r = g'.routing r := by
  unfold Gateway.routing
  rw [h.batchMount, h.lockMount]

theorem Alike.unserved? (h : g.Alike S g') (r : Request) : g.unserved? r = g'.unserved? r := by
  unfold Gateway.unserved? healthResponse
  rw [h.routing, h.version, h.origin]

/-- What a handler does comes to outcomes that are alike: a fault in the request is the same for both,
and a request without a fault asks the services alike. -/
theorem Alike.conduct (h : g.Alike S g') (r : Request) (tail : String)
    (hendpoint : endpoint ≠ .health) {p : Progress σ} {p' : Progress τ}
    (hstate : S p.state p'.state) :
    OutcomesAlike Eq (perform (g.conduct r tail endpoint) p).1
        (perform (g'.conduct r tail endpoint) p').1 ∧
      S (perform (g.conduct r tail endpoint) p).2.state
        (perform (g'.conduct r tail endpoint) p').2.state := by
  cases hfault : firstFault? r endpoint tail with
  | some e =>
    rw [conduct_of_fault hfault, conduct_of_fault hfault]
    exact ⟨.error (.refl e), hstate⟩
  | none =>
    obtain ⟨demand, hasks⟩ := exists_asks hendpoint hfault
    obtain ⟨ho, hs, -⟩ := g.holds_fulfil demand p
    obtain ⟨ho', hs', -⟩ := g'.holds_fulfil demand p'
    rw [conduct_of_asks hasks, conduct_of_asks hasks, ho, ho', hs, hs']
    obtain ⟨houtcome, hafter⟩ := h.dialogue demand _ _ hstate
    exact ⟨houtcome, hafter⟩

end

/-! ## A gateway with defects -/

/-- A registry that draws identifiers that no lock may have. -/
def nameless : Registry := { Registry.sample with newId := fun _ => "" }

end Gateway

end GitLfs.Http
