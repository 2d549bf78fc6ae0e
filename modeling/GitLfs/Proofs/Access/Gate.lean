import GitLfs.Access.Roster
import GitLfs.Proofs.Effect

/-!
# What passing the gate leaves alone

A policy that takes no notice of a part of the state keeps that part, wherever it is found.
`Gate.keeps_pass` says that then whoever passes the gate, or is turned away, leaves that part as it
was. A policy that goes by a roster takes no notice of any state.
-/

namespace GitLfs

variable {σ ν : Type} {part : σ → ν}

/-- Neither question to a policy changes a part of the state. -/
def AccessPolicy.Keeps (part : σ → ν) (policy : AccessPolicy σ) : Prop :=
  ∀ ref user, Query.Keeps part (policy.mayRead ref user) ∧
    Query.Keeps part (policy.mayWrite ref user)

theorem Roster.keeps_decide (decision : Except Refusal Unit) :
    Query.Keeps part (Roster.decide decision) := by
  cases decision with
  | ok => exact Keeps.pure ()
  | error e => exact Keeps.throw _

theorem Roster.keeps_policy (r : Roster) : (r.policy (σ := σ)).Keeps part := fun _ user =>
  ⟨keeps_decide (r.mayRead user), keeps_decide (r.mayWrite user)⟩

namespace Gate

theorem keeps_check {policy : Option (AccessPolicy σ)} (h : ∀ x ∈ policy, x.Keeps part)
    (op : Operation) (ref user : Option String) :
    Service.Keeps part (check policy op ref user) := by
  unfold check
  split
  · next policy _ => exact (Service.Keeps.report _ _ _).bind fun _ =>
      Service.Keeps.ask _ (h policy rfl ref user).1
  · next policy _ => exact (Service.Keeps.report _ _ _).bind fun _ =>
      Service.Keeps.ask _ (h policy rfl ref user).2
  · exact Keeps.pure ()

theorem keeps_pass {policies : PolicySource σ}
    (h : policies.Yields part (AccessPolicy.Keeps part) .policyFor) (path : Option String)
    (op : Operation) (ref user : Option String) :
    Service.Keeps part (pass policies path op ref user) := by
  refine h.bind path (keeps_check (by simp) op ref user) fun policy hpolicy => ?_
  refine keeps_check (fun x hx => ?_) op ref user
  obtain rfl := Option.some.inj hx
  exact hpolicy

end Gate

end GitLfs
