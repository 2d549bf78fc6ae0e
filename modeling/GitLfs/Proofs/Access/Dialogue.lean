import GitLfs.Access.Gate
import GitLfs.Proofs.Dialogue

/-!
# What passing the gate asks

Whoever wants to pass the gate has a policy looked up, where policies are looked up, and has the
policy, if there is one, asked once. `holds_pass` says that the gate holds this dialogue, and
`carriesOut_dialogue` that its plan is carried out.
-/

namespace GitLfs.Gate

variable {σ : Type} {policies : PolicySource σ}

/-- What an operation asks of a policy: to read for a download or a listing, nothing for verifying,
and to write for everything else. -/
def checkCalls (op : Operation) (ref user : Option String) : List Call :=
  match op with
  | .download | .listLocks => [.mayRead ref user]
  | .verify => []
  | .upload | .createLock | .deleteLock | .listLocksToVerify => [.mayWrite ref user]

/-- What is asked of a policy that has been found. -/
def checkDialogue (policy : Option (AccessPolicy σ)) (op : Operation) (ref user : Option String) :
    Dialogue σ Unit :=
  match policy with
  | none => .close (.ok ())
  | some policy =>
    match op with
    | .download | .listLocks => .single (.mayRead ref user) (policy.mayRead ref user)
    | .verify => .close (.ok ())
    | .upload | .createLock | .deleteLock | .listLocksToVerify =>
      .single (.mayWrite ref user) (policy.mayWrite ref user)

/-- What passing the gate asks. -/
def dialogue (policies : PolicySource σ) (path : Option String) (op : Operation)
    (ref user : Option String) : Dialogue σ Unit :=
  (policies.dialogue .policyFor path).andThen fun policy => checkDialogue policy op ref user

/-- There is a policy for the repository at a path. -/
def guarded (policies : PolicySource σ) (path : Option String) (s : σ) : Bool :=
  match ((policies.dialogue .policyFor path).hold s).outcome with
  | .ok (some _) => true
  | _ => false

/-- The calls that it takes to pass the gate. -/
def plan (policies : PolicySource σ) (path : Option String) (op : Operation)
    (ref user : Option String) (s : σ) : List Call :=
  policies.calls (.policyFor path) ++ if guarded policies path s then checkCalls op ref user else []

theorem holds_check (policy : Option (AccessPolicy σ)) (op : Operation) (ref user : Option String) :
    (check policy op ref user).Holds (checkDialogue policy op ref user) := by
  cases policy with
  | none => exact .pure ()
  | some policy =>
    cases op with
    | verify => exact .pure ()
    | download | listLocks =>
      exact .report_bind (.ask _ (policy.mayRead ref user))
    | upload | createLock | deleteLock | listLocksToVerify =>
      exact .report_bind (.ask _ (policy.mayWrite ref user))

theorem holds_pass (path : Option String) (op : Operation) (ref user : Option String) :
    (pass policies path op ref user).Holds (dialogue policies path op ref user) :=
  (policies.holds_resolve .policyFor path).bind fun policy => holds_check policy op ref user

theorem carriesOut_check (policy : Option (AccessPolicy σ)) (op : Operation)
    (ref user : Option String) (s : σ) :
    ((checkDialogue policy op ref user).hold s).CarriesOut
      (if policy.isSome then checkCalls op ref user else []) := by
  cases policy with
  | none => exact Dialogue.carriesOut_ok _ s
  | some policy =>
    cases op with
    | verify => exact Dialogue.carriesOut_ok _ s
    | _ => exact Dialogue.carriesOut_single _ _ s

theorem carriesOut_dialogue (path : Option String) (op : Operation) (ref user : Option String)
    (s : σ) :
    ((dialogue policies path op ref user).hold s).CarriesOut
      (plan policies path op ref user s) := by
  refine Dialogue.carriesOut_andThen (policies.carriesOut_dialogue _ _ s) fun policy hpolicy => ?_
  have hguarded : guarded policies path s = policy.isSome := by
    unfold guarded
    rw [hpolicy]
    cases policy <;> rfl
  rw [hguarded]
  exact carriesOut_check policy op ref user _

end GitLfs.Gate
