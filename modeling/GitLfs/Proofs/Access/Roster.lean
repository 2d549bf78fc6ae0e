import GitLfs.Proofs.Access.Gate

/-!
# Who may do what by a roster

`Reads` and `Writes` say whom a roster lets read and write, and `Entitles` whom it lets do an
operation. A policy that goes by the roster lets exactly these through: `perform_pass_roster` says that
the gate comes down to `decision`, which changes no state, and `decision_eq_ok_iff` that it goes by
`Entitles`. `status_of_decision` says what those are told who are not let through.
-/

namespace GitLfs

namespace Roster

variable {r : Roster} {op : Operation} {user : Option String}

/-- The user may read: without a name, when the anonymous may; with a name, when there is no list of
readers, or the name is on one of the lists. -/
def Reads (r : Roster) : Option String → Prop
  | none => r.anonymousRead = true
  | some name => r.readers = none ∨ (∃ readers, r.readers = some readers ∧ name ∈ readers) ∨
      name ∈ r.writers

/-- The user may write. -/
def Writes (r : Roster) (user : Option String) : Prop := ∃ name, user = some name ∧ name ∈ r.writers

/-- The user may do what it takes a right to do. -/
def Entitles (r : Roster) (op : Operation) (user : Option String) : Prop :=
  match op.requiredAccess with
  | some .read => r.Reads user
  | some .write => r.Writes user
  | none => True

/-- What the policy says when it is asked for the right that an operation needs. -/
def decision (r : Roster) (op : Operation) (user : Option String) : Except Refusal Unit :=
  match op.requiredAccess with
  | some .read => r.mayRead user
  | some .write => r.mayWrite user
  | none => .ok ()

/-! ## Whom a roster lets through -/

theorem mayRead_eq_ok_iff : r.mayRead user = .ok () ↔ r.Reads user := by
  unfold mayRead Reads
  cases user with
  | none => cases r.anonymousRead <;> simp
  | some name =>
    cases r.readers with
    | none => simp
    | some readers => by_cases hname : name ∈ readers <;> simp [hname]

/-- Writers may always read. -/
theorem Writes.reads (h : r.Writes user) : r.Reads user := by
  obtain ⟨name, rfl, hname⟩ := h
  exact Or.inr (Or.inr hname)

theorem mayWrite_eq_ok_iff : r.mayWrite user = .ok () ↔ r.Writes user := by
  constructor
  · intro h
    unfold mayWrite at h
    split at h
    · cases h
    · split at h
      · cases h
      · split at h
        · next name _ _ hname => exact ⟨name, rfl, hname⟩
        · cases h
  · intro h
    have hread := mayRead_eq_ok_iff.2 h.reads
    obtain ⟨name, rfl, hname⟩ := h
    unfold mayWrite
    simp only [hread, if_pos hname]

theorem decision_eq_ok_iff : r.decision op user = .ok () ↔ r.Entitles op user := by
  unfold decision Entitles
  cases op.requiredAccess with
  | none => simp
  | some access =>
    cases access with
    | read => exact mayRead_eq_ok_iff
    | write => exact mayWrite_eq_ok_iff

/-! ## What the others are told -/

/-- Who has no name is told to give one; who may not read is told that there is nothing to read. -/
theorem status_of_mayRead {e : Refusal} (h : r.mayRead user = .error e) :
    ¬ r.Reads user ∧ (user = none → e.kind.status = 401) ∧ (user ≠ none → e.kind.status = 404) := by
  refine ⟨fun hreads => ?_, ?_⟩
  · rw [mayRead_eq_ok_iff.2 hreads] at h
    cases h
  · unfold mayRead at h
    cases user with
    | none =>
      dsimp only at h
      split at h
      · cases h
      · cases h
        exact ⟨fun _ => rfl, fun hne => absurd rfl hne⟩
    | some name =>
      dsimp only at h
      split at h
      · cases h
      · split at h
        · cases h
        · cases h
          exact ⟨fun hnone => absurd hnone (Option.some_ne_none name), fun _ => rfl⟩

/-- What those are told who may not do an operation. -/
theorem status_of_decision {e : Refusal} (h : r.decision op user = .error e) :
    (user = none → e.kind.status = 401) ∧
      (user ≠ none → ¬ r.Reads user → e.kind.status = 404) ∧
      (user ≠ none → r.Reads user → e.kind.status = 403) := by
  have hread : r.mayRead user = .error e → (user = none → e.kind.status = 401) ∧
      (user ≠ none → ¬ r.Reads user → e.kind.status = 404) ∧
      (user ≠ none → r.Reads user → e.kind.status = 403) := by
    intro h
    obtain ⟨hnot, hnone, hsome⟩ := status_of_mayRead h
    exact ⟨hnone, fun hne _ => hsome hne, fun _ hreads => absurd hreads hnot⟩
  unfold decision at h
  split at h
  · exact hread h
  · unfold mayWrite at h
    split at h
    · cases h
      exact ⟨fun _ => rfl, fun hne => absurd rfl hne, fun hne => absurd rfl hne⟩
    · split at h
      · next name _ e' he =>
        cases h
        exact hread he
      · next name _ hok =>
        have hreads : r.Reads (some name) := mayRead_eq_ok_iff.1 hok
        split at h
        · cases h
        · cases h
          exact ⟨fun hnone => absurd hnone (Option.some_ne_none name),
            fun _ hnot => absurd hreads hnot, fun _ _ => rfl⟩
  · cases h

/-- They are told so in characters. -/
theorem message_of_decision {e : Refusal} (h : r.decision op user = .error e) :
    ∃ message : String, e.message = message := by
  have hread {e : Refusal} (h : r.mayRead user = .error e) : ∃ message : String, e.message = message := by
    unfold mayRead at h
    split at h
    · split at h <;> cases h
      exact ⟨_, rfl⟩
    · split at h
      · cases h
      · split at h <;> cases h
        exact ⟨_, rfl⟩
  unfold decision at h
  split at h
  · exact hread h
  · unfold mayWrite at h
    split at h
    · cases h
      exact ⟨_, rfl⟩
    · split at h
      · next name _ e' he =>
        cases h
        exact hread he
      · split at h <;> cases h
        exact ⟨_, rfl⟩
  · cases h

/-! ## Those who are on no list -/

/-- The name is on no list. -/
structure Omits (r : Roster) (name : String) : Prop where
  writers : name ∉ r.writers
  readers : ∀ readers, r.readers = some readers → name ∉ readers

variable {name : String}

/-- Whoever has no name is told to give one, where the anonymous may not read. -/
theorem decision_nameless (hanonymous : r.anonymousRead = false) (hop : op.requiredAccess ≠ none) :
    r.decision op none = .error (.unauthorized "Authentication required") := by
  unfold decision
  cases haccess : op.requiredAccess with
  | none => exact absurd haccess hop
  | some access =>
    cases access with
    | read =>
      show r.mayRead none = _
      unfold mayRead
      rw [hanonymous]
      rfl
    | write => rfl

/-- Where there is a list of readers, whoever is on no list is told that there is nothing. -/
theorem decision_stranger (hreaders : r.readers ≠ none) (h : r.Omits name)
    (hop : op.requiredAccess ≠ none) :
    r.decision op (some name) =
      .error (.plain .repositoryNotFound "Repository not found") := by
  obtain ⟨readers, hlist⟩ := Option.ne_none_iff_exists'.1 hreaders
  have hread : r.mayRead (some name) =
      .error (.plain .repositoryNotFound "Repository not found") := by
    unfold mayRead
    simp only [hlist]
    exact if_neg (not_or.2 ⟨h.readers readers hlist, h.writers⟩)
  unfold decision
  cases haccess : op.requiredAccess with
  | none => exact absurd haccess hop
  | some access =>
    cases access with
    | read => exact hread
    | write =>
      show r.mayWrite (some name) = _
      unfold mayWrite
      simp only [hread]

/-- Without a list of readers, whoever is on no list may read, and is told that this is all. -/
theorem decision_guest (hreaders : r.readers = none) (h : r.Omits name) :
    (op.requiredAccess = some .read → r.decision op (some name) = .ok ()) ∧
      (op.requiredAccess = some .write → r.decision op (some name) =
        .error (.plain .repositoryReadOnly ("User " ++ name ++ " has read-only access"))) := by
  have hread : r.mayRead (some name) = .ok () := by
    unfold mayRead
    simp only [hreaders]
  unfold decision
  refine ⟨fun haccess => ?_, fun haccess => ?_⟩
  · rw [haccess]
    exact hread
  · rw [haccess]
    show r.mayWrite (some name) = _
    unfold mayWrite
    simp only [hread]
    exact if_neg h.writers

end Roster

/-! ## The gate -/

theorem mapError_eq_ok_iff {ε ε' α : Type} {x : Except ε α} {f : ε → ε'} {a : α} :
    x.mapError f = .ok a ↔ x = .ok a := by
  cases x with
  | ok b => exact ⟨fun h => congrArg _ (Except.ok.inj h), fun h => congrArg _ (Except.ok.inj h)⟩
  | error e => exact ⟨nofun, nofun⟩

namespace Gate

variable {σ : Type}

/-- A policy that is found without looking it up is asked at once. -/
theorem pass_fixed (policy : Option (AccessPolicy σ)) (path : Option String) :
    pass (.fixed policy) path = check policy := by
  funext op ref user
  exact pure_bind policy _

/-- A roster that is asked decides, and changes no state. -/
theorem perform_check_roster (r : Roster) (op : Operation) (ref user : Option String)
    (p : Progress σ) :
    ∃ q, perform (check (some r.policy) op ref user) p =
        ((r.decision op user).mapError .refusal, q) ∧ q.state = p.state := by
  have hdecide : ∀ (decision : Except Refusal Unit) (call : Call) (p : Progress σ),
      ∃ q, perform (Service.ask call (Roster.decide decision)) p =
        (decision.mapError .refusal, q) ∧ q.state = p.state := by
    intro decision call p
    cases decision <;> exact ⟨_, rfl, rfl⟩
  unfold check Roster.decision
  cases op.requiredAccess with
  | none => exact ⟨p, rfl, rfl⟩
  | some access =>
    cases access with
    | read =>
      obtain ⟨q, hq, hstate⟩ := hdecide (r.mayRead user) (.mayRead ref user)
        (p.report [⟨.debug, Log.logger "auth", checkMessage "read" op ref user⟩])
      exact ⟨q, hq, hstate.trans (Progress.state_report _ p)⟩
    | write =>
      obtain ⟨q, hq, hstate⟩ := hdecide (r.mayWrite user) (.mayWrite ref user)
        (p.report [⟨.debug, Log.logger "auth", checkMessage "write" op ref user⟩])
      exact ⟨q, hq, hstate.trans (Progress.state_report _ p)⟩

theorem outcome_check_roster (r : Roster) (op : Operation) (ref user : Option String)
    (p : Progress σ) :
    (perform (check (some r.policy) op ref user) p).1 = (r.decision op user).mapError .refusal := by
  obtain ⟨q, hq, -⟩ := perform_check_roster r op ref user p
  rw [hq]

/-- A roster that is asked lets those through whom it entitles, and nobody else. -/
theorem check_eq_ok_iff {r : Roster} {op : Operation} {ref user : Option String} {p : Progress σ} :
    (perform (check (some r.policy) op ref user) p).1 = .ok () ↔ r.Entitles op user := by
  rw [outcome_check_roster, mapError_eq_ok_iff, Roster.decision_eq_ok_iff]

/-- The gate in front of a roster does what the roster decides, and changes no state. -/
theorem perform_pass_roster (r : Roster) (path : Option String) (op : Operation)
    (ref user : Option String) (p : Progress σ) :
    ∃ q, perform (pass (.fixed (some r.policy)) path op ref user) p =
        ((r.decision op user).mapError .refusal, q) ∧ q.state = p.state := by
  rw [pass_fixed]
  exact perform_check_roster r op ref user p

end Gate

end GitLfs
