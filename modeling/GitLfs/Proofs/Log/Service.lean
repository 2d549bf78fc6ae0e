import GitLfs.Proofs.Lock.Locking
import GitLfs.Proofs.Log.Entries
import GitLfs.Proofs.Storage.Dialogue

/-!
# What the services log

The gate, the batch service and the locking service report events under loggers of their own, and for
the rest log what their collaborators report. So a property of the events under these loggers
(`Log.Covers`) that all events of the collaborators have is one of everything that the services log:
`Exchange.Reports.serve`, `Locking.Reports.serve`.
-/

namespace GitLfs

variable {σ α : Type} {P : Event → Prop}

namespace Log

/-- The loggers of the services, of their parts, and of the handlers. -/
def serviceLoggers : List String :=
  ["auth", "batch", "batch.transfer", "batch.routes", "locks", "locks.paths", "locks.routes"]

/-- All events under the loggers of the services have a property. -/
def Covers (P : Event → Prop) : Prop :=
  ∀ name ∈ serviceLoggers, ∀ level message, P ⟨level, logger name, message⟩

end Log

/-- What a service reports itself. -/
theorem Service.Logs.own (h : Log.Covers P) {name : String} (hname : name ∈ Log.serviceLoggers)
    (level : Level) (message : String) :
    Service.Logs P (Service.report level name message : Service σ Unit) :=
  .report (h name hname level message)

/-! ## Collaborators -/

/-- A policy reports events with a property only. -/
structure AccessPolicy.Reports (P : Event → Prop) (policy : AccessPolicy σ) : Prop where
  mayRead : ∀ ref user, (policy.mayRead ref user).Reports P
  mayWrite : ∀ ref user, (policy.mayWrite ref user).Reports P

/-- An object store reports events with a property only. -/
structure ObjectStore.Reports (P : Event → Prop) (s : ObjectStore σ) : Prop where
  size : ∀ oid, (s.size oid).Reports P
  downloadAction : ∀ oid, (s.downloadAction oid).Reports P
  uploadAction : ∀ oid size, (s.uploadAction oid size).Reports P
  verifyAction : ∀ oid, (s.verifyAction oid).Reports P

/-- A lock keeper reports events with a property only. -/
structure LockKeeper.Reports (P : Event → Prop) (keeper : LockKeeper σ) : Prop where
  create : ∀ path ref user, (keeper.create path ref user).Reports P
  list : ∀ path id cursor limit ref, (keeper.list path id cursor limit ref).Reports P
  listToVerify : ∀ ref user cursor limit, (keeper.listToVerify ref user cursor limit).Reports P
  delete : ∀ id ref user force, (keeper.delete id ref user force).Reports P
  isAdministrator : ∀ user, (keeper.isAdministrator user).Reports P

/-- The collaborators of a batch service report events with a property only. -/
structure Exchange.Reports (P : Event → Prop) (x : Exchange σ) : Prop where
  policies : x.policies.Reports P (AccessPolicy.Reports P)
  stores : x.stores.Reports P (ObjectStore.Reports P)

/-- The collaborators of a locking service report events with a property only. -/
structure Locking.Reports (P : Event → Prop) (s : Locking σ) : Prop where
  policies : s.policies.Reports P (AccessPolicy.Reports P)
  keepers : s.keepers.Reports P (LockKeeper.Reports P)

theorem AccessPolicy.reports_true (policy : AccessPolicy σ) : policy.Reports fun _ => True :=
  ⟨fun _ _ => Query.reports_true _, fun _ _ => Query.reports_true _⟩

theorem ObjectStore.reports_true (s : ObjectStore σ) : s.Reports fun _ => True :=
  ⟨fun _ => Query.reports_true _, fun _ => Query.reports_true _, fun _ _ => Query.reports_true _,
    fun _ => Query.reports_true _⟩

theorem LockKeeper.reports_true (keeper : LockKeeper σ) : keeper.Reports fun _ => True :=
  ⟨fun _ _ _ => Query.reports_true _, fun _ _ _ _ _ => Query.reports_true _,
    fun _ _ _ _ => Query.reports_true _, fun _ _ _ _ => Query.reports_true _,
    fun _ => Query.reports_true _⟩

theorem Exchange.reports_true (x : Exchange σ) : x.Reports fun _ => True :=
  ⟨x.policies.reports_true AccessPolicy.reports_true,
    x.stores.reports_true ObjectStore.reports_true⟩

theorem Locking.reports_true (s : Locking σ) : s.Reports fun _ => True :=
  ⟨s.policies.reports_true AccessPolicy.reports_true,
    s.keepers.reports_true LockKeeper.reports_true⟩

/-! ## The gate -/

namespace Gate

theorem logs_check (hP : Log.Covers P) {policy : AccessPolicy σ} (h : policy.Reports P)
    (op : Operation) (ref user : Option String) :
    Service.Logs P (check (some policy) op ref user) := by
  have hname : "auth" ∈ Log.serviceLoggers := by decide
  unfold check
  cases op.requiredAccess with
  | none => exact .pure ()
  | some access =>
    cases access with
    | read => exact (Service.Logs.own hP hname _ _).bind fun _ => .ask _ (h.mayRead ref user)
    | write => exact (Service.Logs.own hP hname _ _).bind fun _ => .ask _ (h.mayWrite ref user)

theorem logs_pass (hP : Log.Covers P) {policies : PolicySource σ}
    (h : policies.Reports P (AccessPolicy.Reports P)) (path : Option String) (op : Operation)
    (ref user : Option String) : Service.Logs P (pass policies path op ref user) := by
  refine Service.Logs.resolve_bind h .policyFor path ?_ fun policy hpolicy =>
    logs_check hP hpolicy op ref user
  unfold check
  exact .pure ()

end Gate

/-! ## The batch service -/

namespace ObjectStore.Reports

variable {s : ObjectStore σ}

theorem storedSize (h : s.Reports P) (oid : String) : Service.Logs P (s.storedSize oid) := by
  refine (Service.Logs.ask _ (h.size oid)).bind fun n => ?_
  cases n <;> exact .pure _

theorem answer (h : s.Reports P) (hP : Log.Covers P) (op : BatchOperation) (o : RequestedObject) :
    Service.Logs P (s.answer op o) := by
  have hname : "batch.transfer" ∈ Log.serviceLoggers := by decide
  cases op with
  | upload =>
    refine (h.storedSize o.oid).bind fun size => ?_
    cases size with
    | some size => exact .pure _
    | none =>
      exact (Service.Logs.ask _ (h.uploadAction o.oid o.size)).bind fun _ =>
        (Service.Logs.ask _ (h.verifyAction o.oid)).bind fun _ => .pure _
  | download =>
    refine (h.storedSize o.oid).bind fun size => ?_
    cases size with
    | some size => exact (Service.Logs.ask _ (h.downloadAction o.oid)).bind fun _ => .pure _
    | none => exact (Service.Logs.own hP hname _ _).bind fun _ => .pure _
  | verify =>
    refine (h.storedSize o.oid).bind fun size => ?_
    cases size with
    | some size =>
      dsimp only
      split
      · exact .pure _
      · exact .ofExcept _
    | none => exact .pure _

theorem answerAll (h : s.Reports P) (hP : Log.Covers P) (op : BatchOperation)
    (objects : List RequestedObject) : Service.Logs P (s.answerAll op objects) := by
  induction objects with
  | nil => exact .pure []
  | cons o rest ih => exact (h.answer hP op o).bind fun _ => ih.bind fun _ => .pure _

end ObjectStore.Reports

theorem Exchange.Reports.serve {x : Exchange σ} (h : x.Reports P) (hP : Log.Covers P)
    (task : Exchange.Task) : Service.Logs P (x.serve task) := by
  have hname : "batch" ∈ Log.serviceLoggers := by decide
  unfold Exchange.serve batch
  refine (Gate.logs_pass hP h.policies _ _ _ _).bind fun _ =>
    Service.Logs.resolve_bind h.stores _ _ ?_ fun store hstore => ?_
  · exact (Service.Logs.own hP hname _ _).bind fun _ => .throw _
  · exact (hstore.answerAll hP _ _).bind fun _ => Service.Logs.elapsed.bind fun _ =>
      (Service.Logs.own hP hname _ _).bind fun _ => .pure _

/-! ## The locking service -/

namespace Locking

theorem logs_entrance {s : Locking σ} (h : s.Reports P) (hP : Log.Covers P) (path : Option String)
    (op : Operation) (ref user : Option String) {f : LockKeeper σ → Service σ α}
    (hf : ∀ keeper, keeper.Reports P → Service.Logs P (f keeper)) :
    Service.Logs P (s.entrance path op ref user >>= f) := by
  unfold entrance keeper
  rw [bind_assoc]
  refine (Gate.logs_pass hP h.policies path op ref user).bind fun _ => ?_
  rw [bind_assoc]
  exact Service.Logs.resolve_bind h.keepers .keeperFor path (.throw_bind _ f) hf

theorem logs_conduct (hP : Log.Covers P) {keeper : LockKeeper σ} (h : keeper.Reports P)
    (task : Task) : Service.Logs P (task.conduct keeper) := by
  have hname : "locks" ∈ Log.serviceLoggers := by decide
  have hreport : ∀ level message, Service.Logs P
      (Service.report level "locks" message : Service σ Unit) := Service.Logs.own hP hname
  cases task with
  | create request user path =>
    exact (hreport _ _).bind fun _ => (Service.Logs.ask _ (h.create _ _ _)).bind fun _ =>
      (hreport _ _).bind fun _ => .pure _
  | list query user path =>
    exact (hreport _ _).bind fun _ => (Service.Logs.ask _ (h.list _ _ _ _ _)).bind fun _ => .pure _
  | verify request user path =>
    exact (hreport _ _).bind fun _ =>
      (Service.Logs.ask _ (h.listToVerify _ _ _ _)).bind fun _ => .pure _
  | release id request user path =>
    have hforce : Service.Logs P (force keeper request user) := by
      unfold force
      cases request.force with
      | true => exact .ask _ (h.isAdministrator user)
      | false => exact .pure false
    exact hforce.bind fun _ => (hreport _ _).bind fun _ =>
      (Service.Logs.ask _ (h.delete _ _ _ _)).bind fun _ => (hreport _ _).bind fun _ => .pure _

theorem Reports.serve {s : Locking σ} (h : s.Reports P) (hP : Log.Covers P) (task : Task) :
    Service.Logs P (s.serve task) := by
  rw [serve_eq]
  have hconduct : ∀ keeper : LockKeeper σ, keeper.Reports P → Service.Logs P (task.conduct keeper) :=
    fun keeper hkeeper => logs_conduct hP hkeeper task
  cases task <;> exact logs_entrance h hP _ _ _ _ hconduct

end Locking

end GitLfs
