import GitLfs.Proofs.Alike.Dialogue
import GitLfs.Proofs.Lock.Dialogue
import GitLfs.Proofs.Storage.Dialogue

/-!
# Services over collaborators that differ in defects only

What a service asks of collaborators that are alike are dialogues that are alike: first the gate, then
the row of objects of a batch, by induction on the row, and what a request asks of a lock keeper. Each
collaborator has a `reword`, the same collaborator with its defects told in other words, and the two
are always alike.
-/

namespace GitLfs

variable {σ τ : Type} {S : σ → τ → Prop}

/-! ## The gate -/

/-- Policies that decide alike. -/
structure AccessPolicy.Alike (S : σ → τ → Prop) (x : AccessPolicy σ) (y : AccessPolicy τ) : Prop where
  mayRead : ∀ ref user, Query.Alike S Eq (x.mayRead ref user) (y.mayRead ref user)
  mayWrite : ∀ ref user, Query.Alike S Eq (x.mayWrite ref user) (y.mayWrite ref user)

/-- Policies that are found and decide alike. -/
abbrev PolicySource.Alike (S : σ → τ → Prop) (x : PolicySource σ) (y : PolicySource τ) : Prop :=
  Source.Alike S (AccessPolicy.Alike S) x y

namespace Gate

theorem alike_check {policy : Option (AccessPolicy σ)} {policy' : Option (AccessPolicy τ)}
    (h : Option.Rel (AccessPolicy.Alike S) policy policy') (op : Operation)
    (ref user : Option String) :
    Dialogue.Alike S Eq (checkDialogue policy op ref user) (checkDialogue policy' op ref user) := by
  cases h with
  | none => exact .done ()
  | some h =>
    cases op with
    | verify => exact .done ()
    | download | listLocks => exact .single (h.mayRead ref user) _
    | upload | createLock | deleteLock | listLocksToVerify =>
      exact .single (h.mayWrite ref user) _

theorem alike_dialogue {policies : PolicySource σ} {policies' : PolicySource τ}
    (h : PolicySource.Alike S policies policies') (path : Option String) (op : Operation)
    (ref user : Option String) :
    Dialogue.Alike S Eq (dialogue policies path op ref user) (dialogue policies' path op ref user) :=
  (Source.Alike.dialogue h .policyFor path).andThen fun _ _ hpolicy => alike_check hpolicy op ref user

end Gate

/-! ## Batches -/

/-- Stores that answer alike. -/
structure ObjectStore.Alike (S : σ → τ → Prop) (x : ObjectStore σ) (y : ObjectStore τ) : Prop where
  size : ∀ oid, Query.Alike S Eq (x.size oid) (y.size oid)
  downloadAction : ∀ oid, Query.Alike S Eq (x.downloadAction oid) (y.downloadAction oid)
  uploadAction : ∀ oid size, Query.Alike S Eq (x.uploadAction oid size) (y.uploadAction oid size)
  verifyAction : ∀ oid, Query.Alike S Eq (x.verifyAction oid) (y.verifyAction oid)

namespace ObjectStore.Alike

variable {x : ObjectStore σ} {y : ObjectStore τ}

theorem offer (h : x.Alike S y) (op : BatchOperation) (o : RequestedObject) (size : Option Int) :
    Dialogue.Alike S Eq (x.offer op o size) (y.offer op o size) := by
  cases size with
  | none =>
    cases op with
    | upload =>
      refine (Dialogue.Alike.single (h.uploadAction o.oid o.size) _).andThen fun upload _ heq => ?_
      rw [heq]
      exact (Dialogue.Alike.single (h.verifyAction o.oid) _).map_eq _
    | download | verify => exact .done _
  | some n =>
    cases op with
    | download => exact (Dialogue.Alike.single (h.downloadAction o.oid) _).map_eq _
    | upload | verify => exact .close (.refl _)

theorem object (h : x.Alike S y) (op : BatchOperation) (o : RequestedObject) :
    Dialogue.Alike S Eq (x.objectDialogue op o) (y.objectDialogue op o) := by
  refine (Dialogue.Alike.single (h.size o.oid) _).andThen fun size _ heq => ?_
  rw [heq]
  exact h.offer op o _

/-- By induction on the row: when the answers so far are the same, the next object is asked about alike,
and a defect ends both rows at the same object. -/
theorem row (h : x.Alike S y) (op : BatchOperation) (objects : List RequestedObject) :
    Dialogue.Alike S Eq (x.rowDialogue op objects) (y.rowDialogue op objects) := by
  induction objects with
  | nil => exact .done []
  | cons o rest ih =>
    refine (h.object op o).andThen fun first _ heq => ?_
    rw [heq]
    exact ih.map_eq _

end ObjectStore.Alike

/-- Batch services over policies and stores that are alike. -/
structure Exchange.Alike (S : σ → τ → Prop) (x : Exchange σ) (y : Exchange τ) : Prop where
  policies : PolicySource.Alike S x.policies y.policies
  stores : Source.Alike S (ObjectStore.Alike S) x.stores y.stores

theorem Exchange.Alike.dialogue {x : Exchange σ} {y : Exchange τ} (h : x.Alike S y) (task : Task) :
    Dialogue.Alike S Eq (x.dialogue task) (y.dialogue task) := by
  have happroach : Dialogue.Alike S (Option.Rel (ObjectStore.Alike S)) (x.approach task)
      (y.approach task) :=
    (Gate.alike_dialogue h.policies _ _ _ _).andThen fun _ _ _ => h.stores.dialogue _ _
  exact happroach.withFound fun _ _ hstore => (hstore.row _ _).map_eq BatchAnswer.mk

/-! ## Locks -/

/-- Lock keepers that answer alike. -/
structure LockKeeper.Alike (S : σ → τ → Prop) (x : LockKeeper σ) (y : LockKeeper τ) : Prop where
  create : ∀ path ref user, Query.Alike S Eq (x.create path ref user) (y.create path ref user)
  list : ∀ path id cursor limit ref,
    Query.Alike S Eq (x.list path id cursor limit ref) (y.list path id cursor limit ref)
  listToVerify : ∀ ref user cursor limit,
    Query.Alike S Eq (x.listToVerify ref user cursor limit) (y.listToVerify ref user cursor limit)
  delete : ∀ id ref user force,
    Query.Alike S Eq (x.delete id ref user force) (y.delete id ref user force)
  isAdministrator : ∀ user, Query.Alike S Eq (x.isAdministrator user) (y.isAdministrator user)

/-- Locking services over policies and keepers that are alike. -/
structure Locking.Alike (S : σ → τ → Prop) (x : Locking σ) (y : Locking τ) : Prop where
  policies : PolicySource.Alike S x.policies y.policies
  keepers : Source.Alike S (LockKeeper.Alike S) x.keepers y.keepers

namespace LockKeeper.Alike

variable {x : LockKeeper σ} {y : LockKeeper τ}

theorem errand (h : x.Alike S y) (force : Bool) (task : Locking.Task) :
    Dialogue.Alike S Eq (task.errand x force) (task.errand y force) := by
  cases task with
  | create => exact (Dialogue.Alike.single (h.create _ _ _) _).map_eq _
  | list => exact (Dialogue.Alike.single (h.list _ _ _ _ _) _).map_eq _
  | verify => exact (Dialogue.Alike.single (h.listToVerify _ _ _ _) _).map_eq _
  | release => exact (Dialogue.Alike.single (h.delete _ _ _ _) _).map_eq _

theorem inquiry (h : x.Alike S y) (task : Locking.Task) :
    Dialogue.Alike S Eq (task.inquiry x) (task.inquiry y) := by
  unfold Locking.Task.inquiry
  cases task.forced with
  | true => exact .single (h.isAdministrator task.user) _
  | false => exact .done false

theorem deed (h : x.Alike S y) (task : Locking.Task) :
    Dialogue.Alike S Eq (task.deed x) (task.deed y) := by
  refine (h.inquiry task).andThen fun force _ heq => ?_
  rw [heq]
  exact h.errand _ task

end LockKeeper.Alike

theorem Locking.Alike.dialogue {x : Locking σ} {y : Locking τ} (h : x.Alike S y) (task : Task) :
    Dialogue.Alike S Eq (x.dialogue task) (y.dialogue task) := by
  have happroach : Dialogue.Alike S (Option.Rel (LockKeeper.Alike S)) (x.approach task)
      (y.approach task) :=
    (Gate.alike_dialogue h.policies _ _ _ _).andThen fun _ _ _ => h.keepers.dialogue _ _
  exact happroach.withFound fun _ _ hkeeper => hkeeper.deed task

/-! ## Defects in other words -/

section reword

variable (f : Defect → Defect)

/-- The policy with its defects told in other words. -/
def AccessPolicy.reword (x : AccessPolicy σ) : AccessPolicy σ where
  mayRead ref user := (x.mayRead ref user).reword f
  mayWrite ref user := (x.mayWrite ref user).reword f

/-- The store with its defects told in other words. -/
def ObjectStore.reword (x : ObjectStore σ) : ObjectStore σ where
  size oid := (x.size oid).reword f
  downloadAction oid := (x.downloadAction oid).reword f
  uploadAction oid size := (x.uploadAction oid size).reword f
  verifyAction oid := (x.verifyAction oid).reword f

/-- The lock keeper with its defects told in other words. -/
def LockKeeper.reword (x : LockKeeper σ) : LockKeeper σ where
  create path ref user := (x.create path ref user).reword f
  list path id cursor limit ref := (x.list path id cursor limit ref).reword f
  listToVerify ref user cursor limit := (x.listToVerify ref user cursor limit).reword f
  delete id ref user force := (x.delete id ref user force).reword f
  isAdministrator user := (x.isAdministrator user).reword f

/-- The batch service over collaborators whose defects are told in other words. -/
def Exchange.reword (x : Exchange σ) : Exchange σ :=
  ⟨x.policies.reword f (AccessPolicy.reword f), x.stores.reword f (ObjectStore.reword f)⟩

/-- The locking service over collaborators whose defects are told in other words. -/
def Locking.reword (x : Locking σ) : Locking σ :=
  ⟨x.policies.reword f (AccessPolicy.reword f), x.keepers.reword f (LockKeeper.reword f)⟩

theorem AccessPolicy.alike_reword (x : AccessPolicy σ) : x.Alike Eq (x.reword f) where
  mayRead _ _ := Query.alike_reword f _
  mayWrite _ _ := Query.alike_reword f _

theorem ObjectStore.alike_reword (x : ObjectStore σ) : x.Alike Eq (x.reword f) where
  size _ := Query.alike_reword f _
  downloadAction _ := Query.alike_reword f _
  uploadAction _ _ := Query.alike_reword f _
  verifyAction _ := Query.alike_reword f _

theorem LockKeeper.alike_reword (x : LockKeeper σ) : x.Alike Eq (x.reword f) where
  create _ _ _ := Query.alike_reword f _
  list _ _ _ _ _ := Query.alike_reword f _
  listToVerify _ _ _ _ := Query.alike_reword f _
  delete _ _ _ _ := Query.alike_reword f _
  isAdministrator _ := Query.alike_reword f _

theorem Exchange.alike_reword (x : Exchange σ) : x.Alike Eq (x.reword f) where
  policies := x.policies.alike_reword f (AccessPolicy.alike_reword f)
  stores := x.stores.alike_reword f (ObjectStore.alike_reword f)

theorem Locking.alike_reword (x : Locking σ) : x.Alike Eq (x.reword f) where
  policies := x.policies.alike_reword f (AccessPolicy.alike_reword f)
  keepers := x.keepers.alike_reword f (LockKeeper.alike_reword f)

end reword

end GitLfs
