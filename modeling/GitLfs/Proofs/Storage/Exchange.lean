import GitLfs.Proofs.Access.Gate
import GitLfs.Storage.Exchange

/-!
# What answering a batch leaves alone

When neither the access policies nor the object stores take notice of a part of the state, no batch
request changes it: `Exchange.keeps_batch`.
-/

namespace GitLfs

variable {σ τ ν α : Type} {part : σ → ν}

/-- No question to an object store changes a part of the state. -/
structure ObjectStore.Keeps (part : σ → ν) (s : ObjectStore σ) : Prop where
  size : ∀ oid, Query.Keeps part (s.size oid)
  downloadAction : ∀ oid, Query.Keeps part (s.downloadAction oid)
  uploadAction : ∀ oid size, Query.Keeps part (s.uploadAction oid size)
  verifyAction : ∀ oid, Query.Keeps part (s.verifyAction oid)

namespace ObjectStore.Keeps

variable {s : ObjectStore σ}

theorem storedSize (h : s.Keeps part) (oid : String) : Service.Keeps part (s.storedSize oid) := by
  unfold ObjectStore.storedSize
  refine (Service.Keeps.ask _ (h.size oid)).bind fun n => ?_
  cases n <;> exact GitLfs.Keeps.pure _

theorem answerUpload (h : s.Keeps part) (o : RequestedObject) :
    Service.Keeps part (s.answerUpload o) := by
  unfold ObjectStore.answerUpload
  refine (h.storedSize o.oid).bind fun n => ?_
  cases n with
  | some size => exact GitLfs.Keeps.pure _
  | none => exact (Service.Keeps.ask _ (h.uploadAction o.oid o.size)).bind fun _ =>
      (Service.Keeps.ask _ (h.verifyAction o.oid)).bind fun _ => GitLfs.Keeps.pure _

theorem answerDownload (h : s.Keeps part) (o : RequestedObject) :
    Service.Keeps part (s.answerDownload o) := by
  unfold ObjectStore.answerDownload
  refine (h.storedSize o.oid).bind fun n => ?_
  cases n with
  | some size => exact (Service.Keeps.ask _ (h.downloadAction o.oid)).bind fun _ =>
      GitLfs.Keeps.pure _
  | none => exact (Service.Keeps.report _ _ _).bind fun _ => GitLfs.Keeps.pure _

theorem answerVerify (h : s.Keeps part) (o : RequestedObject) :
    Service.Keeps part (s.answerVerify o) := by
  unfold ObjectStore.answerVerify
  refine (h.storedSize o.oid).bind fun n => ?_
  cases n with
  | some size =>
    dsimp only
    split
    · exact GitLfs.Keeps.pure _
    · exact Service.Keeps.ofExcept _
  | none => exact GitLfs.Keeps.pure _

theorem answer (h : s.Keeps part) (op : BatchOperation) (o : RequestedObject) :
    Service.Keeps part (s.answer op o) := by
  cases op with
  | upload => exact h.answerUpload o
  | download => exact h.answerDownload o
  | verify => exact h.answerVerify o

theorem answerAll (h : s.Keeps part) (op : BatchOperation) (objects : List RequestedObject) :
    Service.Keeps part (s.answerAll op objects) := by
  induction objects with
  | nil => exact GitLfs.Keeps.pure _
  | cons o rest ih => exact (h.answer op o).bind fun _ => ih.bind fun _ => GitLfs.Keeps.pure _

end ObjectStore.Keeps

namespace Exchange

/-- Neither the policies nor the stores of a batch service take notice of a part of the state. -/
structure Keeps (part : σ → ν) (x : Exchange σ) : Prop where
  policies : x.policies.Yields part (AccessPolicy.Keeps part) .policyFor
  stores : x.stores.Yields part (ObjectStore.Keeps part)
    fun (r, path, authorization) => .storeFor r path authorization

theorem keeps_batch {x : Exchange σ} (h : x.Keeps part) (r : BatchRequest)
    (user path authorization : Option String) :
    Service.Keeps part (x.batch r user path authorization) := by
  unfold batch
  refine (Gate.keeps_pass h.policies _ _ _ _).bind fun _ => h.stores.bind _ ?_ fun store hstore => ?_
  · exact (Service.Keeps.report _ _ _).bind fun _ => GitLfs.Keeps.throw _
  · exact (hstore.answerAll r.operation r.objects).bind fun _ => Service.Keeps.elapsed.bind fun _ =>
      (Service.Keeps.report _ _ _).bind fun _ => GitLfs.Keeps.pure _

end Exchange

end GitLfs
