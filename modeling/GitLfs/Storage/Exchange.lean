import GitLfs.Access.Gate
import GitLfs.Storage.Store

/-!
# Answering a batch

Each object of a batch is answered on its own, in the order of the request:

* download: the stored size and where to fetch the object, or an error when it is not stored;
* upload: where to send the object, and what to do afterwards, unless it is stored already;
* verify: whether the object is stored with the size that the client knows.
-/

namespace GitLfs

/-- An object is not stored. -/
def ObjectAnswer.notFound (o : RequestedObject) : ObjectAnswer :=
  ⟨o.oid, o.size, none, none, some ⟨404, "Object " ++ o.oid ++ " does not exist"⟩⟩

/-- An object is stored with another size than the one that is expected. -/
def ObjectAnswer.mismatch (o : RequestedObject) (expected found : String) : ObjectAnswer :=
  ⟨o.oid, o.size, none, none, some ⟨422, "Size mismatch for object " ++ o.oid ++ ": expected " ++
    expected ++ ", stored " ++ found⟩⟩

/-- An object is stored with another size. A size that is too long to be written cannot be told. -/
def ObjectAnswer.sizeMismatch (o : RequestedObject) (stored : Int) :
    Except Failure ObjectAnswer := do
  let expected ← Failure.written o.size
  let found ← Failure.written stored
  return .mismatch o expected found

namespace ObjectStore

variable {σ : Type}

/-- The size of an object that is stored. -/
def storedSize (s : ObjectStore σ) (oid : String) : Service σ (Option Int) := do
  match ← Service.ask (.objectSize oid) (s.size oid) with
  | some n => return if n < 0 then none else some n
  | none => return none

/-- The answer about one object that a client wants to send. -/
def answerUpload (s : ObjectStore σ) (o : RequestedObject) : Service σ ObjectAnswer := do
  match ← s.storedSize o.oid with
  | some _ => return ⟨o.oid, o.size, none, none, none⟩
  | none =>
    let upload ← Service.ask (.uploadAction o.oid o.size) (s.uploadAction o.oid o.size)
    let verify ← Service.ask (.verifyAction o.oid) (s.verifyAction o.oid)
    let actions := (OrderedMap.ofList [("upload", upload)])
    let actions := match verify with
      | some a => actions.insert "verify" a
      | none => actions
    return ⟨o.oid, o.size, none, some actions, none⟩

/-- The answer about one object that a client wants to fetch. -/
def answerDownload (s : ObjectStore σ) (o : RequestedObject) : Service σ ObjectAnswer := do
  match ← s.storedSize o.oid with
  | some size =>
    let download ← Service.ask (.downloadAction o.oid) (s.downloadAction o.oid)
    return ⟨o.oid, size, none, some (OrderedMap.ofList [("download", download)]), none⟩
  | none =>
    Service.report .debug "batch.transfer"
      (Log.message "batch.download missing" [("oid", o.oid)])
    return ObjectAnswer.notFound o

/-- The answer about one object that a client has sent. -/
def answerVerify (s : ObjectStore σ) (o : RequestedObject) : Service σ ObjectAnswer := do
  match ← s.storedSize o.oid with
  | some size =>
    if size = o.size then return ⟨o.oid, size, none, none, none⟩
    else Service.ofExcept (ObjectAnswer.sizeMismatch o size)
  | none => return ObjectAnswer.notFound o

/-- The answer about one object. -/
def answer (s : ObjectStore σ) : BatchOperation → RequestedObject → Service σ ObjectAnswer
  | .upload => s.answerUpload
  | .download => s.answerDownload
  | .verify => s.answerVerify

/-- The answers about the objects of a batch. -/
def answerAll (s : ObjectStore σ) (op : BatchOperation) :
    List RequestedObject → Service σ (List ObjectAnswer)
  | [] => return []
  | o :: rest => do
    let first ← s.answer op o
    let others ← answerAll s op rest
    return first :: others

end ObjectStore

/-- The batch service of some repositories. -/
structure Exchange (σ : Type) where
  policies : PolicySource σ
  stores : StoreSource σ

namespace Exchange

variable {σ : Type}

/-- What a client is told when there is no object store for a repository. -/
def noStoreMessage : String := "Failed to get the LFS repository"

/-- Answers a batch request on the repository at a path. -/
def batch (x : Exchange σ) (r : BatchRequest) (user path authorization : Option String) :
    Service σ BatchAnswer := do
  Gate.pass x.policies path (.ofBatch r.operation) (Ref.name? r.ref) user
  match ← x.stores.resolve (fun (r, path, authorization) => .storeFor r path authorization)
      (r, path, authorization) with
  | none =>
    Service.report .error "batch" (Log.message "batch.no_repository"
      [("operation", r.operation.name), ("repo", Log.shown path)])
    Service.refuse (.internal noStoreMessage)
  | some store =>
    let answers ← store.answerAll r.operation r.objects
    let failed := (answers.filter (·.error.isSome)).length
    let duration ← Service.elapsed
    Service.report .info "batch" (Log.message "batch.ok"
      [("operation", r.operation.name), ("repo", Log.shown path), ("user", Log.shown user),
        ("objects", Log.shownInt answers.length), ("failed", Log.shownInt failed),
        ("dur_ms", Log.shownInt duration)])
    return ⟨answers⟩

end Exchange

end GitLfs
