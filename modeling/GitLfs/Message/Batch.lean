import GitLfs.Message.Lock

/-!
# Batch requests and answers

A batch asks about many objects at once, for one of three operations. The answer says for each
object what the client may do next or what is wrong with it. Only the basic transfer is served.
-/

namespace GitLfs

open Json (Value)

/-- What a batch is about. -/
inductive BatchOperation where
  | upload
  | download
  | verify
  deriving DecidableEq, Repr, Inhabited

namespace BatchOperation

/-- The name of an operation in requests and logs. -/
def name : BatchOperation → String
  | upload => "upload"
  | download => "download"
  | verify => "verify"

/-- The operation with a name. -/
def ofName? (s : String) : Option BatchOperation :=
  if s = "upload" then some upload
  else if s = "download" then some download
  else if s = "verify" then some verify
  else none

theorem ofName?_eq_some_iff {s : String} {op : BatchOperation} :
    ofName? s = some op ↔ s = op.name := by
  unfold ofName?
  split
  · next h => subst h; cases op <;> decide
  · split
    · next h => subst h; cases op <;> decide
    · split
      · next h => subst h; cases op <;> decide
      · cases op <;> simp_all [name]

/-- Reads the name of an operation. -/
def decode : Decoder BatchOperation := fun v =>
  (Decoder.text v).andThen fun s =>
    match ofName? s with
    | some op => .passed op
    | none => .fail (.unknownOperation s)

end BatchOperation

/-- The one way of moving objects that is served. -/
def basicTransfer : String := "basic"

/-- The ways of moving objects that a client offers, among them the basic one. -/
def decodeTransfers : Decoder (List String) := fun v =>
  (Decoder.list Decoder.text v).andThen fun offered =>
    if basicTransfer ∈ offered then .passed offered else .fail (.basicNotOffered offered)

/-- An object that a batch asks about, with the size that the client knows for it. -/
structure RequestedObject where
  oid : String
  size : Nat
  deriving DecidableEq, Repr, Inhabited

namespace RequestedObject

/-- Reads an object, whose identifier is not blank; without a size it has none. -/
def decode : Decoder RequestedObject := Decoder.record "LfsObject" fun members =>
  RequestedObject.mk <$> Decoder.required members "oid" Decoder.trimmedText
    <*> Decoder.optional members "size" 0 Decoder.natural

/-- Writes an object that a batch asks about. -/
def encode (o : RequestedObject) : Value :=
  .object [("oid", .text o.oid), ("size", Value.integer o.size)]

end RequestedObject

/-- A request about many objects; offering no transfers means the basic one. -/
structure BatchRequest where
  operation : BatchOperation
  objects : List RequestedObject
  ref : Option Ref
  transfers : Option (List String)
  deriving DecidableEq, Repr, Inhabited

namespace BatchRequest

/-- Reads a batch request. -/
def decode : Decoder BatchRequest := Decoder.record "BatchRequest" fun members =>
  BatchRequest.mk <$> Decoder.required members "operation" BatchOperation.decode
    <*> Decoder.required members "objects" (Decoder.list RequestedObject.decode)
    <*> Decoder.optional members "ref" none (Decoder.nullable Ref.decode)
    <*> Decoder.optional members "transfers" none (Decoder.nullable decodeTransfers)

/-- Writes a batch request. -/
def encode (r : BatchRequest) : Value :=
  .object [("operation", .text r.operation.name),
    ("objects", .list (r.objects.map RequestedObject.encode)),
    ("ref", Value.optional Ref.encode r.ref),
    ("transfers", Value.optional (fun ts => .list (ts.map .text)) r.transfers)]

end BatchRequest

/-- Where and how a client moves an object. -/
structure Action where
  href : String
  header : Option (OrderedMap String String)
  expiresIn : Option Int
  expiresAt : Option DateTime
  deriving DecidableEq, Repr

namespace Action

/-- Reads an action. -/
def decode : Decoder Action := Decoder.record "Action" fun members =>
  Action.mk <$> Decoder.required members "href" Decoder.text
    <*> Decoder.optional members "header" none (Decoder.nullable (Decoder.map Decoder.text))
    <*> Decoder.optional members "expires_in" none (Decoder.nullable Decoder.integer)
    <*> Decoder.optional members "expires_at" none (Decoder.nullable Decoder.dateTime)

/-- Writes an action. -/
def encode (a : Action) : Value :=
  .object [("href", .text a.href),
    ("header", Value.optional
      (fun h => .object (h.entries.map fun (k, v) => (k, .text v))) a.header),
    ("expires_in", Value.optional Value.integer a.expiresIn),
    ("expires_at", Value.optional (fun t => .text t.text) a.expiresAt)]

end Action

/-- What is wrong with one object of a batch. -/
structure ObjectFailure where
  code : Int
  message : String
  deriving DecidableEq, Repr, Inhabited

namespace ObjectFailure

/-- Reads what is wrong with an object. -/
def decode : Decoder ObjectFailure := Decoder.record "ObjectError" fun members =>
  ObjectFailure.mk <$> Decoder.required members "code" Decoder.integer
    <*> Decoder.required members "message" Decoder.text

/-- Writes what is wrong with an object. -/
def encode (f : ObjectFailure) : Value :=
  .object [("code", Value.integer f.code), ("message", .text f.message)]

end ObjectFailure

/-- The answer about one object of a batch. -/
structure ObjectAnswer where
  oid : String
  size : Int
  authenticated : Option Bool
  actions : Option (OrderedMap String Action)
  error : Option ObjectFailure
  deriving DecidableEq, Repr

namespace ObjectAnswer

/-- Reads the answer about an object. -/
def decode : Decoder ObjectAnswer := Decoder.record "ObjectResult" fun members =>
  ObjectAnswer.mk <$> Decoder.required members "oid" Decoder.text
    <*> Decoder.required members "size" Decoder.integer
    <*> Decoder.optional members "authenticated" none (Decoder.nullable Decoder.boolean)
    <*> Decoder.optional members "actions" none (Decoder.nullable (Decoder.map Action.decode))
    <*> Decoder.optional members "error" none (Decoder.nullable ObjectFailure.decode)

/-- Writes the answer about an object. -/
def encode (a : ObjectAnswer) : Value :=
  .object [("oid", .text a.oid), ("size", Value.integer a.size),
    ("authenticated", Value.optional .boolean a.authenticated),
    ("actions", Value.optional
      (fun m => .object (m.entries.map fun (k, action) => (k, action.encode))) a.actions),
    ("error", Value.optional ObjectFailure.encode a.error)]

end ObjectAnswer

/-- The answers about the objects of a batch, in the order of the request. -/
structure BatchAnswer where
  objects : List ObjectAnswer
  deriving DecidableEq, Repr

namespace BatchAnswer

/-- The name of the transfer, which has to be the basic one. -/
def decodeTransfer : Decoder Unit
  | .text s => if s = basicTransfer then .passed () else .fail .notBasicTransfer
  | _ => .fail .notBasicTransfer

/-- Reads the answers of a batch. -/
def decode : Decoder BatchAnswer := Decoder.record "BatchResponse" fun members =>
  (fun _ objects => BatchAnswer.mk objects)
    <$> Decoder.optional members "transfer" () decodeTransfer
    <*> Decoder.optional members "objects" [] (Decoder.list ObjectAnswer.decode)

/-- Writes the answers of a batch, with the name of the transfer. -/
def encode (a : BatchAnswer) : Value :=
  .object [("transfer", .text basicTransfer),
    ("objects", .list (a.objects.map ObjectAnswer.encode))]

end BatchAnswer

end GitLfs
