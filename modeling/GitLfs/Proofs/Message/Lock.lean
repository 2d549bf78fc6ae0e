import GitLfs.Message.Locking
import GitLfs.Proofs.Check.Decode
import GitLfs.Proofs.Check.Yields
import GitLfs.Proofs.Json.Reader

/-!
# Messages about locks are read back

Each message is found again in what is written for it (`reads_encode`). That its members stand in the
written order is not used: `decode_members` takes any object in which they stand under names that come
once. `fits_encode` says how deep a message is nested.

A lock has to be `Readable`: with an identifier and a path, as every lock is that passed its check, and
made at an offset of whole minutes, as other offsets are not written in full.
-/

namespace GitLfs

open Decoder Json

variable {members : List (String × Value)} {d : Dialect}

namespace LockOwner

theorem reads_encode (o : LockOwner) : Reads decode o.encode o where
  ne_null := Value.noConfusion
  decode := rfl

theorem fits_encode (o : LockOwner) : o.encode.Fits d 1 := by
  apply Value.Fits.object
  simp [Value.Fits.text]

end LockOwner

namespace Lock

/-- The lock has an identifier and a path. -/
structure Named (l : Lock) : Prop where
  id_ne : l.id ≠ ""
  path_ne : l.path ≠ ""

/-- The lock is found again in what is written for it. -/
structure Readable (l : Lock) : Prop extends l.Named where
  lockedAt : l.lockedAt.InMinutes

theorem decode_members {l : Lock} (h : l.Readable) (hnodup : (members.map Prod.fst).Nodup)
    (hid : ("id", .text l.id) ∈ members) (hpath : ("path", .text l.path) ∈ members)
    (htime : ("locked_at", .text l.lockedAt.text) ∈ members)
    (howner : ("owner", Value.optional LockOwner.encode l.owner) ∈ members) :
    decode (.object (Value.membersWithoutNulls members)) = .passed l := by
  rw [decode, record, required_eq hnodup hid (reads_someText h.id_ne),
    required_eq hnodup hpath (reads_someText h.path_ne),
    required_eq hnodup htime (reads_dateTime h.lockedAt),
    optional_nullable_eq hnodup howner fun o _ => o.reads_encode]
  rfl

theorem reads_encode {l : Lock} (h : l.Readable) : Reads decode l.encode l where
  ne_null := Value.noConfusion
  decode := decode_members h (by simp) (by simp) (by simp) (by simp) (by simp)

theorem fits_encode (l : Lock) : l.encode.Fits d 2 := by
  have howner : (Value.optional LockOwner.encode l.owner).Fits d 1 :=
    .optional fun o _ => o.fits_encode
  apply Value.Fits.object
  simp [Value.Fits.text, howner]

theorem reads_list {ls : List Lock} (h : ∀ l ∈ ls, l.Readable) :
    Reads (list decode) (.list (ls.map encode)) ls :=
  Decoder.reads_list fun l hl => reads_encode (h l hl)

theorem fits_list (ls : List Lock) : (Value.list (ls.map encode)).Fits d 3 := by
  apply Value.Fits.list
  intro v hv
  obtain ⟨l, -, rfl⟩ := List.mem_map.1 hv
  exact l.fits_encode

end Lock

namespace ConflictBody

theorem decode_members {b : ConflictBody} (h : b.lock.Readable) (hnodup : (members.map Prod.fst).Nodup)
    (hmessage : ("message", .text b.message) ∈ members)
    (hlock : ("lock", b.lock.encode) ∈ members) :
    decode (.object (Value.membersWithoutNulls members)) = .passed b := by
  rw [decode, record, required_eq hnodup hmessage (reads_text b.message),
    required_eq hnodup hlock (Lock.reads_encode h)]
  rfl

theorem reads_encode {b : ConflictBody} (h : b.lock.Readable) : Reads decode b.encode b where
  ne_null := Value.noConfusion
  decode := decode_members h (by simp) (by simp) (by simp)

theorem fits_encode (b : ConflictBody) : b.encode.Fits d 3 := by
  apply Value.Fits.object
  simp [Value.Fits.text, b.lock.fits_encode]

end ConflictBody

namespace LockPage

theorem decode_members {p : LockPage} (h : ∀ l ∈ p.locks, l.Readable)
    (hnodup : (members.map Prod.fst).Nodup)
    (hlocks : ("locks", .list (p.locks.map Lock.encode)) ∈ members)
    (hcursor : ("next_cursor", Value.optional .text p.nextCursor) ∈ members) :
    decode (.object (Value.membersWithoutNulls members)) = .passed p := by
  rw [decode, record, optional_eq hnodup hlocks (Lock.reads_list h),
    optional_nullable_eq hnodup hcursor fun s _ => reads_text s]
  rfl

theorem reads_encode {p : LockPage} (h : ∀ l ∈ p.locks, l.Readable) : Reads decode p.encode p where
  ne_null := Value.noConfusion
  decode := decode_members h (by simp) (by simp) (by simp)

theorem fits_encode (p : LockPage) : p.encode.Fits d 4 := by
  have hcursor : (Value.optional .text p.nextCursor).Fits d 3 := .optional fun s _ => .text s
  apply Value.Fits.object
  simp [Lock.fits_list, hcursor]

end LockPage

namespace VerifyPage

theorem decode_members {p : VerifyPage} (hours : ∀ l ∈ p.ours, l.Readable)
    (htheirs : ∀ l ∈ p.theirs, l.Readable) (hnodup : (members.map Prod.fst).Nodup)
    (hours' : ("ours", .list (p.ours.map Lock.encode)) ∈ members)
    (htheirs' : ("theirs", .list (p.theirs.map Lock.encode)) ∈ members)
    (hcursor : ("next_cursor", Value.optional .text p.nextCursor) ∈ members) :
    decode (.object (Value.membersWithoutNulls members)) = .passed p := by
  rw [decode, record, optional_eq hnodup hours' (Lock.reads_list hours),
    optional_eq hnodup htheirs' (Lock.reads_list htheirs),
    optional_nullable_eq hnodup hcursor fun s _ => reads_text s]
  rfl

theorem reads_encode {p : VerifyPage} (hours : ∀ l ∈ p.ours, l.Readable)
    (htheirs : ∀ l ∈ p.theirs, l.Readable) : Reads decode p.encode p where
  ne_null := Value.noConfusion
  decode := decode_members hours htheirs (by simp) (by simp) (by simp) (by simp)

theorem fits_encode (p : VerifyPage) : p.encode.Fits d 4 := by
  have hcursor : (Value.optional .text p.nextCursor).Fits d 3 := .optional fun s _ => .text s
  apply Value.Fits.object
  simp [Lock.fits_list, hcursor]

end VerifyPage

namespace LockAnswer

theorem decode_members {a : LockAnswer} (h : a.lock.Readable) (hnodup : (members.map Prod.fst).Nodup)
    (hlock : ("lock", a.lock.encode) ∈ members) :
    decode (.object (Value.membersWithoutNulls members)) = .passed a := by
  rw [decode, record, required_eq hnodup hlock (Lock.reads_encode h)]
  rfl

theorem reads_encode {a : LockAnswer} (h : a.lock.Readable) : Reads decode a.encode a where
  ne_null := Value.noConfusion
  decode := decode_members h (by simp) (by simp)

theorem fits_encode (a : LockAnswer) : a.encode.Fits d 3 := by
  apply Value.Fits.object
  simp [a.lock.fits_encode]

end LockAnswer

end GitLfs
