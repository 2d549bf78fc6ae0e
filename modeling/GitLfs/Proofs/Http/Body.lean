import GitLfs.Http.Body
import GitLfs.Http.Response
import GitLfs.Proofs.Json.Short
import GitLfs.Proofs.Message.Batch
import GitLfs.Proofs.Message.Lock
import Mathlib.Data.List.TakeWhile

/-!
# What is sent is read

The body of a response, taken as the bytes that go over the wire, is read as the message that it was
made for: it `Returns` the message. `bodies_read_back` puts this together for the five kinds of message
that a gateway sends. Whatever is read at all is checked, as it is not blank (`parseBody_of_read`).
-/

namespace GitLfs.Http

open Decoder Json

variable {α : Type} {decode : Decoder α} {v : Value} {a : α} {d : Dialect} {n : Nat}

namespace Response

/-- The bytes of the body. -/
def bytes (r : Response) : List UInt8 := Text.Utf8.encode r.text.toList

theorem bytes_json (status : Nat) (body : Value) (headers : List (String × String)) :
    (json status body headers).bytes = Text.Utf8.encode (write body) := by
  have htext : (json status body headers).text = render body := rfl
  unfold bytes
  rw [htext, render, String.toList_ofList]

/-- A message without long numbers can be carried. -/
theorem success_of_fits (status : Nat) (h : v.Fits d n) :
    success status v = .ok (carrying status v) := by
  unfold success
  rw [if_pos ((isWritable_iff _).2 h.withoutNulls.short)]

/-- What is said about locks has no integers. -/
theorem success_lockAnswer (status : Nat) (a : LockAnswer) :
    success status a.encode = .ok (carrying status a.encode) :=
  success_of_fits (d := .strict) status a.fits_encode

theorem success_lockPage (status : Nat) (p : LockPage) :
    success status p.encode = .ok (carrying status p.encode) :=
  success_of_fits (d := .strict) status p.fits_encode

theorem success_verifyPage (status : Nat) (p : VerifyPage) :
    success status p.encode = .ok (carrying status p.encode) :=
  success_of_fits (d := .strict) status p.fits_encode

/-- A conflict is told by the lock that is in the way. -/
theorem ofFailure_lockConflict (message : String) (l : Lock) :
    ofFailure (.refusal (.lockConflict message l)) =
      .ok (carrying 409 (ConflictBody.encode ⟨message, l⟩)) := rfl

end Response

/-- Nothing is cut off in front of a byte that is no blank. -/
theorem trimBody_cons {b : UInt8} (h : Text.isAsciiBlank (Char.ofNat b.toNat) = false)
    (bytes : List UInt8) : ∃ rest, trimBody (b :: bytes) = b :: rest := by
  unfold trimBody
  simp only [List.dropWhile_cons, h, Bool.false_eq_true, if_false, List.reverse_cons,
    List.dropWhile_append]
  split
  · exact ⟨[], rfl⟩
  · exact ⟨_, List.reverse_concat ..⟩

/-- A body that is read is not blank. -/
theorem trimBody_ne_nil {bytes : List UInt8} (h : Json.readBytes d bytes = some v) :
    trimBody bytes ≠ [] := by
  intro hnil
  unfold trimBody at hnil
  have hback := List.dropWhile_eq_nil_iff.1 (List.reverse_eq_nil_iff.1 hnil)
  have hblank : ∀ b ∈ bytes, Text.isAsciiBlank (Char.ofNat b.toNat) = true := by
    refine List.dropWhile_eq_nil_iff.1 (by_contra fun hne => ?_)
    have hhead := List.head_dropWhile_not _ hne
    rw [hback _ (List.mem_reverse.2 (List.head_mem hne))] at hhead
    cases hhead
  rw [Json.readBytes_of_blank hblank] at h
  cases h

/-- A body that is read is checked. -/
theorem parseBody_of_read {bytes : List UInt8} (h : Json.readBytes .strict bytes = some v) :
    parseBody decode false bytes =
      match decode v with
      | .passed a => .ok a
      | .failed first _ => .error (invalidBody (first.describe .json)) := by
  have hne := trimBody_ne_nil h
  cases hdecode : decode v <;> simp [parseBody, hne, h, hdecode]

/-- The bytes of an object start with its brace. -/
theorem encode_write_object (members : List (String × Value)) :
    ∃ bytes, Text.Utf8.encode (write (.object members)) = 0x7B :: bytes :=
  ⟨_, rfl⟩

/-- A written object is read as what a check finds in it, where no value may be left out and where one
may. -/
theorem parseBody_write {members : List (String × Value)}
    (hdecode : decode (.object members) = .passed a) (hfits : Value.Fits .strict n (.object members))
    (hdepth : n ≤ 200) (allowEmpty : Bool) :
    parseBody decode allowEmpty (Text.Utf8.encode (write (.object members))) = .ok a := by
  have hstrict : Dialect.strict.tooDeep n = false := by
    rw [Dialect.tooDeep_strict]
    exact decide_eq_false (by omega)
  have hread := readBytes_write hfits hstrict
  obtain ⟨bytes, hbytes⟩ := encode_write_object members
  obtain ⟨rest, htrim⟩ := trimBody_cons (b := 0x7B) (by decide) bytes
  rw [hbytes] at hread ⊢
  unfold parseBody
  simp only [htrim, hread, hdecode]
  simp [nullBytes]

/-! ## Responses -/

/-- A response is made, and whoever reads its body in a dialect finds what it was made for. -/
def Returns (d : Dialect) (decode : Decoder α) (sent : Except Failure Response) (a : α) : Prop :=
  ∃ response, sent = .ok response ∧
    (Json.readBytes d response.bytes).map decode = some (.passed a)

namespace Returns

/-- What is carried is found again. -/
theorem carrying (hreads : Reads decode v a) (hfits : v.Fits d n) (hdepth : d.tooDeep n = false)
    (status : Nat) : Returns d decode (.ok (.carrying status v)) a := by
  refine ⟨_, rfl, ?_⟩
  unfold Response.carrying
  rw [Response.bytes_json, readBytes_write hfits.withoutNulls hdepth, Option.map_some, hreads.decode]

theorem success (hreads : Reads decode v a) (hfits : v.Fits d n) (hdepth : d.tooDeep n = false)
    (status : Nat) : Returns d decode (Response.success status v) a := by
  rw [Response.success_of_fits status hfits]
  exact carrying hreads hfits hdepth status

theorem lockConflict {l : Lock} (h : l.Readable) (hdepth : d.tooDeep 3 = false) (message : String) :
    Returns d ConflictBody.decode (Response.ofFailure (.refusal (.lockConflict message l)))
      ⟨message, l⟩ := by
  have hreads := ConflictBody.reads_encode (b := ⟨message, l⟩) h
  rw [Response.ofFailure_lockConflict]
  exact carrying hreads (ConflictBody.fits_encode _) hdepth 409

end Returns

/-- The responses to batches, to requests for locks, to requests before a push, to requests that make or
release a lock, and about conflicts are read as the messages that they were made for, whatever texts,
dates and times these hold and whichever of their parts are there. Offsets have to be whole minutes, and
locks have an identifier and a path. Integers have to be of a length that the reader takes, which counts
their digits or, in newer readers, all that is written of them. -/
theorem bodies_read_back (status : Nat) :
    (∀ i, Dialect.strict.Takes i ↔ (Number.Decimal.digits i.natAbs).length ≤ 4300) ∧
    (∀ i, Dialect.stricter.Takes i ↔ (Number.Decimal.write i).length ≤ 4300) ∧
    ∀ d ∈ [Dialect.strict, Dialect.stricter],
      (∀ a : BatchAnswer, a.Readable d →
        Returns d BatchAnswer.decode (Response.success status a.encode) a) ∧
      (∀ p : LockPage, (∀ l ∈ p.locks, l.Readable) →
        Returns d LockPage.decode (Response.success status p.encode) p) ∧
      (∀ p : VerifyPage, (∀ l ∈ p.ours, l.Readable) → (∀ l ∈ p.theirs, l.Readable) →
        Returns d VerifyPage.decode (Response.success status p.encode) p) ∧
      (∀ a : LockAnswer, a.lock.Readable →
        Returns d LockAnswer.decode (Response.success status a.encode) a) ∧
      ∀ (message : String) (l : Lock), l.Readable →
        Returns d ConflictBody.decode (Response.ofFailure (.refusal (.lockConflict message l)))
          ⟨message, l⟩ := by
  refine ⟨fun i => Dialect.takes_iff rfl, fun i => Dialect.takes_stricter_iff, fun d hd => ?_⟩
  have hdepth : ∀ n ≤ 200, d.tooDeep n = false := by
    intro n hn
    have hlimit : d.maxDepth = some 200 := by
      obtain rfl | rfl : d = .strict ∨ d = .stricter := by simpa using hd
      · rfl
      · rfl
    unfold Dialect.tooDeep
    rw [hlimit]
    exact decide_eq_false (by omega)
  refine ⟨fun a h => ?_, fun p h => ?_, fun p hours htheirs => ?_, fun a h => ?_,
    fun message l h => ?_⟩
  · exact .success (BatchAnswer.reads_encode h) (BatchAnswer.fits_encode h) (hdepth 6 (by decide)) _
  · exact .success (LockPage.reads_encode h) p.fits_encode (hdepth 4 (by decide)) _
  · exact .success (VerifyPage.reads_encode hours htheirs) p.fits_encode (hdepth 4 (by decide)) _
  · exact .success (LockAnswer.reads_encode h) a.fits_encode (hdepth 3 (by decide)) _
  · exact .lockConflict h (hdepth 3 (by decide)) message

/-- The last second of a leap day, with a microsecond, half an hour behind UTC. -/
def leapTime : DateTime :=
  ⟨2024, 2, 29, 23, 59, 59, 1, some (-1800000000), by decide, by decide, by decide, by decide⟩

/-- A lock on a path with a quotation mark and with characters outside ASCII. -/
def quotedLock : Lock := ⟨"lock-1", "art/\"größe\".psd", leapTime, some ⟨"alice\n"⟩⟩

/-- One object to be moved, with an action that has no headers, and one that is missing. -/
def movedAndMissing : BatchAnswer :=
  ⟨[⟨"a1", 7, some true,
      some (OrderedMap.ofList [("download", ⟨"/objects/a1", some ∅, some (-1), some leapTime⟩)]),
      none⟩,
    ⟨"b2", 0, none, none, some ⟨404, "Object does not exist"⟩⟩]⟩

theorem readable_movedAndMissing : movedAndMissing.Readable .stricter := by
  intro o ho
  simp only [movedAndMissing, List.mem_cons, List.not_mem_nil, or_false] at ho
  obtain rfl | rfl := ho
  · refine ⟨by decide, ?_, by decide⟩
    rintro _ ⟨⟩ e he
    obtain rfl : e = ("download", ⟨"/objects/a1", some ∅, some (-1), some leapTime⟩) :=
      List.mem_singleton.1 he
    exact ⟨by decide, by decide⟩
  · exact ⟨by decide, by simp, by decide⟩

theorem bodies_read_back_leapTime :
    Returns .stricter BatchAnswer.decode (Response.success 200 movedAndMissing.encode)
        movedAndMissing ∧
      Returns .stricter LockPage.decode (Response.success 200 (LockPage.encode ⟨[quotedLock], none⟩))
        ⟨[quotedLock], none⟩ ∧
      Returns .stricter VerifyPage.decode
        (Response.success 200 (VerifyPage.encode ⟨[], [quotedLock], some "lock-2"⟩))
        ⟨[], [quotedLock], some "lock-2"⟩ ∧
      Returns .stricter LockAnswer.decode (Response.success 200 (LockAnswer.encode ⟨quotedLock⟩))
        ⟨quotedLock⟩ ∧
      Returns .stricter ConflictBody.decode
        (Response.ofFailure (.refusal (.lockConflict "already created lock" quotedLock)))
        ⟨"already created lock", quotedLock⟩ := by
  have hreadable : quotedLock.Readable := ⟨⟨by decide, by decide⟩, by decide⟩
  have hlocks : ∀ l ∈ [quotedLock], l.Readable := by simpa using hreadable
  obtain ⟨-, hlength, hbodies⟩ := bodies_read_back 200
  obtain ⟨hbatch, hpage, hverify, hanswer, hconflict⟩ := hbodies .stricter (by simp)
  exact ⟨hbatch _ readable_movedAndMissing, hpage _ hlocks, hverify _ (by simp) hlocks,
    hanswer _ hreadable, hconflict _ _ hreadable⟩

end GitLfs.Http
