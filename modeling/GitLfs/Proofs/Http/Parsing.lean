import GitLfs.Proofs.Http.Body
import GitLfs.Proofs.Message.Request

/-!
# Bodies are refused or put into form

A body of any bytes is refused as invalid, or it is read as something that a check has let through from
a value with short integers (`parseBody_cases`). What is let through is proper, and what is written for
it is read as the same again, so to read a request, write it and read it changes nothing more
(`requests_normalised`).
-/

namespace GitLfs.Http

open Decoder Json

variable {α : Type} {decode : Decoder α} {allowEmpty : Bool} {bytes : List UInt8}

/-- A body is refused as invalid, or it passes a check. Where a body may be left out, the check has to
let through an object without members. -/
theorem parseBody_cases (hempty : allowEmpty = true → ∃ a, decode (.object []) = .passed a) :
    (∃ message, parseBody decode allowEmpty bytes = .error (.refusal (.validation message))) ∨
      ∃ v a, v.Short ∧ decode v = .passed a ∧ parseBody decode allowEmpty bytes = .ok a := by
  unfold parseBody
  dsimp only
  split
  · exact .inl ⟨_, rfl⟩
  · split
    next hleft =>
      obtain ⟨a, ha⟩ := hempty hleft.1
      refine .inr ⟨.object [], a, .object fun m hm => absurd hm List.not_mem_nil, ha, ?_⟩
      rw [ha]
      rfl
    · split
      · exact .inl ⟨_, rfl⟩
      next v hread =>
        cases ha : decode v with
        | passed a => exact .inr ⟨v, a, short_of_readBytes hread, ha, rfl⟩
        | failed first others => exact .inl ⟨_, rfl⟩

/-- A body of these bytes is refused as invalid, or it is read as a proper request. Then what is written
for the request, with or without its nulls, is read as the same request. -/
def Normalises (decode : Decoder α) (allowEmpty : Bool) (Proper : α → Prop) (encode : α → Value)
    (bytes : List UInt8) : Prop :=
  (∃ message, parseBody decode allowEmpty bytes = .error (.refusal (.validation message))) ∨
    ∃ a, parseBody decode allowEmpty bytes = .ok a ∧ Proper a ∧
      parseBody decode allowEmpty (Text.Utf8.encode (write (encode a))) = .ok a ∧
      parseBody decode allowEmpty (Text.Utf8.encode (write (encode a).withoutNulls)) = .ok a

/-- This is so when the check lets through what is proper, and finds it again in what is written. -/
theorem normalises_of_recovers {Proper : α → Prop} {encode : α → Value} {n : Nat}
    (hyields : Yields decode Proper) (hrecovers : ∀ a, Proper a → Recovers decode (encode a) a)
    (hobject : ∀ a, ∃ members, encode a = .object members)
    (hfits : ∀ a, Proper a → (encode a).Fits .strict n) (hdepth : n ≤ 200)
    (hempty : allowEmpty = true → ∃ a, decode (.object []) = .passed a) (bytes : List UInt8) :
    Normalises decode allowEmpty Proper encode bytes := by
  refine (parseBody_cases hempty).imp id ?_
  rintro ⟨v, a, hshort, ha, hparse⟩
  have hproper : Proper a := hyields v hshort a ha
  have hrecovered := hrecovers a hproper
  have hfit := hfits a hproper
  obtain ⟨members, hmembers⟩ := hobject a
  refine ⟨a, hparse, hproper, ?_, ?_⟩
  · have hwritten := hrecovered.written
    rw [hmembers] at hwritten hfit ⊢
    exact parseBody_write hwritten hfit hdepth allowEmpty
  · have hdecode := hrecovered.decode
    have hfit' := hfit.withoutNulls
    rw [hmembers] at hdecode hfit' ⊢
    exact parseBody_write hdecode hfit' hdepth allowEmpty

/-- The bodies of requests for batches and about locks, of whatever bytes.

Each is refused as invalid, with no other failure, or read as a request. In a batch the operation is to
upload, to download or to verify, no identifier of an object is empty or has a blank at its ends, sizes
are natural numbers, and the basic transfer is among those that are offered, if any are. A path to be
locked is not empty and has no blank at its ends. What is written for a request that was read is read as
the same request, whether the parts that are missing are written as `null` or left out. -/
theorem requests_normalised (bytes : List UInt8) :
    Normalises BatchRequest.decode false BatchRequest.Proper BatchRequest.encode bytes ∧
    Normalises CreateRequest.decode false CreateRequest.Proper CreateRequest.encode bytes ∧
    Normalises VerifyRequest.decode true VerifyRequest.Proper VerifyRequest.encode bytes ∧
    Normalises ReleaseRequest.decode true (fun _ => True) ReleaseRequest.encode bytes := by
  refine ⟨?_, ?_, ?_, ?_⟩
  · exact normalises_of_recovers BatchRequest.yields_decode (fun _ h => BatchRequest.recovers_encode h)
      (fun _ => ⟨_, rfl⟩) (fun _ h => BatchRequest.fits_encode h) (by decide)
      (fun h => absurd h Bool.false_ne_true) bytes
  · exact normalises_of_recovers CreateRequest.yields_decode (fun _ h => CreateRequest.recovers_encode h)
      (fun _ => ⟨_, rfl⟩) (fun r _ => r.fits_encode) (by decide)
      (fun h => absurd h Bool.false_ne_true) bytes
  · exact normalises_of_recovers VerifyRequest.yields_decode (fun r _ => r.recovers_encode)
      (fun _ => ⟨_, rfl⟩) (fun _ h => VerifyRequest.fits_encode h) (by decide)
      (fun _ => ⟨_, VerifyRequest.decode_empty⟩) bytes
  · exact normalises_of_recovers (yields_any _) (fun r _ => r.recovers_encode)
      (fun _ => ⟨_, rfl⟩) (fun r _ => r.fits_encode) (by decide)
      (fun _ => ⟨_, ReleaseRequest.decode_empty⟩) bytes

end GitLfs.Http
