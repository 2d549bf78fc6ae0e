import GitLfs.Message.Batch
import GitLfs.Message.Locking
import GitLfs.Proofs.Check.Decode
import GitLfs.Proofs.Check.Yields
import GitLfs.Proofs.Json.Reader

/-!
# Requests are what they should be

For each request and each of its parts: what passes its check is `Proper` (`yields_decode`), what is
proper is found again in what is written for it, with its nulls or without (`recovers_encode`), and is
written within a certain depth (`fits_encode`).
-/

namespace GitLfs

open Decoder Json Number

theorem recovers_trimmedText {s : String} (h : Trimmed s) : Recovers trimmedText (.text s) s := by
  have htrim : Text.trimmed Text.isBlank s = s := by
    rw [Text.trimmed, h.2.trim_eq, String.ofList_toList]
  have hread : nonEmpty (Text.trimmed Text.isBlank s) = .passed s := by
    rw [htrim]
    exact if_neg h.1
  exact recovers_of_passed Value.noConfusion rfl
    (Checked.andThen_eq_passed_iff.2 ⟨s, rfl, hread⟩)

theorem recovers_natural (n : Nat) : Recovers natural (Value.integer n) n := by
  have hread : (if (n : Int) < 0 then Checked.fail .negative else .passed (n : Int).toNat) =
      .passed n := if_neg (Int.not_lt.2 (Int.natCast_nonneg n))
  exact recovers_of_passed Value.noConfusion rfl
    (Checked.andThen_eq_passed_iff.2 ⟨n, rfl, hread⟩)

namespace Ref

theorem recovers_encode (r : Ref) : Recovers decode r.encode r := by
  refine recovers_object fun members hs => ?_
  rw [decode, record, hs.optional_nullable (by simp) (.head _) fun s _ => recovers_text s]
  rfl

theorem fits_encode (r : Ref) (n : Nat) : r.encode.Fits .strict (n + 1) := by
  have hname : (Value.optional .text r.name).Fits .strict n := .optional fun s _ => .text s
  apply Value.Fits.object
  simp [hname]

theorem fits_optional (o : Option Ref) (n : Nat) : (Value.optional encode o).Fits .strict (n + 1) :=
  .optional fun r _ => r.fits_encode n

end Ref

namespace BatchOperation

/-- The names of the operations. -/
def names : List String := ["upload", "download", "verify"]

theorem name_mem_names (op : BatchOperation) : op.name ∈ names := by
  cases op <;> decide

theorem recovers_name (op : BatchOperation) : Recovers decode (.text op.name) op := by
  refine recovers_of_passed Value.noConfusion rfl ?_
  cases op <;> rfl

end BatchOperation

/-! ## Requests for batches -/

theorem yields_decodeTransfers : Yields decodeTransfers (basicTransfer ∈ ·) := by
  intro v _ offered h
  obtain ⟨offered', -, h⟩ := Checked.andThen_eq_passed_iff.1 h
  split at h
  next hbasic =>
    cases h
    exact hbasic
  · cases h

theorem recovers_transfers {offered : List String} (h : basicTransfer ∈ offered) :
    Recovers decodeTransfers (.list (offered.map .text)) offered := by
  have hlist : Recovers (list text) (.list (offered.map .text)) offered :=
    recovers_list fun s _ => recovers_text s
  refine ⟨⟨Value.noConfusion, ?_⟩, ?_⟩
  · rw [decodeTransfers, hlist.decode]
    exact if_pos h
  · rw [decodeTransfers, hlist.written]
    exact if_pos h

namespace RequestedObject

/-- The identifier is not empty and has no blank at its ends, and the size is none that is too long to
be written. -/
structure Proper (o : RequestedObject) : Prop where
  oid : Trimmed o.oid
  size : Decimal.Short o.size

theorem yields_decode : Yields decode Proper := by
  refine Yields.record fun members hm o ho => ?_
  obtain ⟨_, size, h, hsize, rfl⟩ := Checked.seq_eq_passed_iff.1 ho
  obtain ⟨oid, hoid, rfl⟩ := Checked.map_eq_passed_iff.1 h
  exact ⟨yields_trimmedText.required hm hoid, yields_natural.optional hm (by decide) hsize⟩

theorem recovers_encode {o : RequestedObject} (h : o.Proper) : Recovers decode o.encode o := by
  refine recovers_object fun members hs => ?_
  rw [decode, record, hs.required (by simp) (by simp) (recovers_trimmedText h.oid),
    hs.optional (by simp) (by simp) (recovers_natural o.size) 0]
  rfl

theorem fits_encode {o : RequestedObject} (h : o.Proper) : o.encode.Fits .strict 1 := by
  apply Value.Fits.object
  intro m hm
  simp only [List.mem_cons, List.not_mem_nil, or_false] at hm
  obtain rfl | rfl := hm
  · exact .text o.oid
  · exact .integer ((Dialect.takes_iff rfl).2 h.size)

end RequestedObject

namespace BatchRequest

/-- The operation is one of the three, all objects are proper, and if transfers are offered, the basic
one is among them. -/
structure Proper (r : BatchRequest) : Prop where
  operation : r.operation.name ∈ BatchOperation.names
  objects : ∀ o ∈ r.objects, o.Proper
  transfers : ∀ offered ∈ r.transfers, basicTransfer ∈ offered

theorem yields_decode : Yields decode Proper := by
  refine Yields.record fun members hm r hr => ?_
  obtain ⟨_, transfers, hrest, htransfers, rfl⟩ := Checked.seq_eq_passed_iff.1 hr
  obtain ⟨_, ref, hfront, -, rfl⟩ := Checked.seq_eq_passed_iff.1 hrest
  obtain ⟨_, objects, hfirst, hobjects, rfl⟩ := Checked.seq_eq_passed_iff.1 hfront
  obtain ⟨operation, -, rfl⟩ := Checked.map_eq_passed_iff.1 hfirst
  exact ⟨operation.name_mem_names, RequestedObject.yields_decode.list.required hm hobjects,
    yields_decodeTransfers.nullable.optional hm (by simp) htransfers⟩

theorem recovers_encode {r : BatchRequest} (h : r.Proper) : Recovers decode r.encode r := by
  refine recovers_object fun members hs => ?_
  rw [decode, record, hs.required (by simp) (by simp) r.operation.recovers_name,
    hs.required (by simp) (by simp)
      (recovers_list fun o ho => RequestedObject.recovers_encode (h.objects o ho)),
    hs.optional_nullable (by simp) (.tail _ (.tail _ (.head _))) fun ref _ => ref.recovers_encode,
    hs.optional_nullable (by simp) (.tail _ (.tail _ (.tail _ (.head _)))) fun ts hts =>
      recovers_transfers (h.transfers ts hts)]
  rfl

theorem fits_encode {r : BatchRequest} (h : r.Proper) : r.encode.Fits .strict 3 := by
  have hobjects : (Value.list (r.objects.map RequestedObject.encode)).Fits .strict 2 := by
    apply Value.Fits.list
    intro v hv
    obtain ⟨o, ho, rfl⟩ := List.mem_map.1 hv
    exact RequestedObject.fits_encode (h.objects o ho)
  have htransfers : (Value.optional (fun ts : List String => .list (ts.map .text)) r.transfers).Fits
      .strict 2 := by
    refine .optional fun ts _ => .list fun v hv => ?_
    obtain ⟨t, -, rfl⟩ := List.mem_map.1 hv
    exact .text t
  apply Value.Fits.object
  simp [Value.Fits.text, hobjects, Ref.fits_optional r.ref 1, htransfers]

end BatchRequest

/-! ## Requests about locks -/

namespace CreateRequest

/-- The path is not empty and has no blank at its ends. -/
def Proper (r : CreateRequest) : Prop := Trimmed r.path

theorem yields_decode : Yields decode Proper := by
  refine Yields.record fun members hm r hr => ?_
  obtain ⟨_, ref, hfirst, -, rfl⟩ := Checked.seq_eq_passed_iff.1 hr
  obtain ⟨path, hpath, rfl⟩ := Checked.map_eq_passed_iff.1 hfirst
  exact yields_trimmedText.required hm hpath

theorem recovers_encode {r : CreateRequest} (h : r.Proper) : Recovers decode r.encode r := by
  refine recovers_object fun members hs => ?_
  rw [decode, record, hs.required (by simp) (.head _) (recovers_trimmedText h),
    hs.optional_nullable (by simp) (.tail _ (.head _)) fun ref _ => ref.recovers_encode]
  rfl

theorem fits_encode (r : CreateRequest) : r.encode.Fits .strict 2 := by
  apply Value.Fits.object
  simp [Value.Fits.text, Ref.fits_optional r.ref 0]

end CreateRequest

namespace VerifyRequest

/-- The limit is none that is too long to be written. -/
def Proper (r : VerifyRequest) : Prop := Decimal.Short r.limit

theorem yields_decode : Yields decode Proper := by
  refine Yields.record fun members hm r hr => ?_
  obtain ⟨_, limit, hrest, hlimit, rfl⟩ := Checked.seq_eq_passed_iff.1 hr
  obtain ⟨_, cursor, hfirst, -, rfl⟩ := Checked.seq_eq_passed_iff.1 hrest
  obtain ⟨ref, -, rfl⟩ := Checked.map_eq_passed_iff.1 hfirst
  exact yields_integer.optional hm (by decide) hlimit

theorem recovers_encode (r : VerifyRequest) : Recovers decode r.encode r := by
  refine recovers_object fun members hs => ?_
  rw [decode, record,
    hs.optional_nullable (by simp) (.head _) fun ref _ => ref.recovers_encode,
    hs.optional_nullable (by simp) (.tail _ (.head _)) fun s _ => recovers_text s,
    hs.optional (by simp) (.tail _ (.tail _ (.head _))) (recovers_integer r.limit) 0]
  rfl

theorem fits_encode {r : VerifyRequest} (h : r.Proper) : r.encode.Fits .strict 2 := by
  have hcursor : (Value.optional .text r.cursor).Fits .strict 1 := .optional fun s _ => .text s
  have hlimit : (Value.integer r.limit).Fits .strict 1 :=
    .integer ((Dialect.takes_iff rfl).2 h)
  apply Value.Fits.object
  simp [Ref.fits_optional r.ref 0, hcursor, hlimit]

/-- A request that leaves out everything is one. -/
theorem decode_empty : decode (.object []) = .passed ⟨none, none, 0⟩ := rfl

end VerifyRequest

namespace ReleaseRequest

theorem recovers_encode (r : ReleaseRequest) : Recovers decode r.encode r := by
  refine recovers_object fun members hs => ?_
  rw [decode, record, hs.optional (by simp) (.head _) (recovers_boolean r.force) false,
    hs.optional_nullable (by simp) (.tail _ (.head _)) fun ref _ => ref.recovers_encode]
  rfl

theorem fits_encode (r : ReleaseRequest) : r.encode.Fits .strict 2 := by
  apply Value.Fits.object
  simp [Value.Fits.boolean, Ref.fits_optional r.ref 0]

theorem decode_empty : decode (.object []) = .passed ⟨false, none⟩ := rfl

end ReleaseRequest

end GitLfs
