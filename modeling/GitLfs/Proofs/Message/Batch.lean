import GitLfs.Message.Batch
import GitLfs.Proofs.Check.Decode
import GitLfs.Proofs.Json.Reader

/-!
# Answers to batches are read back

As for the messages about locks: `reads_encode` goes down from the answers of a batch to the actions of
one object, and every map, list and field comes back, whether it is there or not. An answer is
`Readable` in a dialect that takes all its integers, when its times are at offsets of whole minutes.
-/

namespace GitLfs

open Decoder Json Number

variable {members : List (String × Value)} {d : Dialect}

namespace Action

/-- The action is found again in what is written for it, by a reader of the dialect. -/
structure Readable (d : Dialect) (a : Action) : Prop where
  expiresIn : ∀ n ∈ a.expiresIn, d.Takes n
  expiresAt : ∀ t ∈ a.expiresAt, t.InMinutes

theorem reads_header (h : OrderedMap String String) :
    Reads (map text) (.object (h.entries.map fun e => (e.1, .text e.2))) h :=
  reads_map fun e _ => reads_text e.2

theorem decode_members {a : Action} (h : a.Readable d) (hnodup : (members.map Prod.fst).Nodup)
    (hhref : ("href", .text a.href) ∈ members)
    (hheader : ("header", Value.optional
      (fun h : OrderedMap String String => .object (h.entries.map fun e => (e.1, .text e.2)))
      a.header) ∈ members)
    (hin : ("expires_in", Value.optional Value.integer a.expiresIn) ∈ members)
    (hat : ("expires_at", Value.optional (fun t : DateTime => .text t.text) a.expiresAt) ∈ members) :
    decode (.object (Value.membersWithoutNulls members)) = .passed a := by
  rw [decode, record, required_eq hnodup hhref (reads_text a.href),
    optional_nullable_eq hnodup hheader fun h _ => reads_header h,
    optional_nullable_eq hnodup hin fun n _ => reads_integer n,
    optional_nullable_eq hnodup hat fun t ht => reads_dateTime (h.expiresAt t ht)]
  rfl

theorem reads_encode {a : Action} (h : a.Readable d) : Reads decode a.encode a where
  ne_null := Value.noConfusion
  decode := decode_members h (by simp) (by simp) (by simp) (by simp) (by simp)

theorem fits_encode {a : Action} (h : a.Readable d) : a.encode.Fits d 2 := by
  have hheader : (Value.optional (fun h : OrderedMap String String =>
      .object (h.entries.map fun e => (e.1, .text e.2))) a.header).Fits d 1 := by
    apply Value.Fits.optional
    intro m _
    apply Value.Fits.object
    intro e he
    obtain ⟨e', -, rfl⟩ := List.mem_map.1 he
    exact .text _
  have hin : (Value.optional Value.integer a.expiresIn).Fits d 1 :=
    .optional fun n hn => .integer (h.expiresIn n hn)
  have hat : (Value.optional (fun t : DateTime => .text t.text) a.expiresAt).Fits d 1 :=
    .optional fun t _ => .text t.text
  apply Value.Fits.object
  intro m hm
  simp only [List.mem_cons, List.not_mem_nil, or_false] at hm
  obtain rfl | rfl | rfl | rfl := hm
  · exact .text a.href
  · exact hheader
  · exact hin
  · exact hat

end Action

namespace ObjectFailure

theorem reads_encode (f : ObjectFailure) : Reads decode f.encode f where
  ne_null := Value.noConfusion
  decode := rfl

theorem fits_encode {f : ObjectFailure} (h : d.Takes f.code) (n : Nat) :
    f.encode.Fits d (n + 1) := by
  apply Value.Fits.object
  intro m hm
  simp only [List.mem_cons, List.not_mem_nil, or_false] at hm
  obtain rfl | rfl := hm
  · exact .integer h
  · exact .text f.message

end ObjectFailure

namespace ObjectAnswer

/-- The answer about an object is found again in what is written for it, by a reader of the dialect. -/
structure Readable (d : Dialect) (a : ObjectAnswer) : Prop where
  size : d.Takes a.size
  actions : ∀ m ∈ a.actions, ∀ e ∈ m.entries, e.2.Readable d
  error : ∀ f ∈ a.error, d.Takes f.code

theorem decode_members {a : ObjectAnswer} (h : a.Readable d) (hnodup : (members.map Prod.fst).Nodup)
    (hoid : ("oid", .text a.oid) ∈ members) (hsize : ("size", Value.integer a.size) ∈ members)
    (hauthenticated : ("authenticated", Value.optional .boolean a.authenticated) ∈ members)
    (hactions : ("actions", Value.optional (fun m : OrderedMap String Action =>
      .object (m.entries.map fun e => (e.1, e.2.encode))) a.actions) ∈ members)
    (herror : ("error", Value.optional ObjectFailure.encode a.error) ∈ members) :
    decode (.object (Value.membersWithoutNulls members)) = .passed a := by
  rw [decode, record, required_eq hnodup hoid (reads_text a.oid),
    required_eq hnodup hsize (reads_integer a.size),
    optional_nullable_eq hnodup hauthenticated fun b _ => reads_boolean b,
    optional_nullable_eq hnodup hactions fun m hm =>
      reads_map fun e he => Action.reads_encode (h.actions m hm e he),
    optional_nullable_eq hnodup herror fun f _ => f.reads_encode]
  rfl

theorem reads_encode {a : ObjectAnswer} (h : a.Readable d) : Reads decode a.encode a where
  ne_null := Value.noConfusion
  decode := decode_members h (by simp) (by simp) (by simp) (by simp) (by simp) (by simp)

theorem fits_encode {a : ObjectAnswer} (h : a.Readable d) : a.encode.Fits d 4 := by
  have hactions : (Value.optional (fun m : OrderedMap String Action =>
      .object (m.entries.map fun e => (e.1, e.2.encode))) a.actions).Fits d 3 := by
    apply Value.Fits.optional
    intro m hm
    apply Value.Fits.object
    intro e he
    obtain ⟨e', he', rfl⟩ := List.mem_map.1 he
    exact Action.fits_encode (h.actions m hm e' he')
  apply Value.Fits.object
  intro m hm
  simp only [List.mem_cons, List.not_mem_nil, or_false] at hm
  obtain rfl | rfl | rfl | rfl | rfl := hm
  · exact .text a.oid
  · exact .integer h.size
  · exact .optional fun b _ => .boolean b
  · exact hactions
  · exact .optional fun f hf => f.fits_encode (h.error f hf) 2

end ObjectAnswer

namespace BatchAnswer

/-- The answers of a batch are found again in what is written for them, by a reader of the dialect. -/
def Readable (d : Dialect) (a : BatchAnswer) : Prop := ∀ o ∈ a.objects, o.Readable d

theorem reads_transfer : Reads decodeTransfer (.text basicTransfer) () where
  ne_null := Value.noConfusion
  decode := rfl

theorem decode_members {a : BatchAnswer} (h : a.Readable d) (hnodup : (members.map Prod.fst).Nodup)
    (htransfer : ("transfer", .text basicTransfer) ∈ members)
    (hobjects : ("objects", .list (a.objects.map ObjectAnswer.encode)) ∈ members) :
    decode (.object (Value.membersWithoutNulls members)) = .passed a := by
  rw [decode, record, optional_eq hnodup htransfer reads_transfer,
    optional_eq hnodup hobjects (reads_list fun o ho => ObjectAnswer.reads_encode (h o ho))]
  rfl

theorem reads_encode {a : BatchAnswer} (h : a.Readable d) : Reads decode a.encode a where
  ne_null := Value.noConfusion
  decode := decode_members h (by simp) (by simp) (by simp)

theorem fits_encode {a : BatchAnswer} (h : a.Readable d) : a.encode.Fits d 6 := by
  have hobjects : (Value.list (a.objects.map ObjectAnswer.encode)).Fits d 5 := by
    apply Value.Fits.list
    intro v hv
    obtain ⟨o, ho, rfl⟩ := List.mem_map.1 hv
    exact ObjectAnswer.fits_encode (h o ho)
  apply Value.Fits.object
  simp [Value.Fits.text, hobjects]

end BatchAnswer

end GitLfs
