import GitLfs.Check.Decode
import GitLfs.Proofs.Json.Value
import GitLfs.Proofs.Time.Format

/-!
# Checks read back what was written

`Reads d v a` says of a written value `v` that the check `d` finds `a` in it again when its nulls are
left out. Objects are put together from this member by member: one that has to be there, one that may
be missing, a list, and a map from names to values. A map comes back entry by entry since no name
stands twice in it. `Recovers d v a` says that `d` finds `a` in `v` with its nulls as well.
-/

namespace GitLfs

variable {α β κ ν : Type}

namespace OrderedMap

variable [DecidableEq κ]

theorem entries_insert_of_notMem {m : OrderedMap κ ν} {k : κ} (h : k ∉ m.keys) (v : ν) :
    (m.insert k v).entries = m.entries ++ [(k, v)] := by
  unfold insert
  rw [dif_neg h]

/-- New keys are inserted behind the old ones, in their order. -/
theorem entries_foldl_insert (pairs : List (κ × ν)) (m : OrderedMap κ ν)
    (h : (m.keys ++ pairs.map Prod.fst).Nodup) :
    (pairs.foldl (fun m p => m.insert p.1 p.2) m).entries = m.entries ++ pairs := by
  induction pairs generalizing m with
  | nil => exact (List.append_nil _).symm
  | cons p pairs ih =>
    rw [List.map_cons] at h
    have hp : p.1 ∉ m.keys := fun hk =>
      List.disjoint_of_nodup_append h hk List.mem_cons_self
    have hkeys : (m.insert p.1 p.2).keys = m.keys ++ [p.1] := by rw [keys_insert, if_neg hp]
    rw [List.foldl_cons, ih, entries_insert_of_notMem hp, List.append_assoc]
    · rfl
    · rwa [hkeys, List.append_assoc]

/-- A map is what its entries make. -/
theorem ofList_entries (m : OrderedMap κ ν) : ofList m.entries = m := by
  apply ext_entries
  have hnodup : ((∅ : OrderedMap κ ν).keys ++ m.entries.map Prod.fst).Nodup := m.nodup
  unfold ofList
  rw [entries_foldl_insert _ _ hnodup]
  rfl

end OrderedMap

namespace Checked

/-- When every written item passes as what it was written for, so does the list. -/
theorem items_map {check : β → Checked α} {write : α → β} {as : List α}
    (h : ∀ a ∈ as, check (write a) = .passed a) (index : Nat) :
    items check index (as.map write) = .passed as := by
  induction as generalizing index with
  | nil => rfl
  | cons a as ih =>
    have hrest := ih (fun a ha => h a (List.mem_cons_of_mem _ ha)) (index + 1)
    rw [List.map_cons, items, h a List.mem_cons_self, hrest]
    rfl

end Checked

namespace Decoder

open Json (Value)

/-- A value is written for something that a check finds in it again, its nulls left out. It is not
`null` itself, which would be left out with the member that it stands for. -/
structure Reads (d : Decoder α) (v : Value) (a : α) : Prop where
  ne_null : v ≠ .null
  decode : d v.withoutNulls = .passed a

/-! ## Single values -/

theorem reads_text (s : String) : Reads text (.text s) s := ⟨Value.noConfusion, rfl⟩

theorem reads_someText {s : String} (h : s ≠ "") : Reads someText (.text s) s where
  ne_null := Value.noConfusion
  decode := if_neg h

theorem reads_integer (n : Int) : Reads integer (Value.integer n) n := ⟨Value.noConfusion, rfl⟩

theorem reads_boolean (b : Bool) : Reads boolean (.boolean b) b := ⟨Value.noConfusion, rfl⟩

theorem reads_dateTime {t : DateTime} (h : t.InMinutes) : Reads dateTime (.text t.text) t where
  ne_null := Value.noConfusion
  decode := by
    have htext : (Value.text t.text).withoutNulls = .text t.text := rfl
    rw [htext, dateTime, DateTime.read?_text h]
    rfl

theorem reads_list {d : Decoder α} {write : α → Value} {as : List α}
    (h : ∀ a ∈ as, Reads d (write a) a) : Reads (list d) (.list (as.map write)) as where
  ne_null := Value.noConfusion
  decode := by
    rw [Value.withoutNulls, Value.listWithoutNulls_eq, List.map_map]
    exact Checked.items_map (fun a ha => (h a ha).decode) 0

/-- The entries of a map, none of which is `null`. -/
theorem entries_map {d : Decoder α} {write : α → Value} {es : List (String × α)}
    (h : ∀ e ∈ es, Reads d (write e.2) e.2) :
    entries d (Value.membersWithoutNulls (es.map fun e => (e.1, write e.2))) = .passed es := by
  induction es with
  | nil => rfl
  | cons e es ih =>
    have he := h e List.mem_cons_self
    rw [List.map_cons, Value.membersWithoutNulls_cons he.ne_null, entries, he.decode,
      ih fun e he => h e (List.mem_cons_of_mem _ he)]
    rfl

theorem reads_map {d : Decoder α} {write : α → Value} {m : OrderedMap String α}
    (h : ∀ e ∈ m.entries, Reads d (write e.2) e.2) :
    Reads (map d) (.object (m.entries.map fun e => (e.1, write e.2))) m where
  ne_null := Value.noConfusion
  decode := by
    rw [Value.withoutNulls, map, entries_map h]
    exact congrArg Checked.passed (OrderedMap.ofList_entries m)

/-! ## Members of an object -/

section members

variable {members : List (String × Value)} {k : String} {v : Value} {d : Decoder α} {a : α}

/-- A member that has to be there. -/
theorem required_of_mem (hnodup : (members.map Prod.fst).Nodup) (h : (k, v) ∈ members)
    (hv : d v = .passed a) : required members k d = .passed a := by
  unfold required
  rw [Value.member?_of_mem hnodup h]
  simp only [hv]
  rfl

/-- A member that may be left out, but is there. -/
theorem optional_of_mem (hnodup : (members.map Prod.fst).Nodup) (h : (k, v) ∈ members)
    (hv : d v = .passed a) (default : α) : optional members k default d = .passed a := by
  unfold optional
  rw [Value.member?_of_mem hnodup h]
  simp only [hv]
  rfl

theorem required_eq (hnodup : (members.map Prod.fst).Nodup) (h : (k, v) ∈ members)
    (hv : Reads d v a) : required (Value.membersWithoutNulls members) k d = .passed a :=
  required_of_mem (hnodup.sublist (Value.names_membersWithoutNulls_sublist members))
    (Value.mem_membersWithoutNulls h hv.ne_null) hv.decode

theorem optional_eq (hnodup : (members.map Prod.fst).Nodup) (h : (k, v) ∈ members)
    (hv : Reads d v a) (default : α) :
    optional (Value.membersWithoutNulls members) k default d = .passed a :=
  optional_of_mem (hnodup.sublist (Value.names_membersWithoutNulls_sublist members))
    (Value.mem_membersWithoutNulls h hv.ne_null) hv.decode default

/-- A value that is not `null` is not taken for nothing. -/
theorem nullable_of_ne_null (hne : v ≠ .null) (hv : d v = .passed a) :
    nullable d v = .passed (some a) := by
  unfold nullable
  split
  · exact absurd rfl hne
  · rw [hv]
    rfl

theorem Reads.nullable (h : Reads d v a) : Reads (nullable d) v (some a) where
  ne_null := h.ne_null
  decode := by
    have hne : v.withoutNulls ≠ .null := by
      cases v with
      | null => exact absurd rfl h.ne_null
      | _ => exact Value.noConfusion
    exact nullable_of_ne_null hne h.decode

/-- A member for something that may be missing, which is left out then. -/
theorem optional_nullable_eq {write : α → Value} {o : Option α}
    (hnodup : (members.map Prod.fst).Nodup) (h : (k, Value.optional write o) ∈ members)
    (hv : ∀ a ∈ o, Reads d (write a) a) :
    optional (Value.membersWithoutNulls members) k none (Decoder.nullable d) = .passed o := by
  cases o with
  | none =>
    unfold optional
    rw [Value.member?_null hnodup h]
  | some a => exact optional_eq hnodup h (hv a rfl).nullable none

end members

/-! ## With nulls and without them -/

/-- A value is written for something that a check finds in it again, with its nulls and without. -/
structure Recovers (d : Decoder α) (v : Value) (a : α) : Prop extends Reads d v a where
  written : d v = .passed a

/-- A value that has no nulls to lose is recovered when it passes. -/
theorem recovers_of_passed {d : Decoder α} {v : Value} {a : α} (hne : v ≠ .null)
    (hv : v.withoutNulls = v) (h : d v = .passed a) : Recovers d v a where
  ne_null := hne
  decode := by rwa [hv]
  written := h

theorem recovers_text (s : String) : Recovers text (.text s) s := ⟨reads_text s, rfl⟩

theorem recovers_integer (n : Int) : Recovers integer (Value.integer n) n := ⟨reads_integer n, rfl⟩

theorem recovers_boolean (b : Bool) : Recovers boolean (.boolean b) b := ⟨reads_boolean b, rfl⟩

theorem recovers_list {d : Decoder α} {write : α → Value} {as : List α}
    (h : ∀ a ∈ as, Recovers d (write a) a) : Recovers (list d) (.list (as.map write)) as where
  toReads := reads_list fun a ha => (h a ha).toReads
  written := Checked.items_map (fun a ha => (h a ha).written) 0

/-- The members of an object as they are, or without those that are `null`. -/
def Spelling (members members' : List (String × Value)) : Prop :=
  members' = members ∨ members' = Value.membersWithoutNulls members

/-- What is found in both spellings of an object is recovered. -/
theorem recovers_object {d : Decoder α} {members : List (String × Value)} {a : α}
    (h : ∀ members', Spelling members members' → d (.object members') = .passed a) :
    Recovers d (.object members) a where
  ne_null := Value.noConfusion
  decode := h _ (.inr rfl)
  written := h _ (.inl rfl)

namespace Spelling

variable {members members' : List (String × Value)} {k : String} {v : Value} {d : Decoder α} {a : α}

theorem required (hs : Spelling members members') (hnodup : (members.map Prod.fst).Nodup)
    (h : (k, v) ∈ members) (hv : Recovers d v a) : required members' k d = .passed a := by
  rcases hs with rfl | rfl
  · exact required_of_mem hnodup h hv.written
  · exact required_eq hnodup h hv.toReads

theorem optional (hs : Spelling members members') (hnodup : (members.map Prod.fst).Nodup)
    (h : (k, v) ∈ members) (hv : Recovers d v a) (default : α) :
    optional members' k default d = .passed a := by
  rcases hs with rfl | rfl
  · exact optional_of_mem hnodup h hv.written default
  · exact optional_eq hnodup h hv.toReads default

/-- What is missing is `null` in one spelling and left out in the other. -/
theorem optional_nullable (hs : Spelling members members') (hnodup : (members.map Prod.fst).Nodup)
    {write : α → Value} {o : Option α} (h : (k, Value.optional write o) ∈ members)
    (hv : ∀ a ∈ o, Recovers d (write a) a) :
    Decoder.optional members' k none (nullable d) = .passed o := by
  rcases hs with rfl | rfl
  · refine optional_of_mem hnodup h ?_ none
    cases o with
    | none => rfl
    | some a => exact nullable_of_ne_null (hv a rfl).ne_null (hv a rfl).written
  · exact optional_nullable_eq hnodup h fun a ha => (hv a ha).toReads

end Spelling

end Decoder

end GitLfs
