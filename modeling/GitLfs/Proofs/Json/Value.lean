import GitLfs.Json.Value
import Mathlib.Data.List.Nodup

/-!
# Objects without their nulls

What is left of an object when members that are `null` are left out, and which member is found under a
name that stands there once.
-/

namespace GitLfs.Json.Value

/-- The value is `null`. -/
def isNull : Value → Bool
  | .null => true
  | _ => false

theorem isNull_eq_false_iff {v : Value} : v.isNull = false ↔ v ≠ .null := by
  cases v <;> simp [isNull]

theorem listWithoutNulls_eq (items : List Value) :
    listWithoutNulls items = items.map withoutNulls := by
  induction items with
  | nil => rfl
  | cons v items ih => rw [listWithoutNulls, ih, List.map_cons]

theorem membersWithoutNulls_cons {v : Value} (h : v ≠ .null) (k : String)
    (members : List (String × Value)) :
    membersWithoutNulls ((k, v) :: members) = (k, v.withoutNulls) :: membersWithoutNulls members := by
  cases v with
  | null => exact absurd rfl h
  | _ => rfl

/-- The members that are left are those that are not `null`, in their order. -/
theorem membersWithoutNulls_eq (members : List (String × Value)) :
    membersWithoutNulls members =
      (members.filter fun m => !m.2.isNull).map fun m => (m.1, m.2.withoutNulls) := by
  induction members with
  | nil => rfl
  | cons m members ih =>
    obtain ⟨k, v⟩ := m
    by_cases h : v = .null
    · subst h
      exact ih
    · rw [membersWithoutNulls_cons h, ih, List.filter_cons_of_pos (by simp [isNull_eq_false_iff.2 h])]
      rfl

theorem names_membersWithoutNulls_sublist (members : List (String × Value)) :
    ((membersWithoutNulls members).map Prod.fst).Sublist (members.map Prod.fst) := by
  rw [membersWithoutNulls_eq, List.map_map]
  exact List.filter_sublist.map Prod.fst

theorem mem_membersWithoutNulls {members : List (String × Value)} {k : String} {v : Value}
    (h : (k, v) ∈ members) (hv : v ≠ .null) :
    (k, v.withoutNulls) ∈ membersWithoutNulls members := by
  rw [membersWithoutNulls_eq]
  refine List.mem_map.2 ⟨(k, v), List.mem_filter.2 ⟨h, ?_⟩, rfl⟩
  rw [isNull_eq_false_iff.2 hv]
  rfl

/-- Under a name that stands there once, its member is found. -/
theorem member?_of_mem {members : List (String × Value)} (hnodup : (members.map Prod.fst).Nodup)
    {k : String} {v : Value} (h : (k, v) ∈ members) : member? members k = some v := by
  unfold member?
  cases hfind : members.reverse.find? (·.1 = k) with
  | none =>
    have hnone := List.find?_eq_none.1 hfind (k, v) (List.mem_reverse.2 h)
    simp at hnone
  | some m =>
    obtain ⟨k', v'⟩ := m
    have hk : k' = k := by simpa using List.find?_some hfind
    have hm : (k', v') ∈ members := List.mem_reverse.1 (List.mem_of_find?_eq_some hfind)
    subst hk
    rw [List.inj_on_of_nodup_map hnodup hm h rfl]
    rfl

theorem member?_eq_none {members : List (String × Value)} {k : String}
    (h : k ∉ members.map Prod.fst) : member? members k = none := by
  unfold member?
  rw [List.find?_eq_none.2]
  · rfl
  · intro m hm e
    apply h
    rw [← of_decide_eq_true e]
    exact List.mem_map_of_mem (List.mem_reverse.1 hm)

/-- A member that is `null` is found no more. -/
theorem member?_null {members : List (String × Value)} (hnodup : (members.map Prod.fst).Nodup)
    {k : String} (h : (k, .null) ∈ members) : member? (membersWithoutNulls members) k = none := by
  apply member?_eq_none
  rw [membersWithoutNulls_eq, List.map_map]
  intro hk
  obtain ⟨⟨k', v⟩, hm, rfl⟩ := List.mem_map.1 hk
  obtain ⟨hmem, hv⟩ := List.mem_filter.1 hm
  have hnull : (k', v) = (k', Value.null) := List.inj_on_of_nodup_map hnodup hmem h rfl
  rw [(Prod.mk.inj hnull).2] at hv
  cases hv

end GitLfs.Json.Value
