/-!
# Maps that remember the order of their keys

A key keeps the place at which it was first inserted until it is erased. `entries` is the view: each
operation has one equation for the keys and one for look-up.
-/

namespace GitLfs

/-- A finite map whose entries stand in the order in which their keys were inserted. -/
structure OrderedMap (κ ν : Type) where
  /-- The keys with their values, in order. -/
  entries : List (κ × ν)
  /-- No key stands twice. -/
  nodup : (entries.map Prod.fst).Nodup

namespace OrderedMap

variable {κ ν : Type} [DecidableEq κ]

omit [DecidableEq κ] in
theorem ext_entries {m n : OrderedMap κ ν} (h : m.entries = n.entries) : m = n := by
  cases m; cases n; simp_all

instance [DecidableEq ν] : DecidableEq (OrderedMap κ ν) := fun m n =>
  if h : m.entries = n.entries then isTrue (ext_entries h)
  else isFalse fun e => h (congrArg entries e)

instance [Repr κ] [Repr ν] : Repr (OrderedMap κ ν) := ⟨fun m p => reprPrec m.entries p⟩

/-- The map without entries. -/
def empty : OrderedMap κ ν := ⟨[], List.nodup_nil⟩

instance : EmptyCollection (OrderedMap κ ν) := ⟨empty⟩

instance : Inhabited (OrderedMap κ ν) := ⟨empty⟩

/-- The keys, in order. -/
def keys (m : OrderedMap κ ν) : List κ := m.entries.map Prod.fst

/-- The values, in the order of their keys. -/
def values (m : OrderedMap κ ν) : List ν := m.entries.map Prod.snd

/-- The value under a key. -/
def get? (m : OrderedMap κ ν) (k : κ) : Option ν :=
  (m.entries.find? (·.1 = k)).map Prod.snd

/-- The entries with the value under a key replaced. -/
def replace (k : κ) (v : ν) (es : List (κ × ν)) : List (κ × ν) :=
  es.map fun e => if e.1 = k then (k, v) else e

omit [DecidableEq κ] in
theorem mem_fst_iff {es : List (κ × ν)} {k : κ} : k ∈ es.map Prod.fst ↔ ∃ v, (k, v) ∈ es := by
  simp

theorem map_fst_replace (k : κ) (v : ν) (es : List (κ × ν)) :
    (replace k v es).map Prod.fst = es.map Prod.fst := by
  simp only [replace, List.map_map]
  apply List.map_congr_left
  intro e _
  simp only [Function.comp]
  split
  · next h => exact h.symm
  · rfl

/-- The map with the value under a key set; a new key stands last. -/
def insert (m : OrderedMap κ ν) (k : κ) (v : ν) : OrderedMap κ ν :=
  if h : k ∈ m.keys then
    ⟨replace k v m.entries, by rw [map_fst_replace]; exact m.nodup⟩
  else
    ⟨m.entries ++ [(k, v)], by
      simp only [List.map_append, List.map_cons, List.map_nil]
      refine List.nodup_append.2 ⟨m.nodup, by simp, ?_⟩
      intro a ha b hb
      simp only [List.mem_singleton] at hb
      rintro rfl
      exact h (hb ▸ ha)⟩

/-- The map without a key. -/
def erase (m : OrderedMap κ ν) (k : κ) : OrderedMap κ ν :=
  ⟨m.entries.filter (·.1 ≠ k), (m.nodup.sublist ((List.filter_sublist).map _))⟩

/-- The map that results from inserting pairs one after the other. -/
def ofList (pairs : List (κ × ν)) : OrderedMap κ ν :=
  pairs.foldl (fun m p => m.insert p.1 p.2) ∅

omit [DecidableEq κ] in
theorem entries_empty : (∅ : OrderedMap κ ν).entries = [] := rfl

theorem keys_insert (m : OrderedMap κ ν) (k : κ) (v : ν) :
    (m.insert k v).keys = if k ∈ m.keys then m.keys else m.keys ++ [k] := by
  unfold insert
  split
  · next h => simp [keys, map_fst_replace]
  · next h => simp [keys]

theorem keys_erase (m : OrderedMap κ ν) (k : κ) : (m.erase k).keys = m.keys.filter (· ≠ k) := by
  simp only [keys, erase, List.filter_map]
  rfl

theorem get?_eq_some_iff {m : OrderedMap κ ν} {k : κ} {v : ν} :
    m.get? k = some v ↔ (k, v) ∈ m.entries := by
  obtain ⟨es, hn⟩ := m
  simp only [get?]
  induction es with
  | nil => simp
  | cons e es ih =>
    obtain ⟨k', v'⟩ := e
    simp only [List.map_cons, List.nodup_cons] at hn
    by_cases h : k' = k
    · subst h
      simp only [List.find?_cons, decide_true, Option.map_some, Option.some.injEq,
        List.mem_cons, Prod.mk.injEq, true_and]
      constructor
      · rintro rfl; exact Or.inl rfl
      · rintro (h | h)
        · exact h.symm
        · exact absurd (mem_fst_iff.2 ⟨v, h⟩) hn.1
    · have : (k, v) ≠ (k', v') := fun e => h (Prod.mk.injEq .. ▸ e).1.symm
      simp only [List.find?_cons, h, decide_false, List.mem_cons, this, false_or]
      exact ih hn.2

theorem get?_eq_none_iff {m : OrderedMap κ ν} {k : κ} : m.get? k = none ↔ k ∉ m.keys := by
  constructor
  · intro h hk
    obtain ⟨v, hv⟩ := mem_fst_iff.1 hk
    rw [get?_eq_some_iff.2 hv] at h
    cases h
  · intro h
    cases hg : m.get? k with
    | none => rfl
    | some v => exact absurd (mem_fst_iff.2 ⟨v, get?_eq_some_iff.1 hg⟩) h

theorem mem_entries_insert {m : OrderedMap κ ν} {k k' : κ} {v v' : ν} :
    (k', v') ∈ (m.insert k v).entries ↔
      (k' = k ∧ v' = v) ∨ (k' ≠ k ∧ (k', v') ∈ m.entries) := by
  unfold insert
  split
  · next h =>
    obtain ⟨w, hw⟩ := mem_fst_iff.1 h
    simp only [replace, List.mem_map]
    constructor
    · rintro ⟨e, he, heq⟩
      split at heq
      · injection heq with h1 h2; exact Or.inl ⟨h1.symm, h2.symm⟩
      · next hne => subst heq; exact Or.inr ⟨hne, he⟩
    · rintro (⟨rfl, rfl⟩ | ⟨hne, he⟩)
      · exact ⟨(k', w), hw, by simp⟩
      · exact ⟨(k', v'), he, by simp [hne]⟩
  · next h =>
    simp only [List.mem_append, List.mem_singleton, Prod.mk.injEq]
    constructor
    · rintro (he | he)
      · exact Or.inr ⟨fun e => h (e ▸ mem_fst_iff.2 ⟨v', he⟩), he⟩
      · exact Or.inl he
    · rintro (he | he)
      · exact Or.inr he
      · exact Or.inl he.2

theorem get?_insert (m : OrderedMap κ ν) (k k' : κ) (v : ν) :
    (m.insert k v).get? k' = if k' = k then some v else m.get? k' := by
  apply Option.ext
  intro w
  rw [get?_eq_some_iff, mem_entries_insert]
  split
  · next h => simp [h, eq_comm]
  · next h => simp [h, get?_eq_some_iff]

theorem get?_erase (m : OrderedMap κ ν) (k k' : κ) :
    (m.erase k).get? k' = if k' = k then none else m.get? k' := by
  apply Option.ext
  intro w
  rw [get?_eq_some_iff]
  simp only [erase, List.mem_filter]
  split
  · next h => simp [h]
  · next h => simp [h, get?_eq_some_iff]

end OrderedMap

end GitLfs
