import GitLfs.Check.Decode
import GitLfs.Proofs.Json.Short
import GitLfs.Proofs.Text.Blank

/-!
# What checks let through

`Yields d P` says that what passes the check `d` has the property `P`, whatever value is checked, as
long as its integers are short, as those of every value that is read are. There is one rule for each way
in which checks are put together, so that what is known of the fields of a message comes from the checks
of its members.
-/

namespace GitLfs

open Number

variable {α β : Type}

namespace Checked

theorem map_eq_passed_iff {f : α → β} {x : Checked α} {b : β} :
    f <$> x = .passed b ↔ ∃ a, x = .passed a ∧ f a = b := by
  cases x with
  | passed a => exact ⟨fun h => ⟨a, rfl, by cases h; rfl⟩, by rintro ⟨_, ⟨⟩, rfl⟩; rfl⟩
  | failed first others => exact ⟨(nomatch ·), by rintro ⟨_, ⟨⟩, _⟩⟩

/-- Two checks pass together when each of them passes. -/
theorem seq_eq_passed_iff {f : Checked (α → β)} {x : Checked α} {b : β} :
    f <*> x = .passed b ↔ ∃ g a, f = .passed g ∧ x = .passed a ∧ g a = b := by
  cases f with
  | passed g =>
    cases x with
    | passed a => exact ⟨fun h => ⟨g, a, rfl, rfl, by cases h; rfl⟩, by rintro ⟨_, _, ⟨⟩, ⟨⟩, rfl⟩; rfl⟩
    | failed first others => exact ⟨(nomatch ·), by rintro ⟨_, _, _, ⟨⟩, _⟩⟩
  | failed first others =>
    cases x with
    | passed a => exact ⟨(nomatch ·), by rintro ⟨_, _, ⟨⟩, _, _⟩⟩
    | failed first' others' => exact ⟨(nomatch ·), by rintro ⟨_, _, ⟨⟩, _, _⟩⟩

theorem andThen_eq_passed_iff {x : Checked α} {next : α → Checked β} {b : β} :
    x.andThen next = .passed b ↔ ∃ a, x = .passed a ∧ next a = .passed b := by
  cases x with
  | passed a => exact ⟨fun h => ⟨a, rfl, h⟩, by rintro ⟨_, ⟨⟩, h⟩; exact h⟩
  | failed first others => exact ⟨(nomatch ·), by rintro ⟨_, ⟨⟩, _⟩⟩

theorem under_eq_passed_iff {step : Step} {x : Checked α} {a : α} :
    x.under step = .passed a ↔ x = .passed a := by
  cases x with
  | passed a' => exact Iff.rfl
  | failed first others => exact ⟨(nomatch ·), (nomatch ·)⟩

/-- What passes the check of the items of a list has passed as one of its items. -/
theorem forall_of_items {check : α → Checked β} {P : β → Prop} {as : List α} {bs : List β} {index : Nat}
    (h : ∀ a ∈ as, ∀ b, check a = .passed b → P b) (hitems : items check index as = .passed bs) :
    ∀ b ∈ bs, P b := by
  induction as generalizing bs index with
  | nil =>
    cases hitems
    exact fun b hb => absurd hb List.not_mem_nil
  | cons a as ih =>
    obtain ⟨hfirst, hmore⟩ := List.forall_mem_cons.1 h
    obtain ⟨_, more, hcheck, hrest, rfl⟩ := seq_eq_passed_iff.1 hitems
    obtain ⟨b, hb, rfl⟩ := map_eq_passed_iff.1 hcheck
    exact List.forall_mem_cons.2 ⟨hfirst b (under_eq_passed_iff.1 hb), ih hmore hrest⟩

end Checked

namespace Decoder

open Json (Value)

/-- What passes the check has the property. -/
def Yields (d : Decoder α) (P : α → Prop) : Prop :=
  ∀ v, v.Short → ∀ a, d v = .passed a → P a

/-- The text has at least one character, and no blank at its ends. -/
def Trimmed (s : String) : Prop := s ≠ "" ∧ Text.Bare Text.isBlank s.toList

/-! ## Single values -/

theorem yields_any (d : Decoder α) : Yields d fun _ => True := fun _ _ _ _ => trivial

theorem yields_trimmedText : Yields trimmedText Trimmed := by
  intro v _ s h
  obtain ⟨t, -, ht⟩ := Checked.andThen_eq_passed_iff.1 h
  unfold nonEmpty at ht
  split at ht
  · cases ht
  next hne =>
    cases ht
    refine ⟨hne, ?_⟩
    rw [Text.trimmed, String.toList_ofList]
    exact Text.bare_trim Text.isBlank t.toList

theorem short_of_lt_wordLimit {m : Nat} (h : m < wordLimit) (negative : Bool) :
    Decimal.Short (if negative then -(m : Int) else m) := by
  have hlimit : wordLimit ≤ 10 ^ 19 := by decide
  have hpow : 10 ^ 19 ≤ 10 ^ Decimal.maxDigits := Nat.pow_le_pow_right (by decide) (by decide)
  have hlt : m < 10 ^ Decimal.maxDigits := Nat.lt_of_lt_of_le h (Nat.le_trans hlimit hpow)
  rw [Decimal.short_iff]
  cases negative
  · simpa using hlt
  · simpa using hlt

theorem short_of_integerOfDecimal {negative : Bool} {mantissa : Nat} {exponent n : Int}
    (h : integerOfDecimal negative mantissa exponent = .passed n) : Decimal.Short n := by
  unfold integerOfDecimal at h
  split at h
  · cases h
  · split at h
    · cases h
    · split at h
      · cases h
      next hword =>
        cases h
        exact short_of_lt_wordLimit (Nat.lt_of_not_le hword) negative

theorem yields_integer : Yields integer Decimal.Short := by
  intro v hv n h
  unfold integer at h
  split at h
  · next b =>
    cases h
    cases b <;> decide
  · cases h
    cases hv with
    | number hshort => exact hshort n rfl
  · exact short_of_integerOfDecimal h
  · cases h
  · split at h
    · next hread =>
      cases h
      exact Decimal.short_of_readFree hread
    · cases h
    · cases h
  · cases h

theorem yields_natural : Yields natural fun n => Decimal.Short n := by
  intro v hv n h
  obtain ⟨i, hi, hn⟩ := Checked.andThen_eq_passed_iff.1 h
  have hshort := yields_integer v hv i hi
  split at hn
  · cases hn
  next hneg =>
    cases hn
    rwa [Int.toNat_of_nonneg (Int.not_lt.1 hneg)]

/-! ## Lists, objects and members -/

section rules

variable {d : Decoder α} {P : α → Prop} {members : List (String × Value)} {k : String} {a : α}

theorem Yields.list (h : Yields d P) : Yields (list d) fun as => ∀ a ∈ as, P a := by
  intro v hv as has
  cases v with
  | list items =>
    cases hv with
    | list hitems => exact Checked.forall_of_items (fun w hw => h w (hitems w hw)) has
  | _ => cases has

theorem Yields.nullable (h : Yields d P) : Yields (nullable d) fun o => ∀ a ∈ o, P a := by
  intro v hv o ho
  unfold Decoder.nullable at ho
  split at ho
  · cases ho
    exact fun a ha => nomatch ha
  · obtain ⟨a, ha, rfl⟩ := Checked.map_eq_passed_iff.1 ho
    rintro _ ⟨⟩
    exact h v hv a ha

theorem Yields.record {model : String} {build : List (String × Value) → Checked α}
    (h : ∀ members, (∀ m ∈ members, m.2.Short) → ∀ a, build members = .passed a → P a) :
    Yields (record model build) P := by
  intro v hv a ha
  cases v with
  | object members =>
    cases hv with
    | object hmembers => exact h members hmembers a ha
  | _ => cases ha

theorem short_of_member? (hm : ∀ m ∈ members, m.2.Short) {v : Value}
    (h : Value.member? members k = some v) : v.Short := by
  obtain ⟨m, hfind, rfl⟩ := Option.map_eq_some_iff.1 h
  exact hm m (List.mem_reverse.1 (List.mem_of_find?_eq_some hfind))

theorem Yields.required (h : Yields d P) (hm : ∀ m ∈ members, m.2.Short)
    (ha : required members k d = .passed a) : P a := by
  unfold Decoder.required at ha
  split at ha
  · cases ha
  next hv => exact h _ (short_of_member? hm hv) a (Checked.under_eq_passed_iff.1 ha)

theorem Yields.optional (h : Yields d P) (hm : ∀ m ∈ members, m.2.Short) {default : α}
    (hdefault : P default) (ha : optional members k default d = .passed a) : P a := by
  unfold Decoder.optional at ha
  split at ha
  · cases ha
    exact hdefault
  next hv => exact h _ (short_of_member? hm hv) a (Checked.under_eq_passed_iff.1 ha)

end rules

end Decoder

end GitLfs
