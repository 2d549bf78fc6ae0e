import GitLfs.Lock.Request
import GitLfs.Proofs.Number.Decimal

/-!
# What the limit of a query is read as

A limit is a numeral, or nothing at all. `LimitReading` says what becomes of any text that is given for
a limit; `readLimit_eq_iff` says that this is what the reader makes of it. A numeral is read as its
integer unless it has too many digits, and then reading it is a defect: it is no request that could be
refused.
-/

namespace GitLfs.LockQuery

open Number

variable {raw : String} {digits : List Char} {n : Int} {outcome : Except Failure Int}

/-- The refusal of a text that is no numeral. -/
def invalidLimit (raw : String) : Refusal :=
  .validation ("Invalid limit parameter in the GET request: " ++ raw)

/-- What becomes of a limit. -/
inductive LimitReading : Option String → Except Failure Int → Prop
  | missing : LimitReading none (.ok 0)
  | empty : LimitReading (some "") (.ok 0)
  | numeral {raw : String} {digits : List Char} {n : Int}
      (numeral : Decimal.Numeral raw.toList digits n) (short : digits.length ≤ Decimal.maxDigits) :
      LimitReading (some raw) (.ok n)
  | overlong {raw : String} {digits : List Char} {n : Int}
      (numeral : Decimal.Numeral raw.toList digits n) (long : Decimal.maxDigits < digits.length) :
      LimitReading (some raw) (.error (.defect (.oversizedInteger digits.length)))
  | invalid {raw : String} (ne : raw ≠ "")
      (other : ∀ digits n, ¬ Decimal.Numeral raw.toList digits n) :
      LimitReading (some raw) (.error (.refusal (invalidLimit raw)))

theorem isInteger_iff {s : List Char} : isInteger s = true ↔ ∃ digits n, Decimal.Numeral s digits n := by
  unfold isInteger
  simp only [Decimal.numeral_iff, Bool.and_eq_true, decide_eq_true_eq, List.all_eq_true]
  constructor
  · rintro ⟨hne, hdigit⟩
    exact ⟨_, _, rfl, hne, hdigit, rfl⟩
  · rintro ⟨digits, n, rfl, hne, hdigit, -⟩
    exact ⟨hne, hdigit⟩

/-- A numeral is read as its integer, unless it is too long. -/
theorem readLimit_numeral (h : Decimal.Numeral raw.toList digits n) :
    readLimit (some raw) =
      if digits.length ≤ Decimal.maxDigits then .ok n
      else .error (.defect (.oversizedInteger digits.length)) := by
  have hinteger : isInteger raw.toList = true := isInteger_iff.2 ⟨digits, n, h⟩
  obtain ⟨hdigits, -, -, hn⟩ := Decimal.numeral_iff.1 h
  unfold readLimit
  rw [Option.getD_some]
  split
  · cases hinteger
  · rw [if_pos hinteger, hn, hdigits]
    dsimp only
    by_cases hshort : (Decimal.signed raw.toList).2.length ≤ Decimal.maxDigits
    · rw [if_pos hshort, if_neg (Nat.not_lt.2 hshort)]
    · rw [if_neg hshort, if_pos (Nat.not_le.1 hshort)]

/-- Whatever is no numeral is refused by name. -/
theorem readLimit_invalid (hne : raw ≠ "") (h : ∀ digits n, ¬ Decimal.Numeral raw.toList digits n) :
    readLimit (some raw) = .error (.refusal (invalidLimit raw)) := by
  have hinteger : ¬ isInteger raw.toList = true := fun htrue => by
    obtain ⟨digits, n, hnumeral⟩ := isInteger_iff.1 htrue
    exact h digits n hnumeral
  unfold readLimit
  rw [Option.getD_some]
  split
  · contradiction
  · rw [if_neg hinteger]
    rfl

/-- All that can become of a limit. -/
theorem limitReading_readLimit (raw : Option String) : LimitReading raw (readLimit raw) := by
  cases raw with
  | none => exact .missing
  | some raw =>
    by_cases hempty : raw = ""
    · subst hempty
      exact .empty
    · by_cases hnumeral : ∃ digits n, Decimal.Numeral raw.toList digits n
      · obtain ⟨digits, n, h⟩ := hnumeral
        rw [readLimit_numeral h]
        split
        · next hshort => exact .numeral h hshort
        · next hlong => exact .overlong h (Nat.not_le.1 hlong)
      · have hother : ∀ digits n, ¬ Decimal.Numeral raw.toList digits n := fun digits n h =>
          hnumeral ⟨digits, n, h⟩
        rw [readLimit_invalid hempty hother]
        exact .invalid hempty hother

theorem readLimit_eq_iff {raw : Option String} : readLimit raw = outcome ↔ LimitReading raw outcome := by
  constructor
  · rintro rfl
    exact limitReading_readLimit raw
  · intro h
    cases h with
    | missing => rfl
    | empty => rfl
    | numeral numeral short => rw [readLimit_numeral numeral, if_pos short]
    | overlong numeral long => rw [readLimit_numeral numeral, if_neg (Nat.not_le.2 long)]
    | invalid ne other => exact readLimit_invalid ne other

/-! ## Written limits -/

/-- The failure of reading a limit that has too many digits. -/
def oversized (limit : Int) : Failure :=
  .defect (.oversizedInteger (Decimal.digits limit.natAbs).length)

theorem readLimit_text (n : Int) :
    readLimit (some (Decimal.text n)) = if Decimal.Short n then .ok n else .error (oversized n) := by
  have hlist : (Decimal.text n).toList = Decimal.write n := String.toList_ofList
  rw [readLimit_numeral (hlist ▸ Decimal.numeral_write n)]
  rfl

/-! ## Limits in queries -/

/-- The first value that a query gives for the limit. -/
def firstLimit? (query : String) : Option String :=
  ((Text.Form.pairs query).find? (·.1 = "limit")).map Prod.snd

/-- The limit that is asked for is what the first value is read as; nothing else in a query can fail. -/
theorem limit_ofQuery (query : String) :
    (ofQuery query).map LockQuery.limit = readLimit (firstLimit? query) := by
  have hfirst : readLimit (Text.Form.first? (Text.Form.pairs query) "limit") =
      readLimit (firstLimit? query) := by
    unfold Text.Form.first? firstLimit?
    cases (Text.Form.pairs query).find? (·.1 = "limit") with
    | none => rfl
    | some pair =>
      obtain ⟨name, value⟩ := pair
      dsimp only [Option.map_some]
      split
      · next hempty =>
        rw [hempty]
        rfl
      · rfl
  unfold ofQuery
  dsimp only
  rw [hfirst]
  cases readLimit (firstLimit? query) <;> rfl

/-- A query cannot be read just when its limit cannot. -/
theorem ofQuery_eq_error_iff {query : String} {e : Failure} :
    ofQuery query = .error e ↔ LimitReading (firstLimit? query) (.error e) := by
  rw [← readLimit_eq_iff, ← limit_ofQuery]
  cases ofQuery query <;> simp [Except.map]

/-- A query is read just when its limit is, and with this limit. -/
theorem exists_ofQuery_iff {query : String} {n : Int} :
    (∃ q, ofQuery query = .ok q ∧ q.limit = n) ↔ LimitReading (firstLimit? query) (.ok n) := by
  rw [← readLimit_eq_iff, ← limit_ofQuery]
  cases ofQuery query <;> simp [Except.map]

end GitLfs.LockQuery
