import GitLfs.Proofs.Number.Decimal
import GitLfs.Time.Format

/-!
# Written dates and times are read back

`read?_text_iff`: the written form of a date and time is read as that date and time, to the microsecond
and with its offset, known or not, just when the offset is a whole number of minutes (`InMinutes`): what
is left over is not written. Every number stands there with a fixed number of digits, so reading goes
part by part (`fixed_padded`); the fraction of a second and the offset are read last, since either may
be missing.
-/

namespace GitLfs.DateTime

/-! ## Numbers of a fixed width -/

theorem length_padded (width n : Nat) : (padded width n).length = width := by
  induction width generalizing n with
  | zero => rfl
  | succ width ih => rw [padded, List.length_append, ih, List.length_singleton]

theorem toNat_digit {k : Nat} (h : k < 10) :
    (Char.ofNat (48 + k)).toNat = 48 + k ∧ (Char.ofNat (48 + k)).isDigit = true := by
  have all : ∀ k : Fin 10, (Char.ofNat (48 + k.val)).toNat = 48 + k.val ∧
      (Char.ofNat (48 + k.val)).isDigit = true := by decide
  exact all ⟨k, h⟩

theorem isDigit_of_mem_padded {width n : Nat} {c : Char} (h : c ∈ padded width n) :
    c.isDigit = true := by
  induction width generalizing n with
  | zero => cases h
  | succ width ih =>
    rcases List.mem_append.1 h with h | h
    · exact ih h
    · rw [List.mem_singleton.1 h]
      exact (toNat_digit (Nat.mod_lt n (by decide))).2

theorem valueOf_padded (width n : Nat) :
    Number.Decimal.valueOf (padded width n) = n % 10 ^ width := by
  induction width generalizing n with
  | zero => rw [Nat.pow_zero, Nat.mod_one]; rfl
  | succ width ih =>
    have hlast := (toNat_digit (Nat.mod_lt n (show 0 < 10 by decide))).1
    rw [padded, Number.Decimal.valueOf_append_singleton, ih, hlast, Nat.add_sub_cancel_left,
      Nat.pow_succ, Nat.mul_comm (10 ^ width), Nat.mod_mul, Nat.mul_comm]
    omega

/-- A number of a fixed width is read, whatever follows it. -/
theorem fixed_padded (width : Nat) {n : Nat} (h : n < 10 ^ width) (rest : List Char) :
    fixed width (padded width n ++ rest) = some (n, rest) := by
  have hlength := length_padded width n
  have htake : (padded width n ++ rest).take width = padded width n := by
    rw [List.take_append_of_le_length (by omega), List.take_of_length_le (by omega)]
  have hdrop : (padded width n ++ rest).drop width = rest := by
    rw [List.drop_append_of_le_length (by omega), List.drop_of_length_le (by omega)]
    rfl
  have hall : (padded width n).all Char.isDigit = true :=
    List.all_eq_true.2 fun c hc => isDigit_of_mem_padded hc
  unfold fixed
  simp only [htake, hdrop, valueOf_padded, Nat.mod_eq_of_lt h]
  rw [if_pos ⟨hlength, hall⟩]

/-- A number of a fixed width is read at the end of a text. -/
theorem fixed_padded_nil (width : Nat) {n : Nat} (h : n < 10 ^ width) :
    fixed width (padded width n) = some (n, []) := by
  have hfixed := fixed_padded width h []
  rwa [List.append_nil] at hfixed

theorem after_cons (c : Char) (rest : List Char) : after c (c :: rest) = some rest := if_pos rfl

/-! ## The offset -/

/-- The offset, if one is known, is a whole number of minutes. -/
def InMinutes (t : DateTime) : Prop := ∀ o ∈ t.offset, microsPerMinute ∣ o

instance (t : DateTime) : Decidable t.InMinutes := inferInstanceAs (Decidable (∀ o ∈ t.offset, _))

/-- The sign in front of hours and minutes. -/
theorem readOffset_signed {c : Char} {sign : Int} (hsign : c = '+' ∧ sign = 1 ∨ c = '-' ∧ sign = -1)
    {n : Nat} (h : n ≤ 1440) :
    readOffset (c :: (padded 2 (n / 60) ++ ':' :: padded 2 (n % 60))) =
      some (some (sign * n * microsPerMinute)) := by
  have hhours := fixed_padded 2 (show n / 60 < 10 ^ 2 by omega) (':' :: padded 2 (n % 60))
  have hminutes := fixed_padded_nil 2 (show n % 60 < 10 ^ 2 by omega)
  have hle : n % 60 ≤ 59 := by omega
  obtain ⟨rfl, rfl⟩ | ⟨rfl, rfl⟩ := hsign
  · simp [readOffset, hhours, after_cons, hminutes, hle, microsPerMinute]
    omega
  · simp [readOffset, hhours, after_cons, hminutes, hle, microsPerMinute]
    omega

/-- An offset that is known and not rounded to zero has a sign in front of its hours and minutes. -/
theorem writeOffset_some {o : Int} (h : offsetSeconds o ≠ 0) :
    writeOffset (some o) = (if o < 0 then '-' else '+') ::
      (padded 2 (offsetSeconds o / 60 / 60) ++ ':' :: padded 2 (offsetSeconds o / 60 % 60)) := by
  unfold writeOffset
  dsimp only
  rw [if_neg h, Nat.div_div_eq_div_mul]
  rfl

/-- What an offset is read as when it has been written: the minutes that are left when it is rounded to
seconds and what is left over a whole number of minutes is dropped. -/
def asWritten (o : Int) : Int :=
  (if o < 0 then -1 else 1) * ((offsetSeconds o / 60 : Nat) : Int) * microsPerMinute

theorem readOffset_writeOffset {o : Option Int} (h : ∀ m ∈ o, -microsPerDay < m ∧ m < microsPerDay) :
    readOffset (writeOffset o) = some (o.map asWritten) := by
  cases o with
  | none => rfl
  | some m =>
    have hm := h m rfl
    unfold microsPerDay at hm
    rw [Option.map_some]
    unfold asWritten
    by_cases hzero : offsetSeconds m = 0
    · have hwritten : writeOffset (some m) = ['Z'] := if_pos hzero
      have hnone : ((0 / 60 : Nat) : Int) = 0 := rfl
      rw [hwritten, hzero, hnone, Int.mul_zero, Int.zero_mul]
      rfl
    · have hn : offsetSeconds m / 60 ≤ 1440 := by
        unfold offsetSeconds
        omega
      rw [writeOffset_some hzero]
      by_cases hneg : m < 0
      · rw [if_pos hneg, if_pos hneg, readOffset_signed (.inr ⟨rfl, rfl⟩) hn]
      · rw [if_neg hneg, if_neg hneg, readOffset_signed (.inl ⟨rfl, rfl⟩) hn]

/-- Writing leaves nothing of an offset out just when it is a whole number of minutes. -/
theorem asWritten_eq_iff (o : Int) : asWritten o = o ↔ microsPerMinute ∣ o := by
  unfold asWritten offsetSeconds microsPerMinute
  constructor
  · intro h
    exact ⟨_, h.symm.trans (Int.mul_comm _ _)⟩
  · rintro ⟨k, rfl⟩
    split <;> omega

/-- A written offset starts with no digit and with no decimal mark, if there is one. -/
theorem writeOffset_cases (o : Option Int) :
    writeOffset o = [] ∨
      ∃ c rest, writeOffset o = c :: rest ∧ c.isDigit = false ∧ ¬ (c = '.' ∨ c = ',') := by
  cases o with
  | none => exact .inl rfl
  | some m =>
    right
    by_cases hzero : offsetSeconds m = 0
    · exact ⟨'Z', [], if_pos hzero, by decide, by decide⟩
    · rw [writeOffset_some hzero]
      by_cases hneg : m < 0
      · rw [if_pos hneg]
        exact ⟨'-', _, rfl, by decide, by decide⟩
      · rw [if_neg hneg]
        exact ⟨'+', _, rfl, by decide, by decide⟩

/-! ## The second and its fraction -/

theorem microsOf_padded {n : Nat} (h : n ≤ 999999) : microsOf (padded 6 n) = n := by
  have hlength := length_padded 6 n
  unfold microsOf
  rw [List.take_append_of_le_length (by omega), List.take_of_length_le (by omega), valueOf_padded,
    Nat.mod_eq_of_lt (by omega)]

/-- The digits of a written fraction end where the offset starts. -/
theorem digits_of_fraction (microsecond : Nat) (o : Option Int) :
    (padded 6 microsecond ++ writeOffset o).takeWhile Char.isDigit = padded 6 microsecond ∧
      (padded 6 microsecond ++ writeOffset o).dropWhile Char.isDigit = writeOffset o := by
  have hall : ∀ c ∈ padded 6 microsecond, c.isDigit = true := fun c hc => isDigit_of_mem_padded hc
  rw [List.takeWhile_append_of_pos hall, List.dropWhile_append_of_pos hall]
  obtain h | ⟨c, rest, h, hdigit, -⟩ := writeOffset_cases o
  · rw [h]
    exact ⟨List.append_nil _, rfl⟩
  · rw [h]
    simp [hdigit]

theorem readSeconds_written {second microsecond : Nat} (hs : second ≤ 59)
    (hm : microsecond ≤ 999999) (o : Option Int) :
    readSeconds (':' :: (padded 2 second ++
        ((if microsecond = 0 then [] else '.' :: padded 6 microsecond) ++ writeOffset o))) =
      some (second, microsecond, writeOffset o) := by
  have hsecond := fixed_padded 2 (show second < 10 ^ 2 by omega)
  by_cases hzero : microsecond = 0
  · subst hzero
    rw [if_pos rfl, List.nil_append]
    unfold readSeconds
    simp only [hsecond, Option.bind_eq_bind, Option.bind_some]
    obtain h | ⟨c, rest, h, -, hmark⟩ := writeOffset_cases o
    · rw [h]
    · rw [h]
      simp only [if_neg hmark]
  · obtain ⟨htake, hdrop⟩ := digits_of_fraction microsecond o
    have hne : padded 6 microsecond ≠ [] := by
      intro e
      have := length_padded 6 microsecond
      rw [e] at this
      cases this
    rw [if_neg hzero, List.cons_append]
    unfold readSeconds
    simp only [hsecond, Option.bind_eq_bind, Option.bind_some, htake, hdrop, microsOf_padded hm]
    simp [hne]

/-! ## The whole -/

theorem month_and_day_le {year month day : Nat} (h : 1 ≤ day ∧ day ≤ daysInMonth year month) :
    month ≤ 12 ∧ day ≤ 31 := by
  unfold daysInMonth at h
  split at h
  · split at h <;> omega
  · split at h
    · omega
    · split at h <;> omega

/-- A written date and time is read part by part, with what is left of its offset; a day of offset, which
rounding may make, is refused. -/
theorem readCalendar_write (t : DateTime) :
    readCalendar (write t) = ofParts? t.year t.month t.day t.hour t.minute t.second t.microsecond
      (t.offset.map asWritten) := by
  have hyear := t.year_range
  have hdate := month_and_day_le t.day_range
  have htime := t.time_range
  have hsecond := readSeconds_written htime.2.2.1 htime.2.2.2 t.offset
  unfold write readCalendar
  simp only [List.append_assoc, List.cons_append]
  simp only [fixed_padded 4 (show t.year < 10 ^ 4 by omega),
    fixed_padded 2 (show t.month < 10 ^ 2 by omega),
    fixed_padded 2 (show t.day < 10 ^ 2 by omega),
    fixed_padded 2 (show t.hour < 10 ^ 2 by omega),
    fixed_padded 2 (show t.minute < 10 ^ 2 by omega), after_cons, hsecond,
    readOffset_writeOffset t.offset_range, Option.bind_eq_bind, Option.bind_some]
  exact if_pos (.inl trivial)

theorem offset_of_ofParts? {year month day hour minute second microsecond : Nat}
    {offset : Option Int} {t : DateTime}
    (h : ofParts? year month day hour minute second microsecond offset = some t) :
    t.offset = offset := by
  unfold ofParts? at h
  split at h
  · split at h
    · split at h
      · split at h
        · cases h
          rfl
        · cases h
      · cases h
    · cases h
  · cases h

theorem map_asWritten_eq_iff (t : DateTime) :
    t.offset.map asWritten = t.offset ↔ t.InMinutes := by
  unfold InMinutes
  cases t.offset with
  | none => exact ⟨fun _ _ ho => absurd ho (Option.not_mem_none _), fun _ => rfl⟩
  | some o =>
    rw [Option.map_some, Option.some.injEq, asWritten_eq_iff]
    exact ⟨fun h _ ho => Option.some.inj ho ▸ h, fun h => h o rfl⟩

/-- What starts with a digit has no sign. -/
theorem signed_padded (width n : Nat) (rest : List Char) :
    Number.Decimal.signed (padded (width + 1) n ++ rest) = (false, padded (width + 1) n ++ rest) := by
  have hfirst : ∀ {c : Char} {more : List Char},
      padded (width + 1) n ++ rest = c :: more → c.isDigit = true := by
    intro c more h
    cases hpadded : padded (width + 1) n with
    | nil => exact absurd (hpadded ▸ length_padded (width + 1) n) (by simp)
    | cons d ds =>
      rw [hpadded] at h
      cases h
      exact isDigit_of_mem_padded (hpadded ▸ List.mem_cons_self)
  obtain ⟨more, h, -⟩ | ⟨more, h, -⟩ | h :=
    Number.Decimal.signed_cases (padded (width + 1) n ++ rest)
  · exact absurd (hfirst h) (by decide)
  · exact absurd (hfirst h) (by decide)
  · exact h

/-- A written date and time is no count: a minus sign follows the year. -/
theorem readCount_write (t : DateTime) : readCount (write t) = none := by
  obtain ⟨rest, hwrite⟩ : ∃ rest, write t = padded 4 t.year ++ '-' :: rest := by
    unfold write
    simp only [List.append_assoc, List.cons_append]
    exact ⟨_, rfl⟩
  have hdigit : ∀ c ∈ padded 4 t.year, c.isDigit = true := fun c hc => isDigit_of_mem_padded hc
  have hrest : (padded 4 t.year ++ '-' :: rest).dropWhile Char.isDigit = '-' :: rest :=
    List.dropWhile_append_of_pos hdigit
  have hmark : ('-' = '.') = False := eq_false (by decide)
  unfold readCount
  simp only [hwrite, signed_padded, hrest, hmark, false_and, if_false, Option.bind_eq_bind]
  cases readPower? (rest.dropWhile Char.isDigit) with
  | none => rfl
  | some power => rfl

/-- What the written form of a date and time is read as. -/
theorem read?_text_eq (t : DateTime) :
    read? t.text = ofParts? t.year t.month t.day t.hour t.minute t.second t.microsecond
      (t.offset.map asWritten) := by
  unfold read? text
  rw [String.toList_ofList, readCalendar_write, readCount_write]
  cases ofParts? t.year t.month t.day t.hour t.minute t.second t.microsecond
      (t.offset.map asWritten) with
  | none => rfl
  | some _ => rfl

/-- The written form of a date and time is read as that date and time just when its offset is a whole
number of minutes. -/
theorem read?_text_iff (t : DateTime) : read? t.text = some t ↔ t.InMinutes := by
  rw [read?_text_eq, ← map_asWritten_eq_iff]
  constructor
  · intro h
    exact (offset_of_ofParts? h).symm
  · intro h
    rw [h]
    exact ofParts?_self t

/-- The written form of a date and time is read as that date and time. -/
theorem read?_text {t : DateTime} (h : t.InMinutes) : read? t.text = some t :=
  (read?_text_iff t).2 h

end GitLfs.DateTime
