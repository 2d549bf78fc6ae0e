import GitLfs.Json.Reader
import GitLfs.Json.Writer
import GitLfs.Proofs.Number.Decimal

/-!
# Written tokens are read back

Whatever follows a written text, one token is read from it (`next_writeText`). An integer is read to its
end only because what follows it in a written value starts with no digit, no point and no exponent
(`next_writeInteger`): `Closes`.

`Lexes` says that a text is a row of tokens, with as much fuel as it has characters or more. Which
integers a dialect takes depends on whether a sign counts as a digit: `Dialect.Takes`.
-/

namespace GitLfs.Json

open GitLfs.Number

variable {d : Dialect}

/-! ## Integers that a dialect takes -/

namespace Dialect

variable {n : Int}

/-- An integer is not too long for a dialect. -/
def Takes (d : Dialect) (n : Int) : Prop :=
  (if decide (n < 0) && d.signCounts then 1 else 0) + (Decimal.digits n.natAbs).length ≤
    Decimal.maxDigits

instance (d : Dialect) (n : Int) : Decidable (d.Takes n) := inferInstanceAs (Decidable (_ ≤ _))

theorem Takes.short (h : d.Takes n) : Decimal.Short n := Nat.le_trans (Nat.le_add_left _ _) h

/-- Where the sign does not count, the digits do. -/
theorem takes_iff (h : d.signCounts = false) : d.Takes n ↔ Decimal.Short n := by
  unfold Takes Decimal.Short
  rw [h, Bool.and_false, if_neg Bool.false_ne_true, Nat.zero_add]

/-- Where it does, an integer is as long as it is written. -/
theorem takes_stricter_iff : stricter.Takes n ↔ (Decimal.write n).length ≤ Decimal.maxDigits := by
  unfold Takes
  have hcounts : stricter.signCounts = true := rfl
  rw [hcounts, Bool.and_true, Decimal.write_eq]
  by_cases hneg : n < 0
  · rw [if_pos (decide_eq_true hneg), if_pos hneg, List.length_cons, Nat.add_comm]
  · rw [if_neg (by simpa using hneg), if_neg hneg, Nat.zero_add]

end Dialect

namespace Token

/-! ## Rows of tokens -/

/-- A text is a row of tokens. -/
def Lexes (d : Dialect) (s : List Char) (tokens : List Token) : Prop :=
  ∀ fuel, s.length ≤ fuel → listWithin d fuel s = some tokens

namespace Lexes

theorem nil : Lexes d [] [] := by
  intro fuel _
  cases fuel <;> rfl

/-- A token in front of a row of tokens: it starts with no blank, and what follows it is left. -/
theorem token {c : Char} {s rest : List Char} {t : Token} {tokens : List Token}
    (hblank : isBlank c = false) (hnext : next d (c :: s ++ rest) = some (t, rest))
    (h : Lexes d rest tokens) : Lexes d (c :: s ++ rest) (t :: tokens) := by
  intro fuel hfuel
  cases fuel with
  | zero => exact absurd hfuel (by simp)
  | succ fuel =>
    have hlength : rest.length ≤ fuel := by
      rw [List.length_append, List.length_cons] at hfuel
      omega
    rw [List.cons_append] at hnext ⊢
    rw [listWithin, if_neg (by simp [hblank]), hnext]
    simp only [h fuel hlength, Option.map_some]

theorem list? {s : List Char} {tokens : List Token} (h : Lexes d s tokens) :
    Token.list? d s = some tokens := h _ (Nat.le_refl _)

end Lexes

/-! ## Texts -/

/-- The piece that one character of a text is written as. -/
def pieceOf (c : Char) : Piece :=
  if c.toNat < 0x20 ∧ c ∉ ['\x08', '\x0c', '\n', '\r', '\t'] then .unit c.toNat else .char c

theorem hexValue?_hexDigit {v : Nat} (h : v < 16) :
    Text.Percent.hexValue? (Text.Quoted.hexDigit v) = some v := by
  have all : ∀ v : Fin 16, Text.Percent.hexValue? (Text.Quoted.hexDigit v) = some v.val := by decide
  exact all ⟨v, h⟩

theorem hex_four (n : Nat) :
    Text.Quoted.hex 4 n = [Text.Quoted.hexDigit (n / 16 / 16 / 16 % 16),
      Text.Quoted.hexDigit (n / 16 / 16 % 16), Text.Quoted.hexDigit (n / 16 % 16),
      Text.Quoted.hexDigit (n % 16)] := rfl

theorem hexValue?_hex {n : Nat} (h : n < 0x10000) :
    hexValue? (Text.Quoted.hexDigit (n / 16 / 16 / 16 % 16))
      (Text.Quoted.hexDigit (n / 16 / 16 % 16)) (Text.Quoted.hexDigit (n / 16 % 16))
      (Text.Quoted.hexDigit (n % 16)) = some n := by
  unfold hexValue?
  simp only [hexValue?_hexDigit (Nat.mod_lt _ (show 0 < 16 by decide)), Option.bind_eq_bind,
    Option.bind_some, Option.pure_def]
  exact congrArg some (by omega)

/-- A character is escaped by a letter, by its number, or not at all. -/
theorem escapeChar_cases (c : Char) :
    (∃ e, escapeChar c = ['\\', e] ∧ e ≠ 'u' ∧ shortEscape? e = some c ∧ pieceOf c = .char c) ∨
    (c.toNat < 0x20 ∧ escapeChar c = '\\' :: 'u' :: Text.Quoted.hex 4 c.toNat ∧
      pieceOf c = .unit c.toNat) ∨
    (c ≠ '"' ∧ c ≠ '\\' ∧ ¬ c.toNat < 0x20 ∧ escapeChar c = [c] ∧ pieceOf c = .char c) := by
  by_cases hshort : c ∈ ['"', '\\', '\x08', '\x0c', '\n', '\r', '\t']
  · left
    simp only [List.mem_cons, List.not_mem_nil, or_false] at hshort
    rcases hshort with rfl | rfl | rfl | rfl | rfl | rfl | rfl <;>
      exact ⟨_, rfl, by decide, rfl, rfl⟩
  · right
    simp only [List.mem_cons, List.not_mem_nil, or_false, not_or] at hshort
    obtain ⟨hquote, hslash, hb, hf, hn, hr, ht⟩ := hshort
    unfold escapeChar pieceOf
    rw [if_neg hquote, if_neg hslash, if_neg hb, if_neg hf, if_neg hn, if_neg hr, if_neg ht]
    by_cases hcontrol : c.toNat < 0x20
    · left
      refine ⟨hcontrol, if_pos hcontrol, if_pos ⟨hcontrol, ?_⟩⟩
      simp [hb, hf, hn, hr, ht]
    · right
      exact ⟨hquote, hslash, hcontrol, if_neg hcontrol, if_neg fun h => hcontrol h.1⟩

theorem textBody_short {e c : Char} (hu : e ≠ 'u') (h : shortEscape? e = some c)
    (more : List Char) :
    textBody ('\\' :: e :: more) = (textBody more).map (push (.char c)) := by
  rw [textBody.eq_def]
  dsimp only
  rw [if_neg (by decide), if_pos rfl]
  split
  · next heq => exact absurd (List.cons.inj heq).1 hu
  · next heq =>
    obtain ⟨rfl, rfl⟩ := List.cons.inj heq
    rw [h]
  · next heq => cases heq

theorem textBody_unit {n : Nat} (h : n < 0x10000) (more : List Char) :
    textBody ('\\' :: 'u' :: Text.Quoted.hex 4 n ++ more) =
      (textBody more).map (push (.unit n)) := by
  rw [hex_four, textBody.eq_def]
  simp only [List.cons_append, List.nil_append, hexValue?_hex h]
  rfl

theorem textBody_plain {c : Char} (hquote : c ≠ '"') (hslash : c ≠ '\\')
    (hcontrol : ¬ c.toNat < 0x20) (more : List Char) :
    textBody (c :: more) = (textBody more).map (push (.char c)) := by
  rw [textBody.eq_def]
  dsimp only
  rw [if_neg hquote, if_neg hslash, if_neg hcontrol]

/-- What a character is escaped to is read as its piece, whatever follows it. -/
theorem textBody_escapeChar (c : Char) (more : List Char) :
    textBody (escapeChar c ++ more) = (textBody more).map (push (pieceOf c)) := by
  obtain ⟨e, hescape, hu, he, hpiece⟩ | ⟨hc, hescape, hpiece⟩ | ⟨hq, hs, hc, hescape, hpiece⟩ :=
    escapeChar_cases c <;> rw [hescape, hpiece]
  · exact textBody_short hu he more
  · exact textBody_unit (by omega) more
  · exact textBody_plain hq hs hc more

/-- A text between its marks is read up to the closing one. -/
theorem textBody_written (s rest : List Char) :
    textBody (s.flatMap escapeChar ++ '"' :: rest) = some (s.map pieceOf, rest) := by
  induction s with
  | nil => rw [List.flatMap_nil, List.nil_append, textBody.eq_def]; rfl
  | cons c s ih =>
    rw [List.flatMap_cons, List.append_assoc, textBody_escapeChar, ih]
    rfl

/-- A control that is written by its number stands for itself. -/
theorem joined_unit {n : Nat} (h : n < 0xD800) (rest : List Piece) :
    joined d (.unit n :: rest) = (joined d rest).map (Char.ofNat n :: ·) := by
  have hhigh : isHighHalf n = false := by simp [isHighHalf]; omega
  have hlow : isLowHalf n = false := by simp [isLowHalf]; omega
  have hsingle : single? d n = some (Char.ofNat n) := by simp [single?, hhigh, hlow]
  rw [joined.eq_def]
  split
  · next heq => cases heq
  · next heq => cases heq
  · next heq =>
    cases heq
    rw [hhigh, Bool.false_and, if_neg (by decide), hsingle]
    rfl
  · next heq =>
    cases heq
    rw [hsingle]
    rfl

theorem joined_pieceOf (s : List Char) : joined d (s.map pieceOf) = some s := by
  induction s with
  | nil => rfl
  | cons c s ih =>
    rw [List.map_cons]
    obtain ⟨_, _, _, _, hpiece⟩ | ⟨hc, _, hpiece⟩ | ⟨_, _, _, _, hpiece⟩ := escapeChar_cases c
    · rw [hpiece, joined, ih]
      rfl
    · rw [hpiece, joined_unit (by omega), ih, Char.ofNat_toNat]
      rfl
    · rw [hpiece, joined, ih]
      rfl

/-- A written text is one token, whatever follows it. -/
theorem next_writeText (s : String) (rest : List Char) :
    next d (writeText s ++ rest) = some (.text s, rest) := by
  have htext : text? d (s.toList.flatMap escapeChar ++ '"' :: rest) = some (s, rest) := by
    unfold text?
    simp only [textBody_written, joined_pieceOf, String.ofList_toList, Option.bind_eq_bind,
      Option.bind_some, Option.pure_def]
  have hwritten : writeText s ++ rest = '"' :: (s.toList.flatMap escapeChar ++ '"' :: rest) := by
    simp [writeText]
  rw [hwritten, next, htext]
  rfl

/-! ## Numbers -/

/-- What may follow a written value: nothing, a comma or the end of a container. -/
def Closes (rest : List Char) : Prop := ∀ c ∈ rest.head?, c = ',' ∨ c = ']' ∨ c = '\x7d'

theorem closes_nil : Closes [] := by rintro _ ⟨⟩

theorem closes_cons {c : Char} (h : c = ',' ∨ c = ']' ∨ c = '\x7d') (rest : List Char) :
    Closes (c :: rest) := by
  rintro _ ⟨⟩
  exact h

theorem spanDigits_append {ds rest : List Char} (hds : ∀ c ∈ ds, c.isDigit = true)
    (hrest : Closes rest) : spanDigits (ds ++ rest) = (ds, rest) := by
  unfold spanDigits
  rw [List.takeWhile_append_of_pos hds, List.dropWhile_append_of_pos hds]
  cases rest with
  | nil => simp
  | cons c rest =>
    have hc : c.isDigit = false := by
      rcases hrest c rfl with rfl | rfl | rfl <;> decide
    simp [hc]

theorem fraction_of_closes {rest : List Char} (h : Closes rest) :
    fraction rest = some (none, rest) := by
  unfold fraction
  split
  · exact absurd (h '.' rfl) (by decide)
  · rfl

theorem exponent_of_closes {rest : List Char} (h : Closes rest) :
    exponent rest = some (none, rest) := by
  cases rest with
  | nil => rfl
  | cons c rest =>
    have hc : ¬ (c = 'e' ∨ c = 'E') := by
      rcases h c rfl with rfl | rfl | rfl <;> decide
    unfold exponent
    dsimp only
    rw [if_neg hc]

/-- The digits in front of a number are read as the number that they stand for. A zero stands alone;
any other number does not start with one. -/
theorem unsignedNumber_digits {n : Nat} {negative : Bool} {rest : List Char}
    (hshort : (if negative && d.signCounts then 1 else 0) + (Decimal.digits n).length ≤
      Decimal.maxDigits) (hrest : Closes rest) :
    unsignedNumber d negative (Decimal.digits n ++ rest) =
      some (.integer (if negative then -(n : Int) else n), rest) := by
  have hspan := spanDigits_append (fun c => Decimal.isDigit_of_mem_digits (n := n)) hrest
  have hvalue := Decimal.valueOf_digits n
  by_cases h0 : n = 0
  · subst h0
    rw [Decimal.digits_zero] at hshort hvalue ⊢
    unfold unsignedNumber
    generalize (if (negative && d.signCounts) = true then 1 else 0) = sign at hshort ⊢
    simp [fraction_of_closes hrest, exponent_of_closes hrest, hvalue]
    exact hshort
  · obtain ⟨c, ds, hds, -, -⟩ := Decimal.exists_digits_eq_cons n
    have hzero : ∀ more, c :: ds ++ rest = '0' :: more → False := by
      intro more e
      apply Decimal.head?_digits_ne_zero h0
      rw [hds, (List.cons.inj e).1]
      rfl
    rw [hds] at hspan hvalue hshort ⊢
    unfold unsignedNumber
    generalize (if (negative && d.signCounts) = true then 1 else 0) = sign at hshort ⊢
    simp only [hspan]
    simp [fraction_of_closes hrest, exponent_of_closes hrest, hvalue]
    exact hshort

/-- The word at the start of a text, its value and what follows it. -/
def word? (s : List Char) : Option (Value × List Char) :=
  words.findSome? fun (word, v) => (afterWord? word s).map fun rest => (v, rest)

theorem word?_digit {c : Char} (hc : c.isDigit = true) (s : List Char) :
    word? (c :: s) = none ∧ word? ('-' :: c :: s) = none := by
  have hne : ∀ x : Char, x.isDigit = false → x ≠ c := by
    rintro x hx rfl
    rw [hc] at hx
    cases hx
  constructor
  · simp [word?, words, afterWord?, hne 'n' (by decide), hne 't' (by decide), hne 'f' (by decide),
      hne 'N' (by decide), hne 'I' (by decide), hne '-' (by decide)]
  · simp [word?, words, afterWord?, hne 'I' (by decide)]

/-- What starts with a digit is a number without a sign. -/
theorem next_digit {c : Char} (hc : c.isDigit = true) (s : List Char) :
    next d (c :: s) =
      (unsignedNumber d false (c :: s)).map fun (n, rest) => (.literal (.number n), rest) := by
  have hword := (word?_digit hc s).1
  have hminus : ∀ more, c :: s = '-' :: more → False := by
    intro more e
    rw [(List.cons.inj e).1] at hc
    cases hc
  unfold word? at hword
  unfold next
  split
  case h_8 => simp only [hword]
  all_goals
    next heq =>
    rw [(List.cons.inj heq).1] at hc
    cases hc

/-- What starts with a minus sign and a digit is a number with that sign. -/
theorem next_minus {c : Char} (hc : c.isDigit = true) (s : List Char) :
    next d ('-' :: c :: s) =
      (unsignedNumber d true (c :: s)).map fun (n, rest) => (.literal (.number n), rest) := by
  have hword := (word?_digit hc s).2
  unfold word? at hword
  unfold next
  simp only [hword]
  rfl

/-- A written integer is one token, if nothing follows it that could belong to it. -/
theorem next_writeInteger {n : Int} {rest : List Char} (htakes : d.Takes n) (hrest : Closes rest) :
    next d (Decimal.write n ++ rest) = some (.literal (.number (.integer n)), rest) := by
  obtain ⟨c, ds, hds, hc, -⟩ := Decimal.exists_digits_eq_cons n.natAbs
  have hnumber := unsignedNumber_digits htakes hrest
  simp only [decide_eq_true_eq, Decimal.signed_natAbs] at hnumber
  rw [hds, List.cons_append] at hnumber
  rw [Decimal.write_eq, hds]
  split
  · next hneg =>
    rw [decide_eq_true hneg] at hnumber
    rw [List.cons_append, List.cons_append, next_minus hc, hnumber]
    rfl
  · next hpos =>
    rw [decide_eq_false hpos] at hnumber
    rw [List.cons_append, next_digit hc, hnumber]
    rfl

/-! ## One token more -/

namespace Lexes

variable {rest : List Char} {tokens : List Token}

theorem text (s : String) (h : Lexes d rest tokens) :
    Lexes d (writeText s ++ rest) (.text s :: tokens) :=
  token (by decide) (next_writeText s rest) h

theorem integer {n : Int} (htakes : d.Takes n) (hrest : Closes rest) (h : Lexes d rest tokens) :
    Lexes d (Decimal.write n ++ rest) (.literal (.number (.integer n)) :: tokens) := by
  have hnext := next_writeInteger htakes hrest
  obtain ⟨c, s, hwrite, hblank⟩ : ∃ c s, Decimal.write n = c :: s ∧ isBlank c = false := by
    obtain ⟨c, ds, hds, hc, -⟩ := Decimal.exists_digits_eq_cons n.natAbs
    rw [Decimal.write_eq]
    split
    · exact ⟨_, _, rfl, by decide⟩
    · refine ⟨c, ds, hds, ?_⟩
      apply decide_eq_false
      rintro (rfl | rfl | rfl | rfl) <;> cases hc
  rw [hwrite] at hnext ⊢
  exact token hblank hnext h

theorem null (h : Lexes d rest tokens) :
    Lexes d ("null".toList ++ rest) (.literal .null :: tokens) :=
  token (by decide) rfl h

theorem boolean (b : Bool) (h : Lexes d rest tokens) :
    Lexes d (write (.boolean b) ++ rest) (.literal (.boolean b) :: tokens) := by
  cases b
  · exact token (by decide) rfl h
  · exact token (by decide) rfl h

end Lexes

end Token

end GitLfs.Json
