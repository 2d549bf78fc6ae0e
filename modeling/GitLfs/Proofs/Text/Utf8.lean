import GitLfs.Text.Utf8

/-!
# The bytes of a text are read back

The bytes of a character are scanned as that character, whatever follows them (`scan_encodeChar`), so
both ways of decoding give back a text from its bytes. The proof goes by the number of bytes; for each
the first byte announces a range in which the second one lies. These ranges keep out all other bytes, so
strict decoding reads nothing but the bytes of texts (`decode?_eq_some_iff`).
-/

namespace GitLfs.Text.Utf8

theorem toNat_byte {n : Nat} (h : n < 256) : (UInt8.ofNat n).toNat = n :=
  UInt8.toNat_ofNat_of_lt' h

theorem continuation_byte {n : Nat} (h : n < 64) :
    continuation (UInt8.ofNat (0x80 + n)) = some n := by
  unfold continuation
  rw [toNat_byte (by omega), if_pos (by omega)]
  exact congrArg some (by omega)

/-- A code point that is a character is no half of a surrogate pair. -/
theorem not_surrogate (c : Char) : ¬ (0xD800 ≤ c.toNat ∧ c.toNat < 0xE000) := by
  rcases c.valid with h | h
  · have : c.toNat < 0xD800 := h
    omega
  · have : 0xDFFF < c.toNat := h.1
    omega

/-- Any other number below the last code point is a character. -/
theorem toNat_ofNat {n : Nat} (h : n < 0xD800 ∨ 0xDFFF < n ∧ n < 0x110000) :
    (Char.ofNat n).toNat = n := by
  have hvalid : n.isValidChar := h
  rw [Char.ofNat, dif_pos hvalid]
  rfl

theorem toNat_lt (c : Char) : c.toNat < 0x110000 := by
  rcases c.valid with h | h
  · have : c.toNat < 0xD800 := h
    omega
  · exact h.2

/-! ## What first bytes announce -/

theorem lead_single {n : Nat} (h : n < 0x80) : lead (UInt8.ofNat n) = .single := by
  unfold lead
  rw [toNat_byte (by omega)]
  exact if_pos h

theorem lead_two {n : Nat} (h : 0x80 ≤ n ∧ n < 0x800) :
    lead (UInt8.ofNat (0xC0 + n / 64)) = .opening (n / 64) 1 0x80 0xBF := by
  unfold lead
  rw [toNat_byte (by omega)]
  dsimp only
  rw [if_neg (by omega), if_neg (by omega), if_pos (by omega), Nat.add_sub_cancel_left]

/-- The first of three bytes announces a range that keeps out overlong forms and surrogates. -/
theorem lead_three {n : Nat} (h : 0x800 ≤ n ∧ n < 0x10000) (hs : ¬ (0xD800 ≤ n ∧ n < 0xE000)) :
    ∃ low high, lead (UInt8.ofNat (0xE0 + n / 4096)) = .opening (n / 4096) 2 low high ∧
      low ≤ 0x80 + n / 64 % 64 ∧ 0x80 + n / 64 % 64 ≤ high := by
  unfold lead
  rw [toNat_byte (by omega)]
  dsimp only
  rw [if_neg (by omega), if_neg (by omega), if_neg (by omega)]
  by_cases h0 : n / 4096 = 0
  · rw [h0]
    exact ⟨0xA0, 0xBF, rfl, by omega, by omega⟩
  · by_cases hd : n / 4096 = 0xD
    · rw [hd]
      exact ⟨0x80, 0x9F, rfl, by omega, by omega⟩
    · refine ⟨0x80, 0xBF, ?_, by omega, by omega⟩
      rw [if_neg (by simp; omega), if_neg (by simp; omega), if_pos (by omega),
        Nat.add_sub_cancel_left]

/-- The first of four bytes announces a range that keeps out overlong forms and what lies beyond the
last code point. -/
theorem lead_four {n : Nat} (h : 0x10000 ≤ n ∧ n < 0x110000) :
    ∃ low high, lead (UInt8.ofNat (0xF0 + n / 262144)) = .opening (n / 262144) 3 low high ∧
      low ≤ 0x80 + n / 4096 % 64 ∧ 0x80 + n / 4096 % 64 ≤ high := by
  unfold lead
  rw [toNat_byte (by omega)]
  dsimp only
  rw [if_neg (by omega), if_neg (by omega), if_neg (by omega), if_neg (by simp; omega),
    if_neg (by simp; omega), if_neg (by omega)]
  by_cases h0 : n / 262144 = 0
  · rw [h0]
    exact ⟨0x90, 0xBF, rfl, by omega, by omega⟩
  · by_cases h4 : n / 262144 = 4
    · rw [h4]
      exact ⟨0x80, 0x8F, rfl, by omega, by omega⟩
    · refine ⟨0x80, 0xBF, ?_, by omega, by omega⟩
      rw [if_neg (by simp; omega), if_pos (by omega), Nat.add_sub_cancel_left]

/-! ## One character after the other -/

section scan

variable {b b1 b2 b3 : UInt8} {bits low high k2 k3 : Nat}

theorem scan_single (h : lead b = .single) (rest : List UInt8) :
    scan (b :: rest) = some (Char.ofNat b.toNat) :: scan rest := by
  rw [scan, h]

/-- Bytes of ASCII are characters one by one. -/
theorem scan_of_ascii {bytes : List UInt8} (h : ∀ b ∈ bytes, b.toNat < 0x80) :
    scan bytes = bytes.map fun b => some (Char.ofNat b.toNat) := by
  induction bytes with
  | nil => rfl
  | cons b bytes ih =>
    have hlead : lead b = .single := if_pos (h b List.mem_cons_self)
    rw [scan_single hlead, ih fun b hb => h b (List.mem_cons_of_mem _ hb), List.map_cons]

theorem scan_two (h : lead b = .opening bits 1 low high) (h1 : low ≤ b1.toNat ∧ b1.toNat ≤ high)
    (rest : List UInt8) :
    scan (b :: b1 :: rest) = some (Char.ofNat (bits * 64 + (b1.toNat - 0x80))) :: scan rest := by
  rw [scan, h]
  dsimp only
  rw [if_neg (by omega), if_pos rfl]

theorem scan_three (h : lead b = .opening bits 2 low high) (h1 : low ≤ b1.toNat ∧ b1.toNat ≤ high)
    (h2 : continuation b2 = some k2) (rest : List UInt8) :
    scan (b :: b1 :: b2 :: rest) =
      some (Char.ofNat ((bits * 64 + (b1.toNat - 0x80)) * 64 + k2)) :: scan rest := by
  rw [scan, h]
  dsimp only
  rw [if_neg (by omega), if_neg (by decide), h2]
  dsimp only
  rw [if_pos rfl]

theorem scan_four (h : lead b = .opening bits 3 low high) (h1 : low ≤ b1.toNat ∧ b1.toNat ≤ high)
    (h2 : continuation b2 = some k2) (h3 : continuation b3 = some k3) (rest : List UInt8) :
    scan (b :: b1 :: b2 :: b3 :: rest) =
      some (Char.ofNat (((bits * 64 + (b1.toNat - 0x80)) * 64 + k2) * 64 + k3)) :: scan rest := by
  rw [scan, h]
  dsimp only
  rw [if_neg (by omega), if_neg (by decide), h2]
  dsimp only
  rw [if_neg (by decide), h3]

end scan

/-- The bytes of a character are scanned as that character, whatever follows them. -/
theorem scan_encodeChar (c : Char) (rest : List UInt8) :
    scan (encodeChar c ++ rest) = some c :: scan rest := by
  have hc : Char.ofNat c.toNat = c := Char.ofNat_toNat c
  have hlt := toNat_lt c
  unfold encodeChar
  dsimp only
  split
  · next h1 =>
    refine (scan_single (lead_single h1) rest).trans ?_
    rw [toNat_byte (by omega), hc]
  · next h1 =>
    split
    · next h2 =>
      have hb1 := toNat_byte (show 0x80 + c.toNat % 64 < 256 by omega)
      have hvalue : c.toNat / 64 * 64 + (0x80 + c.toNat % 64 - 0x80) = c.toNat := by omega
      refine (scan_two (lead_two (by omega)) (by omega) rest).trans ?_
      rw [hb1, hvalue, hc]
    · next h2 =>
      have hb3 := continuation_byte (show c.toNat % 64 < 64 by omega)
      split
      · next h3 =>
        obtain ⟨low, high, hlead, hrange⟩ := lead_three (n := c.toNat) (by omega) (not_surrogate c)
        have hb1 := toNat_byte (show 0x80 + c.toNat / 64 % 64 < 256 by omega)
        have hvalue : (c.toNat / 4096 * 64 + (0x80 + c.toNat / 64 % 64 - 0x80)) * 64 +
            c.toNat % 64 = c.toNat := by omega
        refine (scan_three hlead (by rwa [hb1]) hb3 rest).trans ?_
        rw [hb1, hvalue, hc]
      · next h3 =>
        obtain ⟨low, high, hlead, hrange⟩ := lead_four (n := c.toNat) (by omega)
        have hb1 := toNat_byte (show 0x80 + c.toNat / 4096 % 64 < 256 by omega)
        have hb2 := continuation_byte (show c.toNat / 64 % 64 < 64 by omega)
        have hvalue : ((c.toNat / 262144 * 64 + (0x80 + c.toNat / 4096 % 64 - 0x80)) * 64 +
            c.toNat / 64 % 64) * 64 + c.toNat % 64 = c.toNat := by omega
        refine (scan_four hlead (by rwa [hb1]) hb2 hb3 rest).trans ?_
        rw [hb1, hvalue, hc]

/-! ## Texts -/

theorem scan_encode (s : List Char) : scan (encode s) = s.map some := by
  induction s with
  | nil => rfl
  | cons c s ih =>
    unfold encode at ih ⊢
    rw [List.flatMap_cons, scan_encodeChar, ih, List.map_cons]

/-- All characters of a text are there when no part of it is malformed. -/
theorem mapM_id_eq_some_iff {α : Type} {all : List (Option α)} {s : List α} :
    all.mapM id = some s ↔ all = s.map some := by
  induction all generalizing s with
  | nil => cases s <;> simp
  | cons x all ih =>
    cases x with
    | none => cases s <;> simp
    | some c =>
      rw [List.mapM_cons]
      cases s with
      | nil => simp [Option.bind_eq_some_iff]
      | cons d s => simpa [Option.bind_eq_some_iff, ih] using and_comm

theorem decode?_encode (s : List Char) : decode? (encode s) = some s :=
  mapM_id_eq_some_iff.2 (scan_encode s)

theorem decodeLenient_encode (s : List Char) : decodeLenient (encode s) = s := by
  unfold decodeLenient
  rw [scan_encode, List.map_map]
  exact List.map_id s

/-! ## Nothing else is read as a character -/

/-- What is known of the number of a byte from what it announces. -/
def Lead.Suits (n : Nat) : Lead → Prop
  | .single => n < 0x80
  | .opening bits tail low high =>
    (tail = 1 ∧ n = 0xC0 + bits ∧ 2 ≤ bits ∧ bits < 32 ∧ low = 0x80 ∧ high = 0xBF) ∨
    (tail = 2 ∧ n = 0xE0 + bits ∧ bits < 16 ∧ 0x80 ≤ low ∧ high ≤ 0xBF ∧
      (bits = 0 → 0xA0 ≤ low) ∧ (bits = 0xD → high ≤ 0x9F)) ∨
    (tail = 3 ∧ n = 0xF0 + bits ∧ bits ≤ 4 ∧ 0x80 ≤ low ∧ high ≤ 0xBF ∧
      (bits = 0 → 0x90 ≤ low) ∧ (bits = 4 → high ≤ 0x8F))
  | .malformed => True

instance (n : Nat) : (l : Lead) → Decidable (l.Suits n)
  | .single => inferInstanceAs (Decidable (_ < _))
  | .opening _ _ _ _ => inferInstanceAs (Decidable (_ ∨ _ ∨ _))
  | .malformed => inferInstanceAs (Decidable True)

theorem suits_lead (b : UInt8) : (lead b).Suits b.toNat := by
  have all : ∀ n < 256, (lead (UInt8.ofNat n)).Suits n := by decide +kernel
  have hb := all b.toNat b.toNat_lt
  rwa [UInt8.ofNat_toNat] at hb

theorem continuation_eq_some {b : UInt8} {k : Nat} (h : continuation b = some k) :
    b.toNat = 0x80 + k ∧ k < 64 := by
  unfold continuation at h
  split at h
  · have hk := Option.some.inj h
    omega
  · cases h

section codePoint

variable {n : Nat}

theorem encodeChar_one (h : n < 0x80) : encodeChar (Char.ofNat n) = [UInt8.ofNat n] := by
  unfold encodeChar
  rw [toNat_ofNat (.inl (by omega))]
  exact if_pos h

theorem encodeChar_two (h : 0x80 ≤ n ∧ n < 0x800) :
    encodeChar (Char.ofNat n) = [UInt8.ofNat (0xC0 + n / 64), UInt8.ofNat (0x80 + n % 64)] := by
  unfold encodeChar
  rw [toNat_ofNat (.inl (by omega))]
  dsimp only
  rw [if_neg (by omega), if_pos h.2]

theorem encodeChar_three (h : 0x800 ≤ n ∧ n < 0x10000) (hs : ¬ (0xD800 ≤ n ∧ n < 0xE000)) :
    encodeChar (Char.ofNat n) =
      [UInt8.ofNat (0xE0 + n / 4096), UInt8.ofNat (0x80 + n / 64 % 64),
        UInt8.ofNat (0x80 + n % 64)] := by
  unfold encodeChar
  rw [toNat_ofNat (by omega)]
  dsimp only
  rw [if_neg (by omega), if_neg (by omega), if_pos h.2]

theorem encodeChar_four (h : 0x10000 ≤ n ∧ n < 0x110000) :
    encodeChar (Char.ofNat n) =
      [UInt8.ofNat (0xF0 + n / 262144), UInt8.ofNat (0x80 + n / 4096 % 64),
        UInt8.ofNat (0x80 + n / 64 % 64), UInt8.ofNat (0x80 + n % 64)] := by
  unfold encodeChar
  rw [toNat_ofNat (.inr (by omega))]
  dsimp only
  rw [if_neg (by omega), if_neg (by omega), if_neg (by omega)]

theorem ofNat_eq_of_toNat {b : UInt8} (h : n = b.toNat) : UInt8.ofNat n = b := by
  rw [h, UInt8.ofNat_toNat]

end codePoint

section bytes

variable {b b1 b2 b3 : UInt8} {bits low high k2 k3 : Nat}

theorem bytes_single (h : lead b = .single) : encodeChar (Char.ofNat b.toNat) = [b] := by
  have hlead := suits_lead b
  rw [h] at hlead
  rw [encodeChar_one hlead, UInt8.ofNat_toNat]

theorem bytes_two (h : lead b = .opening bits 1 low high)
    (h1 : ¬ (b1.toNat < low ∨ high < b1.toNat)) :
    encodeChar (Char.ofNat (bits * 64 + (b1.toNat - 0x80))) = [b, b1] := by
  have hlead := suits_lead b
  rw [h, Lead.Suits] at hlead
  rw [encodeChar_two (by omega), ofNat_eq_of_toNat (b := b) (by omega),
    ofNat_eq_of_toNat (b := b1) (by omega)]

theorem bytes_three (h : lead b = .opening bits 2 low high)
    (h1 : ¬ (b1.toNat < low ∨ high < b1.toNat)) (h2 : continuation b2 = some k2) :
    encodeChar (Char.ofNat ((bits * 64 + (b1.toNat - 0x80)) * 64 + k2)) = [b, b1, b2] := by
  have hlead := suits_lead b
  rw [h, Lead.Suits] at hlead
  have hk2 := continuation_eq_some h2
  rw [encodeChar_three (by omega) (by omega), ofNat_eq_of_toNat (b := b) (by omega),
    ofNat_eq_of_toNat (b := b1) (by omega), ofNat_eq_of_toNat (b := b2) (by omega)]

theorem bytes_four {tail : Nat} (h : lead b = .opening bits tail low high) (hone : tail ≠ 1)
    (htwo : tail ≠ 2) (h1 : ¬ (b1.toNat < low ∨ high < b1.toNat))
    (h2 : continuation b2 = some k2) (h3 : continuation b3 = some k3) :
    encodeChar (Char.ofNat (((bits * 64 + (b1.toNat - 0x80)) * 64 + k2) * 64 + k3)) =
      [b, b1, b2, b3] := by
  have hlead := suits_lead b
  rw [h, Lead.Suits] at hlead
  have hk2 := continuation_eq_some h2
  have hk3 := continuation_eq_some h3
  rw [encodeChar_four (by omega), ofNat_eq_of_toNat (b := b) (by omega),
    ofNat_eq_of_toNat (b := b1) (by omega), ofNat_eq_of_toNat (b := b2) (by omega),
    ofNat_eq_of_toNat (b := b3) (by omega)]

end bytes

/-- A text whose first character has these bytes is written with them in front. -/
theorem encode_of_cons {c : Char} {bytes rest : List UInt8} {scanned : List (Option Char)}
    {s : List Char} (hc : encodeChar c = bytes) (ih : ∀ s, scanned = s.map some → rest = encode s)
    (h : some c :: scanned = s.map some) : bytes ++ rest = encode s := by
  cases s with
  | nil => cases h
  | cons c' s =>
    obtain ⟨hfirst, hrest⟩ := List.cons.inj h
    obtain rfl := Option.some.inj hfirst
    rw [← hc, ih s hrest]
    rfl

/-- What is scanned without a malformed part is the bytes of the text. -/
theorem encode_of_scan {bytes : List UInt8} {s : List Char} (h : scan bytes = s.map some) :
    bytes = encode s := by
  fun_induction scan bytes generalizing s with
  | case1 =>
    rw [List.map_eq_nil_iff.1 h.symm]
    rfl
  | case2 b rest hlead ih => exact encode_of_cons (bytes_single hlead) @ih h
  | case6 b bits low high b1 rest h1 n1 hlead =>
    rename_i ih
    exact encode_of_cons (bytes_two hlead h1) @ih h
  | case9 b bits low high b1 h1 n1 b2 rest k2 h2 n2 hlead =>
    rename_i ih
    exact encode_of_cons (bytes_three hlead h1 h2) @ih h
  | case12 b bits tail low high hlead b1 h1 n1 hone b2 k2 h2 n2 htwo b3 rest k3 h3 =>
    rename_i ih
    exact encode_of_cons (bytes_four hlead hone htwo h1 h2 h3) @ih h
  | case3 | case4 | case5 | case7 | case8 | case10 | case11 =>
    -- a malformed part is no character
    cases s with
    | nil => cases h
    | cons c s => cases (List.cons.inj h).1

/-- The bytes that are read as a text are the bytes of this text. -/
theorem decode?_eq_some_iff {bytes : List UInt8} {s : List Char} :
    decode? bytes = some s ↔ bytes = encode s := by
  constructor
  · intro h
    exact encode_of_scan (mapM_id_eq_some_iff.1 h)
  · rintro rfl
    exact decode?_encode s

end GitLfs.Text.Utf8
