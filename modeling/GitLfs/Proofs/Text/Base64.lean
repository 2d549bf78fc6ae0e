import GitLfs.Text.Base64

/-!
# Which texts are read as base64

`IsBase64` relates a text to the bytes that it stands for, group by group, as the alphabet and the bits
say. What is read is what is related (`decode?_eq_some_iff`), apart from `=` behind complete groups:
these stand for nothing, and any number of them is passed over.

The written form of bytes is one of the texts that stand for them (`isBase64_encode`); the others differ
from it in the spare bits of their last group.
-/

namespace GitLfs.Text.Base64

variable {a b c d : Char} {v w x y z : Nat} {s front rest : List Char} {bytes : List UInt8}

/-! ## The alphabet -/

/-- The characters, in the order of their values. -/
def alphabet : List Char :=
  "ABCDEFGHIJKLMNOPQRSTUVWXYZabcdefghijklmnopqrstuvwxyz0123456789+/".toList

theorem alphabet_eq : alphabet = (List.range 64).map digit := by decide

theorem digit_of_value? (h : value? c = some v) : v < 64 ∧ digit v = c := by
  unfold value? at h
  dsimp only at h
  split at h
  · obtain rfl := Option.some.inj h
    refine ⟨by omega, ?_⟩
    rw [digit, if_pos (by omega), Nat.sub_add_cancel (by omega), Char.ofNat_toNat]
  · split at h
    · obtain rfl := Option.some.inj h
      refine ⟨by omega, ?_⟩
      rw [digit, if_neg (by omega), if_pos (by omega), Nat.sub_add_cancel (by omega),
        Char.ofNat_toNat]
    · split at h
      · obtain rfl := Option.some.inj h
        refine ⟨by omega, ?_⟩
        rw [digit, if_neg (by omega), if_neg (by omega), if_pos (by omega), Nat.add_sub_cancel,
          Char.ofNat_toNat]
      · split at h
        · next hplus =>
          obtain rfl := Option.some.inj h
          exact ⟨by decide, hplus.symm⟩
        · split at h
          · next hslash =>
            obtain rfl := Option.some.inj h
            exact ⟨by decide, hslash.symm⟩
          · cases h

/-- The value of a character is its place in the alphabet. -/
theorem value?_eq_some_iff : value? c = some v ↔ alphabet[v]? = some c := by
  rw [alphabet_eq, List.getElem?_map, Option.map_eq_some_iff]
  constructor
  · intro h
    obtain ⟨hv, hdigit⟩ := digit_of_value? h
    exact ⟨v, List.getElem?_range hv, hdigit⟩
  · rintro ⟨v', hv', rfl⟩
    obtain ⟨hv, rfl⟩ := List.getElem?_eq_some_iff.1 hv'
    rw [List.getElem_range]
    exact value?_digit (by simpa using hv)

theorem getElem?_digit (h : v < 64) : alphabet[v]? = some (digit v) :=
  value?_eq_some_iff.1 (value?_digit h)

theorem lt_of_getElem? (h : alphabet[v]? = some c) : v < 64 :=
  (digit_of_value? (value?_eq_some_iff.2 h)).1

theorem ne_pad_of_getElem? (h : alphabet[v]? = some c) : c ≠ '=' := by
  rintro rfl
  exact absurd (List.mem_of_getElem? h) (by decide)

/-! ## Groups -/

/-- The text stands for the bytes: four characters for three of them, and in the last group with `=`
also for two or one. The bits that are then to spare are free. -/
inductive IsBase64 : List Char → List UInt8 → Prop where
  | nil : IsBase64 [] []
  | one {a b : Char} {x y spare : Nat} {p : UInt8} (ha : alphabet[x]? = some a)
      (hb : alphabet[y]? = some b) (hspare : spare < 16)
      (hbits : x * 64 + y = p.toNat * 16 + spare) : IsBase64 [a, b, '=', '='] [p]
  | two {a b c : Char} {x y z spare : Nat} {p q : UInt8} (ha : alphabet[x]? = some a)
      (hb : alphabet[y]? = some b) (hc : alphabet[z]? = some c) (hspare : spare < 4)
      (hbits : (x * 64 + y) * 64 + z = (p.toNat * 256 + q.toNat) * 4 + spare) :
      IsBase64 [a, b, c, '='] [p, q]
  | three {a b c d : Char} {x y z w : Nat} {p q r : UInt8} {rest : List Char} {bytes : List UInt8}
      (ha : alphabet[x]? = some a) (hb : alphabet[y]? = some b) (hc : alphabet[z]? = some c)
      (hd : alphabet[w]? = some d)
      (hbits : ((x * 64 + y) * 64 + z) * 64 + w = (p.toNat * 256 + q.toNat) * 256 + r.toNat)
      (hrest : IsBase64 rest bytes) : IsBase64 (a :: b :: c :: d :: rest) (p :: q :: r :: bytes)

namespace IsBase64

theorem length (h : IsBase64 s bytes) : 4 ∣ s.length := by
  induction h with
  | nil => exact Nat.dvd_zero 4
  | one => exact Nat.dvd_refl 4
  | two => exact Nat.dvd_refl 4
  | three _ _ _ _ _ _ ih =>
    simp only [List.length_cons]
    omega

/-- There are at most two `=`. -/
theorem count_pad (h : IsBase64 s bytes) : s.count '=' ≤ 2 := by
  induction h with
  | nil => decide
  | one ha hb =>
    rw [List.count_cons_of_ne (ne_pad_of_getElem? ha), List.count_cons_of_ne (ne_pad_of_getElem? hb)]
    decide
  | two ha hb hc =>
    rw [List.count_cons_of_ne (ne_pad_of_getElem? ha), List.count_cons_of_ne (ne_pad_of_getElem? hb),
      List.count_cons_of_ne (ne_pad_of_getElem? hc)]
    decide
  | three ha hb hc hd _ _ ih =>
    rwa [List.count_cons_of_ne (ne_pad_of_getElem? ha),
      List.count_cons_of_ne (ne_pad_of_getElem? hb), List.count_cons_of_ne (ne_pad_of_getElem? hc),
      List.count_cons_of_ne (ne_pad_of_getElem? hd)]

theorem head_ne_pad (h : IsBase64 s bytes) : s.head? ≠ some '=' := by
  cases h with
  | nil => exact fun he => nomatch he
  | one ha => exact fun he => ne_pad_of_getElem? ha (Option.some.inj he)
  | two ha => exact fun he => ne_pad_of_getElem? ha (Option.some.inj he)
  | three ha => exact fun he => ne_pad_of_getElem? ha (Option.some.inj he)

theorem mem_alphabet (h : IsBase64 s bytes) : ∀ c ∈ s, c ∈ alphabet ∨ c = '=' := by
  induction h with
  | nil => exact fun c hc => absurd hc List.not_mem_nil
  | one ha hb =>
    have := List.mem_of_getElem? ha
    have := List.mem_of_getElem? hb
    simp [*]
  | two ha hb hc =>
    have := List.mem_of_getElem? ha
    have := List.mem_of_getElem? hb
    have := List.mem_of_getElem? hc
    simp [*]
  | three ha hb hc hd _ _ ih =>
    have := List.mem_of_getElem? ha
    have := List.mem_of_getElem? hb
    have := List.mem_of_getElem? hc
    have := List.mem_of_getElem? hd
    simp_all

end IsBase64

/-! ## What is read -/

theorem groups_pads (k : Nat) : groups (List.replicate k '=') = some [] := by
  cases k with
  | zero => rfl
  | succ k =>
    unfold groups
    rw [List.replicate_succ]
    dsimp only
    rw [if_pos rfl, if_pos (by simp)]

/-- A text that stands for bytes is read as them. So is such a text without `=` that has any number of
`=` behind it. -/
theorem groups_append_pads (h : IsBase64 front bytes) {k : Nat} (hk : '=' ∈ front → k = 0) :
    groups (front ++ List.replicate k '=') = some bytes := by
  induction h with
  | nil => exact groups_pads k
  | @one a b x y spare p ha hb hspare hbits =>
    have hx := lt_of_getElem? ha
    have hy := lt_of_getElem? hb
    have hp : x * 4 + y / 16 = p.toNat := by omega
    obtain rfl : k = 0 := hk (by simp)
    simp only [List.replicate_zero, List.append_nil, groups, if_neg (ne_pad_of_getElem? ha),
      value?_eq_some_iff.2 ha, value?_eq_some_iff.2 hb, value?_pad, Option.bind_eq_bind,
      Option.bind_some, hp, UInt8.ofNat_toNat]
    rfl
  | @two a b c x y z spare p q ha hb hc hspare hbits =>
    have hx := lt_of_getElem? ha
    have hy := lt_of_getElem? hb
    have hz := lt_of_getElem? hc
    have hqlt := q.toNat_lt
    have hp : x * 4 + y / 16 = p.toNat := by omega
    have hq : y % 16 * 16 + z / 4 = q.toNat := by omega
    obtain rfl : k = 0 := hk (by simp)
    simp only [List.replicate_zero, List.append_nil, groups, if_neg (ne_pad_of_getElem? ha),
      value?_eq_some_iff.2 ha, value?_eq_some_iff.2 hb, value?_eq_some_iff.2 hc, value?_pad,
      Option.bind_eq_bind, Option.bind_some, hp, hq, UInt8.ofNat_toNat]
    rfl
  | @three a b c d x y z w p q r rest bytes ha hb hc hd hbits _ ih =>
    have hx := lt_of_getElem? ha
    have hy := lt_of_getElem? hb
    have hz := lt_of_getElem? hc
    have hw := lt_of_getElem? hd
    have hqlt := q.toNat_lt
    have hrlt := r.toNat_lt
    have hp : x * 4 + y / 16 = p.toNat := by omega
    have hq : y % 16 * 16 + z / 4 = q.toNat := by omega
    have hr : z % 4 * 64 + w = r.toNat := by omega
    have hrest := ih fun hmem => hk (by simp [hmem])
    simp only [List.cons_append, groups, if_neg (ne_pad_of_getElem? ha),
      value?_eq_some_iff.2 ha, value?_eq_some_iff.2 hb, value?_eq_some_iff.2 hc,
      value?_eq_some_iff.2 hd, Option.bind_eq_bind, Option.bind_some, hp, hq, hr, hrest,
      UInt8.ofNat_toNat]
    rfl

theorem isBase64_of_groups (h : groups s = some bytes) :
    ∃ front k, IsBase64 front bytes ∧ ('=' ∈ front → k = 0) ∧
      s = front ++ List.replicate k '=' := by
  fun_induction groups s generalizing bytes with
  | case1 =>
    cases h
    exact ⟨[], 0, .nil, fun _ => rfl, rfl⟩
  | case2 rest hall =>
    cases h
    refine ⟨[], rest.length + 1, .nil, fun hmem => absurd hmem List.not_mem_nil, ?_⟩
    have hrest : ∀ c ∈ rest, c = '=' := by simpa using hall
    rw [List.nil_append, List.replicate_succ, ← List.eq_replicate_of_mem hrest]
  | case3 | case5 => cases h
  | case4 a ha b c d rest ih =>
    simp only [Option.bind_eq_bind, Option.bind_eq_some_iff] at h
    obtain ⟨x, hx, y, hy, h⟩ := h
    rw [value?_eq_some_iff] at hx hy
    have hxlt := lt_of_getElem? hx
    have hylt := lt_of_getElem? hy
    have hp : (UInt8.ofNat (x * 4 + y / 16)).toNat = x * 4 + y / 16 :=
      UInt8.toNat_ofNat_of_lt' (show x * 4 + y / 16 < 256 by omega)
    split at h
    · next z w hz hw =>
      rw [value?_eq_some_iff] at hz hw
      have hzlt := lt_of_getElem? hz
      have hwlt := lt_of_getElem? hw
      have hq : (UInt8.ofNat (y % 16 * 16 + z / 4)).toNat = y % 16 * 16 + z / 4 :=
        UInt8.toNat_ofNat_of_lt' (show y % 16 * 16 + z / 4 < 256 by omega)
      have hr : (UInt8.ofNat (z % 4 * 64 + w)).toNat = z % 4 * 64 + w :=
        UInt8.toNat_ofNat_of_lt' (show z % 4 * 64 + w < 256 by omega)
      obtain ⟨tail, htail, htext⟩ := Option.bind_eq_some_iff.1 h
      cases htext
      obtain ⟨front, k, hfront, hk, rfl⟩ := ih htail
      refine ⟨a :: b :: c :: d :: front, k, .three hx hy hz hw (by omega) hfront, fun hmem => hk ?_,
        rfl⟩
      have hb := ne_pad_of_getElem? hy
      have hc := ne_pad_of_getElem? hz
      have hd := ne_pad_of_getElem? hw
      simpa [Ne.symm ha, hb.symm, hc.symm, hd.symm] using hmem
    · next z hz hw =>
      rw [value?_eq_some_iff] at hz
      have hzlt := lt_of_getElem? hz
      have hq : (UInt8.ofNat (y % 16 * 16 + z / 4)).toNat = y % 16 * 16 + z / 4 :=
        UInt8.toNat_ofNat_of_lt' (show y % 16 * 16 + z / 4 < 256 by omega)
      split at h
      · next hend =>
        obtain ⟨rfl, rfl⟩ := hend
        cases h
        exact ⟨_, 0, .two hx hy hz (show z % 4 < 4 by omega) (by omega), fun _ => rfl, rfl⟩
      · cases h
    · split at h
      · next hend =>
        obtain ⟨rfl, rfl, rfl⟩ := hend
        cases h
        exact ⟨_, 0, .one hx hy (show y % 16 < 16 by omega) (by omega), fun _ => rfl, rfl⟩
      · cases h
    · cases h

/-- The text has `=` behind complete groups that stand for the bytes. -/
def Overfilled (s : List Char) (bytes : List UInt8) : Prop :=
  ∃ front k, front ≠ [] ∧ '=' ∉ front ∧ IsBase64 front bytes ∧
    s = front ++ List.replicate (k + 1) '='

/-- What is read, and as which bytes. -/
theorem decode?_eq_some_iff : decode? s = some bytes ↔ IsBase64 s bytes ∨ Overfilled s bytes := by
  constructor
  · intro h
    have hhead : s.head? ≠ some '=' := by
      intro hhead
      obtain ⟨rest, rfl⟩ := List.head?_eq_some_iff.1 hhead
      cases h
    rw [decode?_eq_groups hhead] at h
    obtain ⟨front, k, hfront, hk, rfl⟩ := isBase64_of_groups h
    cases k with
    | zero =>
      rw [List.replicate_zero, List.append_nil]
      exact .inl hfront
    | succ k =>
      refine .inr ⟨front, k, ?_, fun hmem => absurd (hk hmem) k.succ_ne_zero, hfront, rfl⟩
      rintro rfl
      exact hhead rfl
  · rintro (h | ⟨front, k, hne, hpad, h, rfl⟩)
    · have hgroups := groups_append_pads h fun _ => rfl
      rw [List.replicate_zero, List.append_nil] at hgroups
      rwa [decode?_eq_groups h.head_ne_pad]
    · have hhead : (front ++ List.replicate (k + 1) '=').head? ≠ some '=' := by
        obtain ⟨c, front, rfl⟩ := List.exists_cons_of_ne_nil hne
        exact h.head_ne_pad
      rw [decode?_eq_groups hhead]
      exact groups_append_pads h fun hmem => absurd hmem hpad

/-! ## The written form -/

theorem isBase64_encode (bytes : List UInt8) : IsBase64 (encode bytes) bytes := by
  fun_induction encode bytes with
  | case1 => exact .nil
  | case2 a =>
    have ha := a.toNat_lt
    exact .one (getElem?_digit (by omega)) (getElem?_digit (by omega)) (show 0 < 16 by decide)
      (by omega)
  | case3 a b =>
    have ha := a.toNat_lt
    have hb := b.toNat_lt
    exact .two (getElem?_digit (by omega)) (getElem?_digit (by omega)) (getElem?_digit (by omega))
      (show 0 < 4 by decide) (by omega)
  | case4 a b c rest ih =>
    have ha := a.toNat_lt
    have hb := b.toNat_lt
    have hc := c.toNat_lt
    exact .three (getElem?_digit (by omega)) (getElem?_digit (by omega)) (getElem?_digit (by omega))
      (getElem?_digit (by omega)) (by omega) ih

/-- Reading gives back the bytes that were written. -/
theorem decode?_encode (bytes : List UInt8) : decode? (encode bytes) = some bytes :=
  decode?_eq_some_iff.2 (.inl (isBase64_encode bytes))

/-- Whatever of the `=` at its end is left out of the written form, filling it up puts it back. -/
theorem padded_of_encode {k : Nat} (h : s ++ List.replicate k '=' = encode bytes) :
    padded s = encode bytes := by
  have hencode := isBase64_encode bytes
  have hlength := hencode.length
  have hcount := hencode.count_pad
  rw [← h, List.length_append, List.length_replicate] at hlength
  rw [← h, List.count_append, List.count_replicate_self] at hcount
  have hk : (4 - s.length % 4) % 4 = k := by omega
  rw [padded, hk, h]

end GitLfs.Text.Base64
