import Mathlib.Algebra.Ring.Nat
import GitLfs.Number.Decimal

/-!
# Written integers are read back

The digits of a number stand for it (`valueOf_digits`), and only those of zero start with a zero.
-/

namespace GitLfs.Number.Decimal

theorem valueOf_append_singleton (ds : List Char) (c : Char) :
    valueOf (ds ++ [c]) = valueOf ds * 10 + (c.toNat - 48) := by
  unfold valueOf
  rw [List.foldl_append]
  rfl

theorem valueOf_eq_ofDigitChars (ds : List Char) : valueOf ds = Nat.ofDigitChars 10 ds 0 := by
  rw [valueOf, Nat.ofDigitChars_eq_foldl]
  simp only [Nat.mul_comm 10]
  rfl

/-- Zeros in front make no difference. -/
theorem valueOf_zeros (n : Nat) (ds : List Char) : valueOf (List.replicate n '0' ++ ds) = valueOf ds := by
  induction n with
  | zero => rfl
  | succ n ih => exact ih

theorem valueOf_digits (n : Nat) : valueOf (digits n) = n := by
  rw [valueOf_eq_ofDigitChars]
  exact Nat.ofDigitChars_ten_toDigits

theorem digits_ne_nil (n : Nat) : digits n ≠ [] := Nat.toDigits_ne_nil

theorem isDigit_of_mem_digits {n : Nat} {c : Char} (h : c ∈ digits n) : c.isDigit = true :=
  Nat.isDigit_of_mem_toDigits (by decide) (by decide) h

/-- Digits behind a number make less of it than the next number followed by as many zeros. -/
theorem foldl_lt {ds : List Char} (h : ∀ c ∈ ds, c.isDigit = true) (n : Nat) :
    ds.foldl (fun n c => n * 10 + (c.toNat - 48)) n < (n + 1) * 10 ^ ds.length := by
  induction ds generalizing n with
  | nil => simp
  | cons c ds ih =>
    have hc : c.toNat - 48 < 10 := by
      have hdigit := h c List.mem_cons_self
      simp only [Char.isDigit, Bool.and_eq_true, decide_eq_true_eq, UInt32.le_iff_toNat_le] at hdigit
      have hle : c.toNat ≤ 57 := hdigit.2
      omega
    have hstep : n * 10 + (c.toNat - 48) + 1 ≤ (n + 1) * 10 := by omega
    calc (c :: ds).foldl (fun n c => n * 10 + (c.toNat - 48)) n
        < (n * 10 + (c.toNat - 48) + 1) * 10 ^ ds.length :=
          ih (fun x hx => h x (List.mem_cons_of_mem _ hx)) _
      _ ≤ (n + 1) * 10 * 10 ^ ds.length := Nat.mul_le_mul_right _ hstep
      _ = (n + 1) * 10 ^ (c :: ds).length := by
          rw [List.length_cons, Nat.pow_succ, Nat.mul_assoc, Nat.mul_comm 10]

theorem valueOf_lt {ds : List Char} (h : ∀ c ∈ ds, c.isDigit = true) :
    valueOf ds < 10 ^ ds.length := by
  have hlt := foldl_lt h 0
  rwa [Nat.zero_add, Nat.one_mul] at hlt

theorem short_iff {n : Int} : Short n ↔ n.natAbs < 10 ^ maxDigits :=
  Nat.length_toDigits_le_iff (by decide) (by decide)

theorem short_valueOf {ds : List Char} (hds : ∀ c ∈ ds, c.isDigit = true)
    (h : ds.length ≤ maxDigits) (negative : Bool) :
    Short (if negative then -(valueOf ds : Int) else valueOf ds) := by
  have hlt : valueOf ds < 10 ^ maxDigits :=
    Nat.lt_of_lt_of_le (valueOf_lt hds) (Nat.pow_le_pow_right (by decide) h)
  rw [short_iff]
  cases negative
  · simpa using hlt
  · simpa using hlt

/-- What is read from a text has no more digits than may be written. -/
theorem short_of_readPlain {s : List Char} {n : Int} (h : readPlain s = .value n) : Short n := by
  unfold readPlain at h
  split at h
  next negative unsigned _ =>
    have hdigits : ∀ c ∈ unsigned.takeWhile Char.isDigit, c.isDigit = true :=
      List.all_eq_true.1 List.all_takeWhile
    dsimp only at h
    generalize unsigned.takeWhile Char.isDigit = ds at h hdigits
    split at h
    · cases h
    next hlong =>
      split at h
      · cases h
      next hform =>
        -- a row of digits that starts with a zero is that zero
        have hlength : ds.length ≤ maxDigits := by
          by_cases hzero : ds.head? = some '0'
          · have hone : ¬ 1 < ds.length := fun hlt => hform (.inr (.inr ⟨hzero, hlt⟩))
            exact Nat.le_trans (Nat.le_of_not_lt hone) (by decide)
          · exact Nat.le_of_not_lt fun hlt => hlong ⟨hlt, by simpa using hzero⟩
        have hshort := short_valueOf hdigits hlength negative
        cases negative
        · cases h
          exact hshort
        · cases h
          exact hshort

theorem short_of_readFree {s : List Char} {n : Int} (h : readFree s = .value n) : Short n := by
  unfold readFree at h
  split at h
  · exact short_of_readPlain h
  · cases h

theorem digits_zero : digits 0 = ['0'] := Nat.toDigits_zero 10

/-- Only the digits of zero start with a zero. -/
theorem head?_digits_ne_zero {n : Nat} (h : n ≠ 0) : (digits n).head? ≠ some '0' := by
  unfold digits
  induction n using Nat.strongRecOn with
  | ind n ih =>
    rw [Nat.toDigits_eq_if (by decide)]
    split
    · simpa using h
    · have := ih (n / 10) (by omega) (by omega)
      cases hd : Nat.toDigits 10 (n / 10) with
      | nil => exact absurd hd Nat.toDigits_ne_nil
      | cons c rest => simpa [hd] using this

/-- The first character of written digits is a digit, so it is no sign. -/
theorem exists_digits_eq_cons (n : Nat) :
    ∃ c rest, digits n = c :: rest ∧ c.isDigit = true ∧ rest.all Char.isDigit = true := by
  obtain ⟨c, rest, h⟩ := List.exists_cons_of_ne_nil (digits_ne_nil n)
  refine ⟨c, rest, h, isDigit_of_mem_digits (n := n) (by simp [h]), ?_⟩
  exact List.all_eq_true.2 fun x hx => isDigit_of_mem_digits (n := n) (by simp [h, hx])

theorem write_eq (n : Int) :
    write n = if n < 0 then '-' :: digits n.natAbs else digits n.natAbs := by
  cases n with
  | ofNat n => rw [if_neg (by simp)]; rfl
  | negSucc n => rw [if_pos (Int.negSucc_lt_zero n)]; rfl

theorem write_ne_nil (n : Int) : write n ≠ [] := by
  rw [write_eq]
  split
  · exact List.cons_ne_nil _ _
  · exact digits_ne_nil _

theorem signed_cases (s : List Char) :
    (∃ rest, s = '-' :: rest ∧ signed s = (true, rest)) ∨
      (∃ rest, s = '+' :: rest ∧ signed s = (false, rest)) ∨ signed s = (false, s) := by
  unfold signed
  split
  · exact .inl ⟨_, rfl, rfl⟩
  · exact .inr (.inl ⟨_, rfl, rfl⟩)
  · exact .inr (.inr rfl)

/-- Digits have no sign in front. -/
theorem signed_of_isDigit {ds : List Char} (h : ∀ c ∈ ds, c.isDigit = true) :
    signed ds = (false, ds) := by
  obtain ⟨rest, rfl, -⟩ | ⟨rest, rfl, -⟩ | hs := signed_cases ds
  · exact absurd (h '-' List.mem_cons_self) (by decide)
  · exact absurd (h '+' List.mem_cons_self) (by decide)
  · exact hs

theorem signed_digits (n : Nat) : signed (digits n) = (false, digits n) :=
  signed_of_isDigit fun _ hc => isDigit_of_mem_digits hc

theorem signed_write (n : Int) : signed (write n) = (decide (n < 0), digits n.natAbs) := by
  rw [write_eq]
  split
  · next h => rw [decide_eq_true h]; rfl
  · next h => rw [decide_eq_false h, signed_digits]

theorem signed_natAbs (n : Int) :
    (if n < 0 then -(n.natAbs : Int) else (n.natAbs : Int)) = n := by
  split <;> omega

/-! ## Numerals -/

/-- A text consists of an optional sign and at least one digit. Such a text stands for an integer. -/
inductive Numeral : List Char → List Char → Int → Prop
  | bare {ds : List Char} (ne : ds ≠ []) (isDigit : ∀ c ∈ ds, c.isDigit = true) :
      Numeral ds ds (Nat.ofDigitChars 10 ds 0)
  | plus {ds : List Char} (ne : ds ≠ []) (isDigit : ∀ c ∈ ds, c.isDigit = true) :
      Numeral ('+' :: ds) ds (Nat.ofDigitChars 10 ds 0)
  | minus {ds : List Char} (ne : ds ≠ []) (isDigit : ∀ c ∈ ds, c.isDigit = true) :
      Numeral ('-' :: ds) ds (-(Nat.ofDigitChars 10 ds 0 : Int))

/-- A sign is told from the digits behind it. -/
theorem numeral_iff {s ds : List Char} {n : Int} :
    Numeral s ds n ↔ ds = (signed s).2 ∧ ds ≠ [] ∧ (∀ c ∈ ds, c.isDigit = true) ∧
      n = if (signed s).1 then -(valueOf ds : Int) else valueOf ds := by
  simp only [valueOf_eq_ofDigitChars]
  constructor
  · intro h
    cases h with
    | bare ne isDigit =>
      rw [signed_of_isDigit isDigit]
      exact ⟨rfl, ne, isDigit, rfl⟩
    | plus ne isDigit => exact ⟨rfl, ne, isDigit, rfl⟩
    | minus ne isDigit => exact ⟨rfl, ne, isDigit, rfl⟩
  · rintro ⟨hds, ne, isDigit, rfl⟩
    obtain ⟨rest, rfl, hs⟩ | ⟨rest, rfl, hs⟩ | hs := signed_cases s
    · rw [hs] at hds ⊢
      obtain rfl : ds = rest := hds
      exact .minus ne isDigit
    · rw [hs] at hds ⊢
      obtain rfl : ds = rest := hds
      exact .plus ne isDigit
    · rw [hs] at hds ⊢
      obtain rfl : ds = s := hds
      exact .bare ne isDigit

/-- What is written is a numeral. -/
theorem numeral_write (n : Int) : Numeral (write n) (digits n.natAbs) n := by
  rw [numeral_iff, signed_write, valueOf_digits]
  refine ⟨rfl, digits_ne_nil _, fun c hc => isDigit_of_mem_digits hc, ?_⟩
  simp only [decide_eq_true_eq, signed_natAbs]

end GitLfs.Number.Decimal
