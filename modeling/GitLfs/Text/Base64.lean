/-!
# Base64

The strict reading of base64 text: only characters of the alphabet, and `=` only behind them. A last
group that is not complete needs as many `=` as it lacks characters; behind a complete group any
number of them is passed over. Bits of the last character beyond the last whole byte are free.
-/

namespace GitLfs.Text.Base64

/-- The value of a character of the alphabet. -/
def value? (c : Char) : Option Nat :=
  let n := c.toNat
  if 65 ≤ n ∧ n ≤ 90 then some (n - 65)
  else if 97 ≤ n ∧ n ≤ 122 then some (n - 71)
  else if 48 ≤ n ∧ n ≤ 57 then some (n + 4)
  else if c = '+' then some 62
  else if c = '/' then some 63
  else none

/-- The character for a value below 64. -/
def digit (v : Nat) : Char :=
  if v < 26 then Char.ofNat (v + 65)
  else if v < 52 then Char.ofNat (v + 71)
  else if v < 62 then Char.ofNat (v - 4)
  else if v = 62 then '+'
  else '/'

/-- The bytes of groups of four characters; the last group may end in one or two `=`. -/
def groups : List Char → Option (List UInt8)
  | [] => some []
  | a :: rest =>
    if a = '=' then if rest.all (· = '=') then some [] else none
    else match rest with
      | b :: c :: d :: rest => do
        let x ← value? a
        let y ← value? b
        let first := UInt8.ofNat (x * 4 + y / 16)
        match value? c, value? d with
        | some z, some w =>
          let tail ← groups rest
          return first :: UInt8.ofNat (y % 16 * 16 + z / 4) :: UInt8.ofNat (z % 4 * 64 + w) :: tail
        | some z, none =>
          if d = '=' ∧ rest = [] then return [first, UInt8.ofNat (y % 16 * 16 + z / 4)] else none
        | none, none =>
          if c = '=' ∧ d = '=' ∧ rest = [] then return [first] else none
        | none, some _ => none
      | _ => none

/-- The bytes that a text stands for. -/
def decode? (s : List Char) : Option (List UInt8) :=
  match s with
  | '=' :: _ => none
  | s => groups s

/-- The written form, filled up with `=` to a multiple of four characters. -/
def encode : List UInt8 → List Char
  | [] => []
  | [a] => [digit (a.toNat / 4), digit (a.toNat % 4 * 16), '=', '=']
  | [a, b] =>
    [digit (a.toNat / 4), digit (a.toNat % 4 * 16 + b.toNat / 16), digit (b.toNat % 16 * 4), '=']
  | a :: b :: c :: rest =>
    digit (a.toNat / 4) :: digit (a.toNat % 4 * 16 + b.toNat / 16) ::
      digit (b.toNat % 16 * 4 + c.toNat / 64) :: digit (c.toNat % 64) :: encode rest

/-- The text completed with `=` to a multiple of four characters. -/
def padded (s : List Char) : List Char :=
  s ++ List.replicate ((4 - s.length % 4) % 4) '='

theorem value?_digit {v : Nat} (h : v < 64) : value? (digit v) = some v := by
  have all : ∀ v : Fin 64, value? (digit v) = some v.val := by decide
  exact all ⟨v, h⟩

theorem value?_pad : value? '=' = none := by decide

theorem decode?_eq_groups {s : List Char} (h : s.head? ≠ some '=') : decode? s = groups s := by
  unfold decode?
  split
  · simp at h
  · rfl

end GitLfs.Text.Base64
