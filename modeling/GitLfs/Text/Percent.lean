import GitLfs.Text.Utf8

/-!
# Percent-encoding

`%` and two hexadecimal digits stand for one byte. Decoding keeps a `%` that no two hexadecimal
digits follow; form decoding also reads `+` as a space, before anything else, and takes the bytes
leniently as UTF-8.
-/

namespace GitLfs.Text.Percent

/-- The value of a hexadecimal digit in either case. -/
def hexValue? (c : Char) : Option Nat :=
  let n := c.toNat
  if 48 ≤ n ∧ n ≤ 57 then some (n - 48)
  else if 65 ≤ n ∧ n ≤ 70 then some (n - 55)
  else if 97 ≤ n ∧ n ≤ 102 then some (n - 87)
  else none

/-- The upper-case hexadecimal digit for a value below 16. -/
def hexDigit (v : Nat) : Char :=
  if v < 10 then Char.ofNat (v + 48) else Char.ofNat (v + 55)

/-- The bytes of a text in which every well-formed escape stands for its byte. -/
def decodeBytes : List Char → List UInt8
  | [] => []
  | c :: rest =>
    match c, rest with
    | '%', a :: b :: rest' =>
      match hexValue? a, hexValue? b with
      | some x, some y => UInt8.ofNat (x * 16 + y) :: decodeBytes rest'
      | _, _ => 0x25 :: decodeBytes (a :: b :: rest')
    | c, rest => Utf8.encodeChar c ++ decodeBytes rest

/-- The text that a component of a form-encoded query stands for. -/
def decodeForm (s : List Char) : List Char :=
  Utf8.decodeLenient (decodeBytes (s.map fun c => if c = '+' then ' ' else c))

/-- The text with every byte of a character outside `keep` written as an escape. -/
def encode (keep : Char → Bool) (s : List Char) : List Char :=
  s.flatMap fun c =>
    if keep c then [c]
    else (Utf8.encodeChar c).flatMap fun b =>
      ['%', hexDigit (b.toNat / 16), hexDigit (b.toNat % 16)]

theorem hexValue?_hexDigit {v : Nat} (h : v < 16) : hexValue? (hexDigit v) = some v := by
  have all : ∀ v : Fin 16, hexValue? (hexDigit v) = some v.val := by decide
  exact all ⟨v, h⟩

end GitLfs.Text.Percent
