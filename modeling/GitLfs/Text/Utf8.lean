/-!
# UTF-8

`scan` reads bytes as a sequence of characters and malformed parts, where a malformed part is as
long as it can be while still a beginning of some character's form. Strict decoding refuses a text
with a malformed part; lenient decoding puts U+FFFD for each.
-/

namespace GitLfs.Text.Utf8

/-- The bytes of one character: one to four of them, by its code point. -/
def encodeChar (c : Char) : List UInt8 :=
  let n := c.toNat
  if n < 0x80 then [UInt8.ofNat n]
  else if n < 0x800 then [UInt8.ofNat (0xC0 + n / 64), UInt8.ofNat (0x80 + n % 64)]
  else if n < 0x10000 then
    [UInt8.ofNat (0xE0 + n / 4096), UInt8.ofNat (0x80 + n / 64 % 64), UInt8.ofNat (0x80 + n % 64)]
  else
    [UInt8.ofNat (0xF0 + n / 262144), UInt8.ofNat (0x80 + n / 4096 % 64),
      UInt8.ofNat (0x80 + n / 64 % 64), UInt8.ofNat (0x80 + n % 64)]

/-- The bytes of a text. -/
def encode (s : List Char) : List UInt8 :=
  s.flatMap encodeChar

/-- What a first byte announces. -/
inductive Lead where
  /-- The byte is a character by itself. -/
  | single
  /-- `tail` bytes follow, the first of them between `low` and `high`; `bits` is the byte's share.
  -/
  | opening (bits tail low high : Nat)
  /-- No character starts with this byte. -/
  | malformed
  deriving DecidableEq, Repr

/-- The ranges keep out overlong forms, surrogates and code points above U+10FFFF. -/
def lead (b : UInt8) : Lead :=
  let n := b.toNat
  if n < 0x80 then .single
  else if n < 0xC2 then .malformed
  else if n < 0xE0 then .opening (n - 0xC0) 1 0x80 0xBF
  else if n == 0xE0 then .opening 0 2 0xA0 0xBF
  else if n == 0xED then .opening 0xD 2 0x80 0x9F
  else if n < 0xF0 then .opening (n - 0xE0) 2 0x80 0xBF
  else if n == 0xF0 then .opening 0 3 0x90 0xBF
  else if n < 0xF4 then .opening (n - 0xF0) 3 0x80 0xBF
  else if n == 0xF4 then .opening 4 3 0x80 0x8F
  else .malformed

/-- The six bits that a continuation byte carries, `none` for any other byte. -/
def continuation (b : UInt8) : Option Nat :=
  if 0x80 ≤ b.toNat ∧ b.toNat ≤ 0xBF then some (b.toNat - 0x80) else none

/-- The text as characters (`some`) and malformed parts (`none`). -/
def scan : List UInt8 → List (Option Char)
  | [] => []
  | b :: rest =>
    match lead b with
    | .single => some (Char.ofNat b.toNat) :: scan rest
    | .malformed => none :: scan rest
    | .opening bits tail low high =>
      match rest with
      | [] => [none]
      | b1 :: rest1 =>
        if b1.toNat < low ∨ high < b1.toNat then none :: scan (b1 :: rest1)
        else
          let n1 := bits * 64 + (b1.toNat - 0x80)
          if tail = 1 then some (Char.ofNat n1) :: scan rest1
          else
            match rest1 with
            | [] => [none]
            | b2 :: rest2 =>
              match continuation b2 with
              | none => none :: scan (b2 :: rest2)
              | some k2 =>
                let n2 := n1 * 64 + k2
                if tail = 2 then some (Char.ofNat n2) :: scan rest2
                else
                  match rest2 with
                  | [] => [none]
                  | b3 :: rest3 =>
                    match continuation b3 with
                    | none => none :: scan (b3 :: rest3)
                    | some k3 => some (Char.ofNat (n2 * 64 + k3)) :: scan rest3

/-- The text, unless a part of it is malformed. -/
def decode? (bytes : List UInt8) : Option (List Char) :=
  (scan bytes).mapM id

/-- The text with U+FFFD for each malformed part. -/
def decodeLenient (bytes : List UInt8) : List Char :=
  (scan bytes).map (·.getD '\uFFFD')

end GitLfs.Text.Utf8
