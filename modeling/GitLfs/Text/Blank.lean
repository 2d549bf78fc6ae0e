/-!
# Blank characters

Three classes of blank character and the trimming that goes with them. Which class applies is a
decision of the caller: request fields drop `isBlank`, credentials drop `isSeparator`, and a request
body is empty when it holds nothing but `isAsciiBlank`.

`trim_eq_nil_iff`: nothing is left after trimming exactly when every character was blank.
-/

namespace GitLfs.Text

/-- The characters with the Unicode property White_Space. -/
def isBlank (c : Char) : Bool :=
  let n := c.toNat
  (9 ≤ n && n ≤ 13) || n == 0x20 || n == 0x85 || n == 0xA0 || n == 0x1680 ||
    (0x2000 ≤ n && n ≤ 0x200A) || n == 0x2028 || n == 0x2029 || n == 0x202F || n == 0x205F ||
    n == 0x3000

/-- White_Space together with the four information separators U+001C to U+001F. -/
def isSeparator (c : Char) : Bool :=
  isBlank c || (0x1C ≤ c.toNat && c.toNat ≤ 0x1F)

/-- The six blank characters of ASCII: tab to carriage return, and the space. -/
def isAsciiBlank (c : Char) : Bool :=
  (9 ≤ c.toNat && c.toNat ≤ 13) || c.toNat == 0x20

/-- The text without the characters of the class `p` at its end. -/
def trimEnd (p : Char → Bool) (s : List Char) : List Char :=
  (s.reverse.dropWhile p).reverse

/-- The text without the characters of the class `p` at either end. -/
def trim (p : Char → Bool) (s : List Char) : List Char :=
  trimEnd p (s.dropWhile p)

/-- `trim` on strings. -/
def trimmed (p : Char → Bool) (s : String) : String :=
  String.ofList (trim p s.toList)

theorem isSeparator_of_isBlank {c : Char} (h : isBlank c = true) : isSeparator c = true := by
  simp [isSeparator, h]

theorem isBlank_of_isAsciiBlank {c : Char} (h : isAsciiBlank c = true) : isBlank c = true := by
  simp only [isAsciiBlank, Bool.or_eq_true] at h
  rcases h with h | h <;> simp [isBlank, h]

theorem dropWhile_eq_nil {p : Char → Bool} {s : List Char} :
    s.dropWhile p = [] ↔ ∀ c ∈ s, p c = true := by
  induction s with
  | nil => simp
  | cons c r ih => by_cases h : p c = true <;> simp [List.dropWhile, h, ih]

theorem trim_eq_nil_iff {p : Char → Bool} {s : List Char} :
    trim p s = [] ↔ ∀ c ∈ s, p c = true := by
  constructor
  · intro h
    have h' : (s.dropWhile p).reverse.dropWhile p = [] := by
      simpa [trim, trimEnd] using h
    rw [dropWhile_eq_nil] at h'
    by_cases hs : s.dropWhile p = []
    · exact dropWhile_eq_nil.1 hs
    · exfalso
      have hhead := List.head_dropWhile_not p hs
      have := h' _ (List.mem_reverse.2 (List.head_mem hs))
      simp_all
  · intro h
    simp [trim, trimEnd, dropWhile_eq_nil.2 h]

end GitLfs.Text
