import GitLfs.Text.Quoted

/-!
# Texts that cannot be sent

A text from the host may hold halves of surrogate pairs. They are no characters: a text with one can
be kept and logged, and has no bytes. The words of a refusal may be such a text, and so may what a git
repository is asked for; whatever else is read, kept or answered is made of characters.
-/

namespace GitLfs.Text

/-- Half of a surrogate pair. -/
structure Half where
  unit : Nat
  first_le : 0xD800 ≤ unit
  lt_last : unit < 0xE000
  deriving DecidableEq, Repr

/-- A text in which halves may stand: the characters in front of the first of them, and each half with
the characters behind it. -/
structure Raw where
  front : String
  halves : List (Half × String)
  deriving DecidableEq, Repr

namespace Raw

/-- A text of characters. -/
def ofText (s : String) : Raw := ⟨s, []⟩

instance : Coe String Raw := ⟨ofText⟩

/-- The characters of a text that has no halves. -/
def plain? : Raw → Option String
  | ⟨s, []⟩ => some s
  | ⟨_, _ :: _⟩ => none

/-- The text with a sign in place of each half. -/
def shown (t : Raw) : String :=
  t.front ++ String.join (t.halves.map fun (_, rest) => "\ufffd" ++ rest)

/-- The text between quotation marks, with its halves escaped. -/
def quoted (t : Raw) : String :=
  let texts := t.front :: t.halves.map Prod.snd
  let delimiter := Quoted.mark (texts.flatMap String.toList)
  let escaped (s : String) : List Char := s.toList.flatMap (Quoted.escape delimiter)
  let halves := t.halves.flatMap fun (half, rest) =>
    '\\' :: 'u' :: Quoted.hex 4 half.unit ++ escaped rest
  String.ofList (delimiter :: escaped t.front ++ halves ++ [delimiter])

theorem plain?_ofText (s : String) : (ofText s).plain? = some s := rfl

theorem plain?_eq_some_iff {t : Raw} {s : String} : t.plain? = some s ↔ t = ofText s := by
  obtain ⟨front, halves⟩ := t
  cases halves with
  | nil => simp [plain?, ofText]
  | cons half halves => simp [plain?, ofText]

theorem shown_ofText (s : String) : (ofText s).shown = s := by
  simp [shown, ofText]

end Raw

end GitLfs.Text
