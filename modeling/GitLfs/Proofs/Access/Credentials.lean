import GitLfs.Proofs.Access.Principal
import GitLfs.Proofs.Text.Base64
import GitLfs.Proofs.Text.Blank
import GitLfs.Proofs.Text.Utf8
import Mathlib.Data.List.Forall2

/-!
# What Basic credentials stand for

`Presents` says how credentials stand in a header, and `Carries` which name they then give: the one in
front of the first colon of the text whose bytes they write in base64. `gives_iff` ties both to what the
gateway does with the header, and `credentials_decoded` says what comes of every header. Credentials
that are written for a name and a password give the name back.
-/

namespace GitLfs.Principal

open Text (isSeparator trim)
open Text.Base64 (IsBase64 Overfilled padded)

variable {header : Option String} {name : String} {s scheme gap credentials text : List Char}

/-! ## The parts of a header -/

/-- The word is the name of the scheme, with small or capital ASCII letters. -/
def IsScheme (word : List Char) : Prop :=
  List.Forall₂ (fun c letter => c = letter ∨ c = letter.toUpper) word "basic".toList

theorem toLower_eq_iff {c letter : Char} (h : letter ∈ "basic".toList) :
    c.toLower = letter ↔ c = letter ∨ c = letter.toUpper := by
  have hascii : ∀ letter ∈ "basic".toList, ∀ n < 0x80,
      (Char.ofNat n).toLower = letter ↔ Char.ofNat n = letter ∨ Char.ofNat n = letter.toUpper :=
    Text.forall_of_all (by decide)
  have hlarge : ∀ letter ∈ "basic".toList, ¬ 0x80 ≤ letter.toUpper.toNat :=
    Text.forall_of_all (by decide)
  rcases Nat.lt_or_ge c.toNat 0x80 with hc | hc
  · rw [← Char.ofNat_toNat c]
    exact hascii letter h c.toNat hc
  · rw [Text.toLower_of_not_ascii hc]
    exact (or_iff_left fun he : c = letter.toUpper => hlarge letter h (he ▸ hc)).symm

theorem isScheme_iff : IsScheme scheme ↔ scheme.map Char.toLower = "basic".toList := by
  have hword : ∀ letters : List Char, (∀ letter ∈ letters, letter ∈ "basic".toList) → ∀ word,
      List.Forall₂ (fun c letter => c = letter ∨ c = letter.toUpper) word letters ↔
        word.map Char.toLower = letters := by
    intro letters hletters
    induction letters with
    | nil => simp
    | cons letter letters ih =>
      intro word
      have hletter := hletters letter List.mem_cons_self
      have hmore := ih fun l hl => hletters l (List.mem_cons_of_mem _ hl)
      cases word with
      | nil => simp
      | cons c word =>
        rw [List.forall₂_cons, List.map_cons, List.cons.injEq, toLower_eq_iff hletter, hmore]
  exact hword _ (fun _ h => h) scheme

theorem IsScheme.ne_separator (h : IsScheme scheme) : ∀ c ∈ scheme, isSeparator c = false := by
  have hletters : ∀ letter ∈ "basic".toList,
      isSeparator letter = false ∧ isSeparator letter.toUpper = false :=
    Text.forall_of_all (by decide)
  intro c hc
  have hmem : c.toLower ∈ "basic".toList := isScheme_iff.1 h ▸ List.mem_map_of_mem hc
  rcases (toLower_eq_iff hmem).1 rfl with hsmall | hlarge
  · rw [hsmall]
    exact (hletters _ hmem).1
  · rw [hlarge]
    exact (hletters _ hmem).2

theorem IsScheme.ne_nil (h : IsScheme scheme) : scheme ≠ [] := by
  rintro rfl
  cases h

/-- The header is the scheme, blanks and then the credentials, with any blanks around them. -/
def Presents (header : Option String) (credentials : List Char) : Prop :=
  ∃ before scheme gap after : List Char,
    (header.getD "").toList = before ++ (scheme ++ (gap ++ credentials) ++ after) ∧
    IsScheme scheme ∧ gap ≠ [] ∧ credentials ≠ [] ∧ Text.Bare isSeparator credentials ∧
    (∀ c ∈ before, isSeparator c = true) ∧ (∀ c ∈ gap, isSeparator c = true) ∧
    ∀ c ∈ after, isSeparator c = true

theorem schemeAndRest_append (hscheme : ∀ c ∈ scheme, isSeparator c = false) (hgap : gap ≠ [])
    (hblank : ∀ c ∈ gap, isSeparator c = true) (hbare : Text.Bare isSeparator credentials) :
    schemeAndRest (scheme ++ (gap ++ credentials)) = (scheme, credentials) := by
  have hword : ∀ c ∈ scheme, (!isSeparator c) = true := fun c hc => by rw [hscheme c hc]; rfl
  have htrim : trim isSeparator (gap ++ (credentials ++ [])) = credentials :=
    Text.trim_append_append hbare hblank fun c hc => absurd hc List.not_mem_nil
  obtain ⟨first, gap, rfl⟩ := List.exists_cons_of_ne_nil hgap
  have hfirst : isSeparator first = true := hblank first List.mem_cons_self
  have htake : (first :: gap ++ credentials).takeWhile (!isSeparator ·) = [] := by simp [hfirst]
  have hdrop : (first :: gap ++ credentials).dropWhile (!isSeparator ·) =
      first :: gap ++ credentials := by simp [hfirst]
  rw [List.append_nil] at htrim
  rw [schemeAndRest, List.takeWhile_append_of_pos hword, List.dropWhile_append_of_pos hword, htake,
    hdrop, htrim, List.append_nil]

/-- Between the first word of a text and the rest there are blanks, if there is a rest. -/
theorem exists_eq_schemeAndRest (hrest : (schemeAndRest s).2 ≠ []) :
    ∃ gap after, s = (schemeAndRest s).1 ++ (gap ++ (schemeAndRest s).2) ++ after ∧ gap ≠ [] ∧
      (∀ c ∈ gap, isSeparator c = true) ∧ ∀ c ∈ after, isSeparator c = true := by
  obtain ⟨gap, after, hgap, hafter, heq⟩ :=
    Text.exists_eq_append_trim isSeparator (s.dropWhile (!isSeparator ·))
  refine ⟨gap, after, ?_, ?_, hgap, hafter⟩
  · rw [schemeAndRest, List.append_assoc, List.append_assoc, ← heq, List.takeWhile_append_dropWhile]
  · rintro rfl
    -- the rest would begin where the first word ends, and so with a blank
    obtain ⟨c, rest, hc⟩ := List.exists_cons_of_ne_nil hrest
    have hc' : trim isSeparator (s.dropWhile (!isSeparator ·)) = c :: rest := hc
    have hblank : (!isSeparator c) = false := by
      refine Text.head_dropWhile (p := (!isSeparator ·)) (s := s) ?_
      rw [heq, hc']
      rfl
    have hbare : isSeparator c = false :=
      (Text.bare_trim isSeparator (s.dropWhile (!isSeparator ·))).head c (by rw [hc']; rfl)
    rw [hbare] at hblank
    cases hblank

/-- What the gateway takes for scheme and credentials is what the header presents. -/
theorem presents_iff :
    Presents header credentials ↔
      IsScheme (schemeAndRest (trim isSeparator (header.getD "").toList)).1 ∧
        (schemeAndRest (trim isSeparator (header.getD "").toList)).2 = credentials ∧
        credentials ≠ [] := by
  constructor
  · rintro ⟨before, scheme, gap, after, htext, hscheme, hgap, hne, hbare, hbefore, hblank, hafter⟩
    have hword := hscheme.ne_separator
    have hbody : Text.Bare isSeparator (scheme ++ (gap ++ credentials)) :=
      Text.bare_of_ends hscheme.ne_nil (fun c hc => hword c (List.mem_of_mem_head? hc)) hne hbare.last
    have htrim : trim isSeparator (header.getD "").toList = scheme ++ (gap ++ credentials) := by
      rw [htext]
      exact Text.trim_append_append hbody hbefore hafter
    rw [htrim, schemeAndRest_append hword hgap hblank hbare]
    exact ⟨hscheme, rfl, hne⟩
  · rintro ⟨hscheme, rfl, hne⟩
    obtain ⟨before, after, hbefore, hafter, htext⟩ :=
      Text.exists_eq_append_trim isSeparator (header.getD "").toList
    obtain ⟨gap, after', heq, hgap, hblank, hafter'⟩ := exists_eq_schemeAndRest hne
    refine ⟨before, _, gap, after' ++ after, ?_, hscheme, hgap, hne, Text.bare_trim _ _, hbefore,
      hblank, fun c hc => (List.mem_append.1 hc).elim (hafter' c) (hafter c)⟩
    rw [← List.append_assoc _ after', ← heq, ← htext]

/-! ## What credentials give -/

/-- The header has credentials that stand for the bytes of a text, in the given sense of standing for
bytes, once they are filled up with `=`. The name is what is in front of the first colon of this text,
or all of it. -/
def Carries (stands : List Char → List UInt8 → Prop) (header : Option String) (name : String) : Prop :=
  ∃ credentials text, Presents header credentials ∧
    stands (padded credentials) (Text.Utf8.encode text) ∧ name.toList = text.takeWhile (· ≠ ':')

theorem decodeCredentials_eq_some_iff :
    decodeCredentials credentials = some text ↔ credentials ≠ [] ∧
      (IsBase64 (padded credentials) (Text.Utf8.encode text) ∨
        Overfilled (padded credentials) (Text.Utf8.encode text)) := by
  unfold decodeCredentials
  by_cases hne : credentials = []
  · rw [if_pos hne]
    exact ⟨(nomatch ·), fun h => absurd hne h.1⟩
  · rw [if_neg hne, Option.bind_eq_some_iff, ← Text.Base64.decode?_eq_some_iff]
    constructor
    · rintro ⟨bytes, hbytes, htext⟩
      obtain rfl := Text.Utf8.decode?_eq_some_iff.1 htext
      exact ⟨hne, hbytes⟩
    · rintro ⟨-, hbytes⟩
      exact ⟨_, hbytes, Text.Utf8.decode?_encode text⟩

/-- Strict base64 gives a name, and so do credentials with `=` behind complete groups. -/
theorem gives_iff :
    Gives header name ↔ Carries IsBase64 header name ∨ Carries Overfilled header name := by
  constructor
  · rintro ⟨hscheme, text, htext, hname⟩
    obtain ⟨hne, hstands⟩ := decodeCredentials_eq_some_iff.1 htext
    have hpresents : Presents header _ := presents_iff.2 ⟨isScheme_iff.2 hscheme, rfl, hne⟩
    exact hstands.imp (fun h => ⟨_, text, hpresents, h, hname⟩) fun h => ⟨_, text, hpresents, h, hname⟩
  · rintro (⟨credentials, text, hpresents, hstands, hname⟩ |
      ⟨credentials, text, hpresents, hstands, hname⟩)
    all_goals obtain ⟨hscheme, rfl, hne⟩ := presents_iff.1 hpresents
    · exact ⟨isScheme_iff.1 hscheme, text, decodeCredentials_eq_some_iff.2 ⟨hne, .inl hstands⟩, hname⟩
    · exact ⟨isScheme_iff.1 hscheme, text, decodeCredentials_eq_some_iff.2 ⟨hne, .inr hstands⟩, hname⟩

/-- A header that is not blank and gives no name is refused as invalid. -/
theorem ofAuthorization_refusal {e : Refusal} (h : ofAuthorization header = .error e) :
    ∃ message, e = .validation message := by
  unfold ofAuthorization at h
  dsimp only at h
  split at h
  · cases h
  · split at h
    · cases h
      exact ⟨_, rfl⟩
    · split at h
      · cases h
        exact ⟨_, rfl⟩
      · cases h

/-! ## Credentials for a name and a password -/

/-- The text that credentials for a name and a password are written for. -/
def userInfo (user password : String) : List Char :=
  user.toList ++ ':' :: password.toList

theorem takeWhile_userInfo {user : String} (h : ':' ∉ user.toList) (password : String) :
    (userInfo user password).takeWhile (· ≠ ':') = user.toList := by
  have hall : ∀ c ∈ user.toList, decide (c ≠ ':') = true := fun c hc =>
    decide_eq_true fun he => h (he ▸ hc)
  rw [userInfo, List.takeWhile_append_of_pos hall, List.takeWhile_cons_of_neg (by decide),
    List.append_nil]

theorem encode_userInfo_ne_nil (user password : String) :
    Text.Utf8.encode (userInfo user password) ≠ [] := by
  intro hnil
  have hread := Text.Utf8.decode?_encode (userInfo user password)
  rw [hnil] at hread
  exact List.append_ne_nil_of_right_ne_nil _ (List.cons_ne_nil _ _) (Option.some.inj hread).symm

/-- Written credentials are not empty and have no blank at their ends, whatever of the `=` at their end
is left out. -/
theorem written_bare {bytes : List UInt8} (hbytes : bytes ≠ []) {k : Nat}
    (h : credentials ++ List.replicate k '=' = Text.Base64.encode bytes) :
    credentials ≠ [] ∧ Text.Bare isSeparator credentials := by
  have hencode := Text.Base64.isBase64_encode bytes
  rw [← h] at hencode
  have halphabet : ∀ c ∈ Text.Base64.alphabet, isSeparator c = false :=
    Text.forall_of_all (by decide)
  refine ⟨?_, Text.bare_of_forall fun c hc => ?_⟩
  · rintro rfl
    cases k with
    | zero =>
      cases hencode
      exact hbytes rfl
    | succ k => exact hencode.head_ne_pad rfl
  · rcases hencode.mem_alphabet c (List.mem_append_left _ hc) with hmem | rfl
    · exact halphabet c hmem
    · decide

/-- What comes of the Authorization header of a request.

Nobody is named when it is blank or missing. A name is given when the header is the scheme, in whatever
case its ASCII letters are, blanks, and credentials which are, filled up with `=`, strict base64 for the
UTF-8 bytes of a text: the name is what is in front of the first colon of this text, or all of it. So it
is when the credentials have complete groups only and `=` behind them. Every other header is refused as
invalid.

In particular a name without a colon comes back from the credentials that are written for it and any
password, wherever the `=` at their end are left out and whatever blanks stand around them. -/
theorem credentials_decoded (header : Option String) :
    (ofAuthorization header = .ok none ↔ IsBlank header) ∧
    (∀ name, ofAuthorization header = .ok (some name) ↔
      Carries IsBase64 header name ∨ Carries Overfilled header name) ∧
    ((¬ IsBlank header ∧ ∀ name, ¬ Carries IsBase64 header name ∧ ¬ Carries Overfilled header name) →
      ∃ message, ofAuthorization header = .error (.validation message)) ∧
    ∀ (user password : String) (before scheme gap credentials after : List Char) (k : Nat),
      ':' ∉ user.toList → IsScheme scheme → gap ≠ [] →
      (∀ c ∈ before ++ gap ++ after, isSeparator c = true) →
      credentials ++ List.replicate k '=' =
        Text.Base64.encode (Text.Utf8.encode (userInfo user password)) →
      (header.getD "").toList = before ++ (scheme ++ (gap ++ credentials) ++ after) →
      ofAuthorization header = .ok (some user) := by
  have hname : ∀ name, ofAuthorization header = .ok (some name) ↔
      Carries IsBase64 header name ∨ Carries Overfilled header name := fun name =>
    ofAuthorization_eq_some_iff.trans gives_iff
  refine ⟨ofAuthorization_eq_none_iff, hname, fun hnone => ?_, ?_⟩
  · cases hanswer : ofAuthorization header with
    | error e =>
      obtain ⟨message, rfl⟩ := ofAuthorization_refusal hanswer
      exact ⟨message, rfl⟩
    | ok user =>
      cases user with
      | none => exact absurd (ofAuthorization_eq_none_iff.1 hanswer) hnone.1
      | some name =>
        exact absurd ((hname name).1 hanswer) (not_or.2 (hnone.2 name))
  · intro user password before scheme gap credentials after k huser hscheme hgap hblank hwritten htext
    obtain ⟨hne, hbare⟩ := written_bare (encode_userInfo_ne_nil user password) hwritten
    have hpresents : Presents header credentials :=
      ⟨before, scheme, gap, after, htext, hscheme, hgap, hne, hbare,
        fun c hc => hblank c (List.mem_append_left _ (List.mem_append_left _ hc)),
        fun c hc => hblank c (List.mem_append_left _ (List.mem_append_right _ hc)),
        fun c hc => hblank c (List.mem_append_right _ hc)⟩
    refine (hname user).2 (.inl ⟨credentials, userInfo user password, hpresents, ?_, ?_⟩)
    · rw [Text.Base64.padded_of_encode hwritten]
      exact Text.Base64.isBase64_encode _
    · exact (takeWhile_userInfo huser password).symm

/-- Credentials without their padding, for a name and a password with a colon in it. -/
def unpadded : Option String := some " BaSiC \tYW5uOng6eQ "

theorem credentials_decoded_unpadded :
    ':' ∉ "ann".toList ∧ IsScheme "BaSiC".toList ∧
      "YW5uOng6eQ".toList ++ List.replicate 2 '=' =
        Text.Base64.encode (Text.Utf8.encode (userInfo "ann" "x:y")) ∧
      ofAuthorization unpadded = .ok (some "ann") := by
  have huser : ':' ∉ "ann".toList := by decide
  have hscheme : IsScheme "BaSiC".toList := isScheme_iff.2 (by decide)
  have hwritten : "YW5uOng6eQ".toList ++ List.replicate 2 '=' =
      Text.Base64.encode (Text.Utf8.encode (userInfo "ann" "x:y")) := by decide
  exact ⟨huser, hscheme, hwritten, (credentials_decoded unpadded).2.2.2 "ann" "x:y" [' '] _
    [' ', '\t'] _ [' '] 2 huser hscheme (List.cons_ne_nil _ _) (Text.forall_of_all (by decide)) hwritten
    (by decide)⟩

/-- Credentials with a complete group and `=` behind it. -/
def overfull : Option String := some "Basic YWJj===="

theorem presents_overfull :
    Presents overfull credentials ↔ credentials = "YWJj====".toList := by
  have hwords : schemeAndRest (trim isSeparator (overfull.getD "").toList) =
      ("Basic".toList, "YWJj====".toList) := by decide
  rw [presents_iff, hwords]
  constructor
  · rintro ⟨-, rfl, -⟩
    rfl
  · rintro rfl
    exact ⟨isScheme_iff.2 (by decide), rfl, by decide⟩

/-- No strict base64 is in this header, and yet it gives a name. -/
theorem overfull_gives_name :
    ofAuthorization overfull = .ok (some "abc") ∧ ∀ name, ¬ Carries IsBase64 overfull name := by
  have hpadded : padded "YWJj====".toList = ['Y', 'W', 'J', 'j', '=', '=', '=', '='] := by decide
  constructor
  · have hgroup : Text.Base64.encode (Text.Utf8.encode "abc".toList) = "YWJj".toList := by decide
    have hfront := Text.Base64.isBase64_encode (Text.Utf8.encode "abc".toList)
    rw [hgroup] at hfront
    refine ofAuthorization_eq_some_iff.2 (gives_iff.2 (.inr
      ⟨_, "abc".toList, presents_overfull.2 rfl, ⟨_, 3, ?_, ?_, hfront, hpadded⟩, by decide⟩))
    all_goals decide
  · rintro name ⟨credentials, text, hpresents, hstands, -⟩
    obtain rfl := presents_overfull.1 hpresents
    have hcount := hstands.count_pad
    rw [hpadded] at hcount
    exact absurd hcount (by decide)

end GitLfs.Principal
