import GitLfs.Access.Principal
import GitLfs.Proofs.Text.Lower

/-!
# Which names requests can have

A request has the name that the transport has established, or else the one in its Authorization
header. `resolve_eq_none_iff` and `resolve_eq_some_iff` say which requests have no name and which have
which. The transport establishes no empty name, but a header can give one.
-/

namespace GitLfs.Principal

variable {header : Option String} {user : Option TransportUser} {name : String}

/-- The header is blank or missing. -/
def IsBlank (header : Option String) : Prop :=
  ∀ c ∈ (header.getD "").toList, Text.isSeparator c = true

/-- The header has Basic credentials in which a name stands in front of the first colon, or alone. -/
def Gives (header : Option String) (name : String) : Prop :=
  let words := schemeAndRest (Text.trim Text.isSeparator (header.getD "").toList)
  words.1.map Char.toLower = "basic".toList ∧
    ∃ decoded, decodeCredentials words.2 = some decoded ∧
      name.toList = decoded.takeWhile (· ≠ ':')

theorem Gives.not_isBlank (h : Gives header name) : ¬ IsBlank header := by
  intro hblank
  have htrim : Text.trim Text.isSeparator (header.getD "").toList = [] :=
    Text.trim_eq_nil_iff.2 hblank
  have hscheme := h.1
  rw [htrim] at hscheme
  cases hscheme

theorem ofAuthorization_eq_none_iff : ofAuthorization header = .ok none ↔ IsBlank header := by
  unfold ofAuthorization IsBlank
  rw [← Text.trim_eq_nil_iff]
  dsimp only
  constructor
  · intro h
    by_cases htrim : Text.trim Text.isSeparator (header.getD "").toList = []
    · exact htrim
    · rw [if_neg htrim] at h
      split at h
      · cases h
      · split at h <;> cases h
  · intro htrim
    rw [if_pos htrim]

/-- Nothing but the ASCII letters themselves has the small form of the scheme. -/
theorem lower_eq_basic_iff {scheme : List Char} :
    Text.lower scheme = "basic".toList ↔ scheme.map Char.toLower = "basic".toList :=
  Text.lower_eq_iff (Text.forall_of_all (by decide)) (by decide)

theorem ofAuthorization_eq_some_iff : ofAuthorization header = .ok (some name) ↔ Gives header name := by
  constructor
  · intro h
    unfold ofAuthorization at h
    dsimp only at h
    split at h
    · cases h
    · split at h
      · cases h
      · next hscheme =>
        split at h
        · cases h
        · next decoded hdecoded =>
          cases h
          exact ⟨lower_eq_basic_iff.1 (Classical.not_not.1 hscheme), decoded, hdecoded,
            String.toList_ofList⟩
  · intro h
    have htrim : Text.trim Text.isSeparator (header.getD "").toList ≠ [] :=
      fun htrim => h.not_isBlank (Text.trim_eq_nil_iff.1 htrim)
    obtain ⟨hscheme, decoded, hdecoded, hname⟩ := h
    unfold ofAuthorization
    dsimp only
    rw [if_neg htrim, if_neg (Classical.not_not.2 (lower_eq_basic_iff.2 hscheme)), hdecoded]
    dsimp only
    rw [← hname, String.ofList_toList]

/-- The transport establishes no empty name. -/
theorem ofTransport_ne_empty (user : Option TransportUser) : ofTransport user ≠ some "" := by
  unfold ofTransport
  split
  · split
    · intro h
      cases h
    · next hname => exact fun h => hname (Option.some.inj h)
  · intro h
    cases h

theorem resolve_ofTransport (user : Option TransportUser) (header : Option String) :
    resolve (ofTransport user) header =
      match ofTransport user with
      | some name => .ok (some name)
      | none => ofAuthorization header := by
  have hne := ofTransport_ne_empty user
  unfold resolve
  cases hname : ofTransport user with
  | none => rfl
  | some name =>
    rw [hname] at hne
    exact if_neg fun hempty => hne (congrArg some hempty)

/-- A request has no name when nobody gives one. -/
theorem resolve_eq_none_iff :
    resolve (ofTransport user) header = .ok none ↔ ofTransport user = none ∧ IsBlank header := by
  rw [resolve_ofTransport, ← ofAuthorization_eq_none_iff]
  cases ofTransport user <;> simp

/-- A request has a name when the transport has established it, or when it has established none and the
header gives it. -/
theorem resolve_eq_some_iff :
    resolve (ofTransport user) header = .ok (some name) ↔
      ofTransport user = some name ∨ ofTransport user = none ∧ Gives header name := by
  rw [resolve_ofTransport, ← ofAuthorization_eq_some_iff]
  cases ofTransport user <;> simp

/-- An empty name comes from a header. -/
theorem resolve_eq_empty_iff :
    resolve (ofTransport user) header = .ok (some "") ↔
      ofTransport user = none ∧ Gives header "" := by
  rw [resolve_eq_some_iff]
  constructor
  · rintro (h | h)
    · exact absurd h (ofTransport_ne_empty user)
    · exact h
  · exact Or.inr

end GitLfs.Principal
