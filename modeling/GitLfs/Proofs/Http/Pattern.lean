import GitLfs.Proofs.Http.Fitting

/-!
# How path patterns are put together and how what fits them ends

No name in a pattern goes past a slash, so a text that starts with a slash is read apart from what
stands in front of it: `ofText_append`.

A path that fits a pattern ends the way the pattern does, apart from a line break that may follow.
`endsIn_of_fit?_chars` is about patterns that end in characters, `lookup_of_fit?_path` about those
that end in a parameter for the rest of the path.
-/

namespace GitLfs.Http.Pattern

/-! ## Reading a pattern -/

theorem takeWhile_append_slash {p : Char → Bool} (hp : p '/' = false) (s t : List Char) :
    (s ++ '/' :: t).takeWhile p = s.takeWhile p := by
  induction s with
  | nil => simp [hp]
  | cons c s ih =>
    rw [List.cons_append, List.takeWhile_cons, List.takeWhile_cons, ih]

theorem dropWhile_append_slash {p : Char → Bool} (hp : p '/' = false) (s t : List Char) :
    (s ++ '/' :: t).dropWhile p = s.dropWhile p ++ '/' :: t := by
  induction s with
  | nil => simp [hp]
  | cons c s ih =>
    rw [List.cons_append, List.dropWhile_cons, List.dropWhile_cons, ih]
    split <;> rfl

theorem readName?_append (s t : List Char) :
    readName? (s ++ '/' :: t) = (readName? s).map fun x => (x.1, x.2 ++ '/' :: t) := by
  unfold readName?
  rw [takeWhile_append_slash (by decide), dropWhile_append_slash (by decide)]
  cases s.takeWhile isNameChar with
  | nil => rfl
  | cons first rest =>
    dsimp only
    split <;> rfl

theorem readParameter?_append (s t : List Char) :
    readParameter? (s ++ '/' :: t) = (readParameter? s).map fun x => (x.1, x.2 ++ '/' :: t) := by
  unfold readParameter?
  rw [readName?_append]
  rcases readName? s with _ | ⟨name, _ | ⟨c, rest⟩⟩
  · rfl
  · rfl
  · simp only [Option.map_some, Option.bind_eq_bind, Option.bind_some, List.cons_append]
    by_cases hbrace : c = '\x7d'
    · subst hbrace
      rfl
    · by_cases hcolon : c = ':'
      · subst hcolon
        change (readName? (rest ++ '/' :: t)).bind _ = Option.map _ ((readName? rest).bind _)
        rw [readName?_append]
        rcases readName? rest with _ | ⟨kind, _ | ⟨d, rest⟩⟩
        · rfl
        · rfl
        · simp only [Option.map_some, Option.bind_some, List.cons_append]
          split <;> simp_all
      · split <;> simp_all

theorem length_of_readName? {s rest : List Char} {name : String}
    (h : readName? s = some (name, rest)) : rest.length ≤ s.length := by
  unfold readName? at h
  split at h
  · split at h
    · cases h
    · cases h
      exact (List.dropWhile_suffix _).length_le
  · cases h

theorem length_of_readParameter? {s rest : List Char} {p : Part}
    (h : readParameter? s = some (p, rest)) : rest.length ≤ s.length := by
  unfold readParameter? at h
  simp only [Option.bind_eq_bind, Option.bind_eq_some_iff] at h
  obtain ⟨⟨name, s₁⟩, hname, h⟩ := h
  have h₁ := length_of_readName? hname
  split at h
  · next heq =>
    have hs₁ := congrArg List.length heq
    rw [List.length_cons] at hs₁
    cases h
    dsimp only at hs₁
    omega
  · next heq =>
    obtain ⟨⟨kind, s₂⟩, hkind, h⟩ := Option.bind_eq_some_iff.1 h
    have h₂ := length_of_readName? hkind
    have hs₁ := congrArg List.length heq
    rw [List.length_cons] at hs₁
    dsimp only at hs₁ h
    split at h
    · cases h
      rw [List.length_cons] at h₂
      omega
    · cases h
  · cases h

/-- With enough fuel the pattern of a text does not depend on the fuel. -/
theorem ofCharsWithin_eq {fuel fuel' : Nat} {s : List Char} (h : s.length ≤ fuel)
    (h' : s.length ≤ fuel') : ofCharsWithin fuel s = ofCharsWithin fuel' s := by
  induction fuel generalizing fuel' s with
  | zero =>
    obtain rfl := List.eq_nil_of_length_eq_zero (Nat.le_zero.1 h)
    cases fuel' <;> rfl
  | succ fuel ih =>
    cases s with
    | nil => cases fuel' <;> rfl
    | cons c rest =>
      rw [List.length_cons] at h h'
      obtain ⟨fuel', rfl⟩ : ∃ n, fuel' = n + 1 := ⟨fuel' - 1, by omega⟩
      have hrest : ofCharsWithin fuel rest = ofCharsWithin fuel' rest := ih (by omega) (by omega)
      unfold ofCharsWithin
      rw [hrest]
      cases hp : readParameter? rest with
      | none => rfl
      | some x =>
        have hlen : x.2.length ≤ rest.length := length_of_readParameter? hp
        have hnext : ofCharsWithin fuel x.2 = ofCharsWithin fuel' x.2 := ih (by omega) (by omega)
        dsimp only
        rw [hnext]

theorem ofCharsWithin_append (t : List Char) {fuel fuel₁ fuel₂ : Nat} {s : List Char}
    (h : (s ++ '/' :: t).length ≤ fuel) (h₁ : s.length ≤ fuel₁) (h₂ : ('/' :: t).length ≤ fuel₂) :
    ofCharsWithin fuel (s ++ '/' :: t) =
      ofCharsWithin fuel₁ s ++ ofCharsWithin fuel₂ ('/' :: t) := by
  induction fuel generalizing fuel₁ s with
  | zero => simp at h
  | succ fuel ih =>
    cases s with
    | nil =>
      rw [List.nil_append] at h ⊢
      rw [ofCharsWithin_eq h h₂]
      cases fuel₁ <;> rfl
    | cons c rest =>
      rw [List.cons_append, List.length_cons] at h
      rw [List.length_cons] at h₁
      obtain ⟨fuel₁, rfl⟩ : ∃ n, fuel₁ = n + 1 := ⟨fuel₁ - 1, by omega⟩
      have hrest : ofCharsWithin fuel (rest ++ '/' :: t) =
          ofCharsWithin fuel₁ rest ++ ofCharsWithin fuel₂ ('/' :: t) := ih (by omega) (by omega)
      rw [List.cons_append, ofCharsWithin, ofCharsWithin, readParameter?_append, hrest]
      split
      · cases hp : readParameter? rest with
        | none => rfl
        | some x =>
          have hlen : x.2.length ≤ rest.length := length_of_readParameter? hp
          rw [List.length_append] at h
          have hnext : ofCharsWithin fuel (x.2 ++ '/' :: t) =
              ofCharsWithin fuel₁ x.2 ++ ofCharsWithin fuel₂ ('/' :: t) :=
            ih (by rw [List.length_append]; omega) (by omega)
          simp only [Option.map_some, List.cons_append]
          rw [hnext]
      · rfl

/-- A text that starts with a slash is read apart from what stands in front of it. -/
theorem ofText_append (a b : String) {t : List Char} (hb : b.toList = '/' :: t) :
    ofText (a ++ b) = ofText a ++ ofText b := by
  unfold ofText
  rw [String.toList_append, hb]
  refine ofCharsWithin_append t ?_ ?_ ?_ <;>
    simp only [← String.length_toList, String.toList_append, hb, Nat.le_refl]

/-! ## What fits a pattern -/

/-- What fits two patterns together falls into two parts, of which the second fits the second one. -/
theorem fit?_append {p q : Pattern} {s : List Char} {found : List (String × String)}
    (h : fit? (p ++ q) s = some found) :
    ∃ front back found₁ found₂, s = front ++ back ∧ fit? q back = some found₂ ∧
      found = found₁ ++ found₂ ∧ found₁.map Prod.fst = p.filterMap Part.name? := by
  obtain ⟨front, back, found₁, found₂, hs, -, hback, hfound, hnames, -⟩ := fit?_greedy h
  exact ⟨front, back, found₁, found₂, hs, hback, hfound, hnames⟩

/-- A path ends in a text, which a line break may follow. -/
def EndsIn (path text : List Char) : Prop :=
  ∃ front, path = front ++ text ∨ path = front ++ text ++ ['\n']

theorem EndsIn.of_append {path text more : List Char} (h : EndsIn path (more ++ text)) :
    EndsIn path text := by
  obtain ⟨front, h⟩ := h
  refine ⟨front ++ more, ?_⟩
  simpa only [List.append_assoc] using h

/-- A path has only one last character, apart from a line break. -/
theorem EndsIn.unique {path : List Char} {c d : Char} (hc : EndsIn path [c]) (hd : EndsIn path [d])
    (hcn : c ≠ '\n') (hdn : d ≠ '\n') : c = d := by
  obtain ⟨front, rfl | rfl⟩ := hc <;> obtain ⟨front', h | h⟩ := hd
  · exact (List.append_inj' h rfl).2 |> List.singleton_inj.1
  · exact absurd (List.singleton_inj.1 (List.append_inj' h rfl).2) hcn
  · exact absurd (List.singleton_inj.1 (List.append_inj' h rfl).2).symm hdn
  · have hfront := (List.append_inj' h rfl).1
    exact List.singleton_inj.1 (List.append_inj' hfront rfl).2

theorem endsIn_of_fit?_chars {p : Pattern} {text s : List Char} {found : List (String × String)}
    (h : fit? (p ++ text.map .char) s = some found) : EndsIn s text := by
  obtain ⟨front, back, _, _, rfl, hback, -, -⟩ := fit?_append h
  rw [fit?_chars] at hback
  by_cases hend : back = text ∨ back = text ++ ['\n']
  · rcases hend with rfl | rfl
    · exact ⟨front, Or.inl rfl⟩
    · exact ⟨front, Or.inr (List.append_assoc _ _ _).symm⟩
  · rw [if_neg hend] at hback
    cases hback

/-- A parameter for the rest of a path has what stands in front of a line break at its end. -/
theorem exists_of_fit?_rest {name : String} {s : List Char} {found : List (String × String)}
    (h : fit? [.parameter name .path] s = some found) :
    ∃ tail more, s = tail ++ more ∧ (more = [] ∨ more = ['\n']) ∧
      found = [(name, String.ofList tail)] := by
  rw [fit?] at h
  obtain ⟨n, -, hfit⟩ := List.exists_of_findSome?_eq_some h
  obtain ⟨later, hlater, rfl⟩ := Option.map_eq_some_iff.1 hfit
  rw [fit?] at hlater
  by_cases hend : s.drop n = [] ∨ s.drop n = ['\n']
  · rw [if_pos hend] at hlater
    cases hlater
    exact ⟨s.take n, s.drop n, (List.take_append_drop n s).symm, hend, rfl⟩
  · rw [if_neg hend] at hlater
    cases hlater

/-- What fits a text and a pattern together starts with the text. -/
theorem exists_of_fit?_chars_append {s t : List Char} {p : Pattern}
    {found : List (String × String)} (h : fit? (s.map .char ++ p) t = some found) :
    ∃ rest, t = s ++ rest ∧ fit? p rest = some found := by
  induction s generalizing t with
  | nil => exact ⟨t, rfl, h⟩
  | cons c s ih =>
    cases t with
    | nil => cases h
    | cons d t =>
      rw [List.map_cons, List.cons_append, fit?] at h
      split at h
      · next hcd =>
        obtain ⟨rest, rfl, hrest⟩ := ih h
        exact ⟨rest, by rw [hcd, List.cons_append], hrest⟩
      · cases h

/-- The text of a parameter for the rest of a path stands at the end of the path. -/
theorem lookup_of_fit?_path {p : Pattern} {name : String} {s : List Char}
    {found : List (String × String)} (hname : name ∉ p.filterMap Part.name?)
    (h : fit? (p ++ [.parameter name .path]) s = some found) :
    ∃ tail, found.lookup name = some (String.ofList tail) ∧ EndsIn s tail := by
  obtain ⟨front, back, found₁, found₂, rfl, hback, rfl, hnames⟩ := fit?_append h
  obtain ⟨tail, more, rfl, hmore, rfl⟩ := exists_of_fit?_rest hback
  have hnone : found₁.lookup name = none := by
    refine List.lookup_eq_none_iff.2 fun e he => ?_
    have hmem : e.1 ∈ found₁.map Prod.fst := List.mem_map_of_mem he
    rw [hnames] at hmem
    rw [bne_iff_ne]
    rintro rfl
    exact hname hmem
  refine ⟨tail, ?_, front, ?_⟩
  · rw [List.lookup_append, hnone]
    simp
  · rcases hmore with rfl | rfl
    · exact Or.inl (by rw [List.append_nil])
    · exact Or.inr (List.append_assoc _ _ _).symm

end GitLfs.Http.Pattern
