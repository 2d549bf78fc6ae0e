import GitLfs.Proofs.Text.Utf8
import GitLfs.Text.Lower

/-!
# Which words have a given small form

Outside ASCII there are two characters whose small form begins with an ASCII letter: the Kelvin sign,
whose small form is `k`, and the marked `I`, whose small form goes on with its mark. So a word of ASCII
characters without a `k` is the small form of no other words than those that differ from it in the case
of their ASCII letters.
-/

namespace GitLfs.Text

variable {s t : List Char} {c : Char}

/-- What can be tested of a character can be tested of all characters of a text. -/
theorem forall_of_all {p : Char → Prop} [DecidablePred p] (h : s.all (p ·) = true) : ∀ c ∈ s, p c :=
  fun c hc => of_decide_eq_true (List.all_eq_true.1 h c hc)

theorem toLower_of_not_ascii (h : 0x80 ≤ c.toNat) : c.toLower = c := by
  have hupper : ¬ (c.val ≥ 'A'.val ∧ c.val ≤ 'Z'.val) := by
    rintro ⟨-, hle⟩
    have hle' : c.toNat ≤ 'Z'.toNat := hle
    have hz : 'Z'.toNat = 0x5A := rfl
    omega
  unfold Char.toLower
  exact dif_neg hupper

theorem lowerChar_ascii (h : c.toNat < 0x80) : lowerChar c = [c.toLower] :=
  if_pos h

/-- The images of a run are characters outside ASCII, or the run is the Kelvin sign alone. -/
theorem image_of_mem_lowerRuns :
    ∀ run ∈ lowerRuns, 0x80 ≤ run.2.2.2 ∧ run.2.2.2 + (run.2.1 - run.1) < 0xD800 ∨
      0xDFFF < run.2.2.2 ∧ run.2.2.2 + (run.2.1 - run.1) < 0x110000 ∨
      run.1 = run.2.1 ∧ run.2.2.2 = 'k'.toNat := by
  decide +kernel

/-- The small form of a character outside ASCII holds such a character, or is `k`. -/
theorem lowerChar_of_not_ascii (h : 0x80 ≤ c.toNat) :
    (∃ c' ∈ lowerChar c, 0x80 ≤ c'.toNat) ∨ lowerChar c = ['k'] := by
  unfold lowerChar
  dsimp only
  rw [if_neg (by omega)]
  split
  · exact .inl ⟨'\u0307', by decide, by decide⟩
  · split
    · next first last step image hfind =>
      have hmem := image_of_mem_lowerRuns _ (List.mem_of_find?_eq_some hfind)
      have hrange := List.find?_some hfind
      simp only [Bool.and_eq_true, decide_eq_true_eq] at hmem hrange
      rcases hmem with hlow | hhigh | ⟨hone, hk⟩
      · refine .inl ⟨_, List.mem_singleton_self _, ?_⟩
        rw [Utf8.toNat_ofNat (.inl (by omega))]
        omega
      · refine .inl ⟨_, List.mem_singleton_self _, ?_⟩
        rw [Utf8.toNat_ofNat (.inr (by omega))]
        omega
      · have hat : c.toNat - first = 0 := by omega
        rw [hk, hat]
        exact .inr rfl
    · exact .inl ⟨c, List.mem_singleton_self _, h⟩

/-- An ASCII text without a `k` is the small form of the texts that differ from it in the case of ASCII
letters, and of no others. -/
theorem lower_eq_iff (hascii : ∀ c ∈ t, c.toNat < 0x80) (hk : 'k' ∉ t) :
    lower s = t ↔ s.map Char.toLower = t := by
  unfold lower
  induction s generalizing t with
  | nil => rfl
  | cons c s ih =>
    rw [List.flatMap_cons, List.map_cons]
    rcases Nat.lt_or_ge c.toNat 0x80 with hc | hc
    · rw [lowerChar_ascii hc]
      cases t with
      | nil => simp
      | cons d t =>
        have hrest := ih (t := t) (fun c' hc' => hascii c' (List.mem_cons_of_mem _ hc'))
          fun hmem => hk (List.mem_cons_of_mem _ hmem)
        rw [List.singleton_append, List.cons.injEq, List.cons.injEq, hrest]
    · rw [toLower_of_not_ascii hc]
      constructor
      · intro he
        rcases lowerChar_of_not_ascii hc with ⟨c', hc', hlarge⟩ | hone
        · have := hascii c' (he ▸ List.mem_append_left _ hc')
          omega
        · exact absurd (he ▸ List.mem_append_left _ (hone ▸ List.mem_singleton_self _)) hk
      · intro he
        have := hascii c (he ▸ List.mem_cons_self)
        omega

end GitLfs.Text
