import GitLfs.Text.Blank

/-!
# What trimming leaves

Trimming cuts a text into blank characters, a text that has none at its ends, and blank characters
again, and a text can be cut so in one way only (`trim_eq_iff`).
-/

namespace GitLfs.Text

variable {p : Char → Bool} {s t before after : List Char}

/-- No character of the class stands at an end of the text. -/
structure Bare (p : Char → Bool) (s : List Char) : Prop where
  head : ∀ c ∈ s.head?, p c = false
  last : ∀ c ∈ s.getLast?, p c = false

theorem bare_of_forall (h : ∀ c ∈ s, p c = false) : Bare p s :=
  ⟨fun c hc => h c (List.mem_of_mem_head? hc), fun c hc => h c (List.mem_of_mem_getLast? hc)⟩

/-! ## At the start -/

theorem dropWhile_eq_self (h : ∀ c ∈ s.head?, p c = false) : s.dropWhile p = s := by
  cases s with
  | nil => rfl
  | cons c s =>
    have hc : ¬ p c = true := Bool.eq_false_iff.1 (h c rfl)
    exact List.dropWhile_cons_of_neg hc

theorem head_dropWhile {c : Char} (h : c ∈ (s.dropWhile p).head?) : p c = false := by
  have hhead := List.head?_dropWhile_not p s
  rw [Option.mem_def.1 h] at hhead
  exact hhead

/-! ## At the end -/

theorem trimEnd_eq_self (h : ∀ c ∈ s.getLast?, p c = false) : trimEnd p s = s := by
  have hhead : ∀ c ∈ s.reverse.head?, p c = false := by
    rwa [List.head?_reverse]
  rw [trimEnd, dropWhile_eq_self hhead, List.reverse_reverse]

theorem last_trimEnd {c : Char} (h : c ∈ (trimEnd p s).getLast?) : p c = false := by
  rw [trimEnd, List.getLast?_reverse] at h
  exact head_dropWhile h

theorem trimEnd_append (h : ∀ c ∈ after, p c = true) : trimEnd p (s ++ after) = trimEnd p s := by
  have hreverse : ∀ c ∈ after.reverse, p c = true := fun c hc => h c (List.mem_reverse.1 hc)
  rw [trimEnd, trimEnd, List.reverse_append, List.dropWhile_append_of_pos hreverse]

theorem exists_eq_trimEnd_append (p : Char → Bool) (s : List Char) :
    ∃ after, (∀ c ∈ after, p c = true) ∧ s = trimEnd p s ++ after := by
  refine ⟨(s.reverse.takeWhile p).reverse, fun c hc => ?_, ?_⟩
  · exact List.all_eq_true.1 List.all_takeWhile c (List.mem_reverse.1 hc)
  · rw [trimEnd, ← List.reverse_append, List.takeWhile_append_dropWhile, List.reverse_reverse]

/-! ## At both ends -/

theorem bare_trim (p : Char → Bool) (s : List Char) : Bare p (trim p s) where
  head c hc := by
    obtain ⟨after, -, heq⟩ := exists_eq_trimEnd_append p (s.dropWhile p)
    have hc' : c ∈ (s.dropWhile p).head? := by
      rw [heq, List.head?_append, show (trimEnd p (s.dropWhile p)).head? = some c from hc]
      rfl
    exact head_dropWhile hc'
  last _ hc := last_trimEnd hc

/-- What is cut off is blank. -/
theorem exists_eq_append_trim (p : Char → Bool) (s : List Char) :
    ∃ before after, (∀ c ∈ before, p c = true) ∧ (∀ c ∈ after, p c = true) ∧
      s = before ++ (trim p s ++ after) := by
  obtain ⟨after, hafter, heq⟩ := exists_eq_trimEnd_append p (s.dropWhile p)
  refine ⟨s.takeWhile p, after, List.all_eq_true.1 List.all_takeWhile, hafter, ?_⟩
  rw [trim, ← heq, List.takeWhile_append_dropWhile]

theorem trim_append_append (hs : Bare p s) (hbefore : ∀ c ∈ before, p c = true)
    (hafter : ∀ c ∈ after, p c = true) : trim p (before ++ (s ++ after)) = s := by
  rw [trim, List.dropWhile_append_of_pos hbefore]
  cases s with
  | nil =>
    rw [List.nil_append, dropWhile_eq_nil.2 hafter]
    rfl
  | cons c s =>
    have hhead : ∀ c' ∈ (c :: s ++ after).head?, p c' = false := fun c' hc' => hs.head c' hc'
    rw [dropWhile_eq_self hhead, trimEnd_append hafter, trimEnd_eq_self hs.last]

theorem Bare.trim_eq (h : Bare p s) : trim p s = s := by
  rw [trim, dropWhile_eq_self h.head, trimEnd_eq_self h.last]

/-- A text is bare when it begins and ends with texts that are so at their outer ends. -/
theorem bare_of_ends {middle : List Char} (hs : s ≠ []) (hhead : ∀ c ∈ s.head?, p c = false)
    (ht : t ≠ []) (hlast : ∀ c ∈ t.getLast?, p c = false) : Bare p (s ++ (middle ++ t)) where
  head c hc := by
    obtain ⟨first, s, rfl⟩ := List.exists_cons_of_ne_nil hs
    exact hhead c hc
  last c hc := by
    rw [← List.append_assoc, List.getLast?_append, List.getLast?_eq_some_getLast ht] at hc
    exact hlast c (List.getLast?_eq_some_getLast ht ▸ hc)

/-- The parts into which trimming cuts a text. -/
theorem trim_eq_iff :
    trim p s = t ↔ Bare p t ∧ ∃ before after, (∀ c ∈ before, p c = true) ∧
      (∀ c ∈ after, p c = true) ∧ s = before ++ (t ++ after) := by
  constructor
  · rintro rfl
    exact ⟨bare_trim p s, exists_eq_append_trim p s⟩
  · rintro ⟨ht, before, after, hbefore, hafter, rfl⟩
    exact trim_append_append ht hbefore hafter

end GitLfs.Text
