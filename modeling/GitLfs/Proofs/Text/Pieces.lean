import GitLfs.Text.Pieces

/-!
# Pieces that are joined are cut again

Texts without a character, joined by that character, are the pieces between its occurrences.
-/

namespace GitLfs.Text

variable {sep : Char} {piece rest : List Char}

theorem pieces_of_notMem (h : sep ∉ piece) : pieces sep piece = [piece] := by
  induction piece with
  | nil => rfl
  | cons c piece ih =>
    obtain ⟨hc, hpiece⟩ := not_or.1 (mt List.mem_cons.2 h)
    rw [pieces, if_neg (Ne.symm hc), ih hpiece]

/-- Where the character stands, a text may be cut in two before it is cut into pieces. -/
theorem pieces_append_cons (sep : Char) (front rest : List Char) :
    pieces sep (front ++ sep :: rest) = pieces sep front ++ pieces sep rest := by
  induction front with
  | nil => exact if_pos rfl
  | cons c front ih =>
    rw [List.cons_append, pieces, pieces, ih]
    by_cases hc : c = sep
    · rw [if_pos hc, if_pos hc, List.cons_append]
    · rw [if_neg hc, if_neg hc]
      cases hfront : pieces sep front with
      | nil => exact absurd hfront (pieces_ne_nil sep front)
      | cons piece more => rfl

/-- The first piece ends where the character first occurs. -/
theorem pieces_append (h : sep ∉ piece) :
    pieces sep (piece ++ sep :: rest) = piece :: pieces sep rest := by
  rw [pieces_append_cons, pieces_of_notMem h]
  rfl

theorem pieces_replicate (sep : Char) (n : Nat) :
    pieces sep (List.replicate n sep) = List.replicate (n + 1) [] := by
  induction n with
  | zero => rfl
  | succ n ih =>
    rw [List.replicate_succ, pieces, if_pos rfl, ih]
    rfl

/-- Between the characters at the end there are empty pieces. -/
theorem pieces_append_replicate (h : sep ∉ piece) (n : Nat) :
    pieces sep (piece ++ List.replicate n sep) = piece :: List.replicate n [] := by
  cases n with
  | zero =>
    rw [List.replicate_zero, List.append_nil]
    exact pieces_of_notMem h
  | succ n => rw [List.replicate_succ, pieces_append h, pieces_replicate]

theorem cutAt?_append (h : sep ∉ piece) : cutAt? sep (piece ++ sep :: rest) = some (piece, rest) := by
  induction piece with
  | nil =>
    rw [List.nil_append, cutAt?, if_pos rfl]
  | cons c piece ih =>
    obtain ⟨hc, hpiece⟩ := not_or.1 (mt List.mem_cons.2 h)
    rw [List.cons_append, cutAt?, if_neg (Ne.symm hc), ih hpiece]
    rfl

theorem pieces_join {all : List (List Char)} (hne : all ≠ []) (h : ∀ piece ∈ all, sep ∉ piece) :
    pieces sep (join sep all) = all := by
  induction all with
  | nil => exact absurd rfl hne
  | cons piece more ih =>
    have hpiece : sep ∉ piece := h piece List.mem_cons_self
    cases more with
    | nil => exact pieces_of_notMem hpiece
    | cons next more =>
      have hmore := ih (List.cons_ne_nil _ _) fun p hp => h p (List.mem_cons_of_mem _ hp)
      rw [join, pieces_append hpiece, hmore]
      exact List.cons_ne_nil _ _

end GitLfs.Text
