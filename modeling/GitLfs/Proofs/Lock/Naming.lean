import GitLfs.Lock.Request
import GitLfs.Proofs.Text.Blank
import GitLfs.Proofs.Text.Pieces

/-!
# How an address names a lock

The rest of the address of a request to release a lock names the lock by its identifier, in front of
`/unlock` and any number of slashes: `NamedBy`. An identifier is found just where one is named
(`idOfUnlockPath_eq_ok_iff`); anything else is refused with the same words
(`idOfUnlockPath_eq_error_iff`).
-/

namespace GitLfs.Lock

variable {tail id id' : String}

/-- The rest of an address names a lock: the identifier stands in front, is not empty and has no
slash; `/unlock` follows, and then nothing but slashes. -/
structure NamedBy (tail id : String) : Prop where
  ne_empty : id ≠ ""
  slash_notMem : '/' ∉ id.toList
  eq_append : ∃ n, tail.toList = id.toList ++ "/unlock".toList ++ List.replicate n '/'

namespace NamedBy

/-- Each identifier of a segment is named, with as many slashes behind it as one likes. -/
theorem of_append (hne : id ≠ "") (hslash : '/' ∉ id.toList) (n : Nat) :
    NamedBy (id ++ "/unlock" ++ String.ofList (List.replicate n '/')) id where
  ne_empty := hne
  slash_notMem := hslash
  eq_append := ⟨n, by simp only [String.toList_append, String.toList_ofList]⟩

/-- There are two pieces between slashes, apart from the slashes at the end. -/
theorem pieces_eq (h : NamedBy tail id) :
    Text.pieces '/' (Text.trimEnd (· = '/') tail.toList) = [id.toList, "unlock".toList] := by
  obtain ⟨n, htail⟩ := h.eq_append
  have hslashes : ∀ c ∈ List.replicate n '/', decide (c = '/') = true := fun c hc =>
    decide_eq_true (List.eq_of_mem_replicate hc)
  have hlast : ∀ c ∈ (id.toList ++ '/' :: "unlock".toList).getLast?, decide (c = '/') = false := by
    intro c hc
    have hk : c = 'k' := by simpa using hc.symm
    rw [hk]
    decide
  have hword : "/unlock".toList = '/' :: "unlock".toList := rfl
  rw [htail, Text.trimEnd_append hslashes, hword, Text.trimEnd_eq_self hlast,
    Text.pieces_append h.slash_notMem, Text.pieces_of_notMem (by decide)]

/-- No more than one lock is named. -/
theorem unique (h : NamedBy tail id) (h' : NamedBy tail id') : id = id' := by
  have hpieces := h.pieces_eq.symm.trans h'.pieces_eq
  exact String.toList_inj.1 (List.cons.inj hpieces).1

end NamedBy

theorem idOfUnlockPath_eq_ok_iff : idOfUnlockPath tail = .ok id ↔ NamedBy tail id := by
  constructor
  · intro h
    obtain ⟨slashes, hslashes, htail⟩ :=
      Text.exists_eq_trimEnd_append (fun c => decide (c = '/')) tail.toList
    have hjoin := Text.join_pieces '/' (Text.trimEnd (· = '/') tail.toList)
    unfold idOfUnlockPath at h
    split at h
    · next name action hpieces =>
      split at h
      · next hname =>
        obtain ⟨hne, rfl⟩ := hname
        obtain rfl := Except.ok.inj h
        have hnotMem : '/' ∉ name := Text.not_mem_of_mem_pieces (hpieces ▸ List.mem_cons_self)
        have hreplicate : slashes = List.replicate slashes.length '/' :=
          List.eq_replicate_iff.2 ⟨rfl, fun c hc => of_decide_eq_true (hslashes c hc)⟩
        rw [hpieces] at hjoin
        refine ⟨?_, ?_, slashes.length, ?_⟩
        · rw [ne_eq, String.ofList_eq_empty_iff]
          exact hne
        · rw [String.toList_ofList]
          exact hnotMem
        · rw [htail, ← hjoin, ← hreplicate]
          simp [Text.join]
      · cases h
    · cases h
  · intro h
    have hid : id.toList ≠ [] := mt String.toList_eq_nil_iff.1 h.ne_empty
    unfold idOfUnlockPath
    rw [h.pieces_eq]
    simp [hid]

/-- What names no lock is refused, and the words say what stands there. -/
theorem idOfUnlockPath_eq_error_iff {e : Refusal} :
    idOfUnlockPath tail = .error e ↔
      (∀ id, ¬ NamedBy tail id) ∧ e = .internal ("Invalid delete-lock endpoint: /" ++ tail) := by
  have hwords : ∀ {e}, idOfUnlockPath tail = .error e →
      e = .internal ("Invalid delete-lock endpoint: /" ++ tail) := by
    intro e h
    unfold idOfUnlockPath at h
    split at h
    · split at h
      · cases h
      · exact (Except.error.inj h).symm
    · exact (Except.error.inj h).symm
  constructor
  · intro h
    refine ⟨fun id hid => ?_, hwords h⟩
    rw [idOfUnlockPath_eq_ok_iff.2 hid] at h
    cases h
  · intro ⟨hnone, he⟩
    cases h : idOfUnlockPath tail with
    | ok id => exact absurd (idOfUnlockPath_eq_ok_iff.1 h) (hnone id)
    | error e' => rw [he, hwords h]

end GitLfs.Lock
