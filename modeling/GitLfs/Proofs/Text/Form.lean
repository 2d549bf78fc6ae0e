import GitLfs.Proofs.Text.Pieces
import GitLfs.Proofs.Text.Utf8
import GitLfs.Text.Form

/-!
# Queries are read as what was written

`write` writes names and values as a form-encoded query. Which characters stand for themselves is left
open, as long as none of them means something else in a query; every other character is written byte by
byte. `pairs_write` says that the names and values are read back, whatever characters they have, and
`first?_given` that each name has its own value.
-/

namespace GitLfs.Text

namespace Percent

variable {keep : Char → Bool}

/-- The characters that stand for themselves mean nothing else in a query. -/
def Plain (keep : Char → Bool) : Prop := ∀ c ∈ ['%', '+', '&', '='], keep c = false

/-- The digits of escapes are none of the characters that mean something in a query. -/
theorem hexDigit_notMem {v : Nat} (h : v < 16) : hexDigit v ∉ ['%', '+', '&', '='] := by
  have all : ∀ v : Fin 16, hexDigit v ∉ ['%', '+', '&', '='] := by decide
  exact all ⟨v, h⟩

/-- What is written holds no character that means something in a query, but for the `%` of escapes. -/
theorem notMem_encode (hkeep : Plain keep) {c : Char} (hc : c ∈ ['+', '&', '=']) (s : List Char) :
    c ∉ encode keep s := by
  have hspecial : c ∈ ['%', '+', '&', '='] := List.mem_cons_of_mem _ hc
  unfold encode
  rw [List.mem_flatMap]
  rintro ⟨d, -, hd⟩
  split at hd
  · next hkept =>
    rw [← List.mem_singleton.1 hd, hkeep c hspecial] at hkept
    cases hkept
  · obtain ⟨b, -, hb⟩ := List.mem_flatMap.1 hd
    have hb256 : b.toNat < 256 := b.toNat_lt
    rcases List.mem_cons.1 hb with rfl | hb
    · revert hc
      decide
    · rcases List.mem_cons.1 hb with rfl | hb
      · exact hexDigit_notMem (by omega) hspecial
      · rw [List.mem_singleton.1 hb] at hspecial
        exact hexDigit_notMem (by omega) hspecial

theorem decodeBytes_escapes (bytes : List UInt8) (rest : List Char) :
    decodeBytes ((bytes.flatMap fun b =>
      ['%', hexDigit (b.toNat / 16), hexDigit (b.toNat % 16)]) ++ rest) =
        bytes ++ decodeBytes rest := by
  induction bytes with
  | nil => rfl
  | cons b bytes ih =>
    have hb : b.toNat < 256 := b.toNat_lt
    have hwhole : b.toNat / 16 * 16 + b.toNat % 16 = b.toNat := by omega
    rw [List.flatMap_cons, List.append_assoc]
    simp only [List.cons_append, List.nil_append, decodeBytes]
    rw [hexValue?_hexDigit (by omega), hexValue?_hexDigit (by omega)]
    simp only [hwhole, UInt8.ofNat_toNat, ih]

theorem decodeBytes_encode (hkeep : Plain keep) (s : List Char) :
    decodeBytes (encode keep s) = Utf8.encode s := by
  induction s with
  | nil => rfl
  | cons c s ih =>
    have hstep : decodeBytes (encode keep (c :: s)) =
        Utf8.encodeChar c ++ decodeBytes (encode keep s) := by
      have hcons : encode keep (c :: s) = encode keep [c] ++ encode keep s := by
        simp [encode]
      rw [hcons]
      cases hc : keep c with
      | true =>
        have hpercent : c ≠ '%' := by
          rintro rfl
          rw [hkeep '%' (by decide)] at hc
          cases hc
        have hsingle : encode keep [c] = [c] := by simp [encode, hc]
        rw [hsingle, List.singleton_append, decodeBytes]
        intro a b rest' heq
        exact absurd heq hpercent
      | false =>
        have hescapes : encode keep [c] = (Utf8.encodeChar c).flatMap fun b =>
            ['%', hexDigit (b.toNat / 16), hexDigit (b.toNat % 16)] := by
          simp [encode, hc]
        rw [hescapes, decodeBytes_escapes]
    rw [hstep, ih]
    simp [Utf8.encode]

/-- Any text is read back. -/
theorem decodeForm_encode (hkeep : Plain keep) (s : List Char) :
    decodeForm (encode keep s) = s := by
  have hplus : ((encode keep s).map fun c => if c = '+' then ' ' else c) = encode keep s := by
    refine (List.map_congr_left fun c hc => ?_).trans (List.map_id _)
    rw [if_neg]
    · rfl
    · rintro rfl
      exact notMem_encode hkeep (by decide) s hc
  unfold decodeForm
  rw [hplus, decodeBytes_encode hkeep, Utf8.decodeLenient_encode]

end Percent

namespace Form

variable {keep : Char → Bool}

/-- A name and a value as a piece of a query. -/
def writePair (keep : Char → Bool) (pair : String × String) : List Char :=
  Percent.encode keep pair.1.toList ++ '=' :: Percent.encode keep pair.2.toList

/-- Names and values as a query. -/
def write (keep : Char → Bool) (pairs : List (String × String)) : String :=
  String.ofList (join '&' (pairs.map (writePair keep)))

theorem pairs_write (hkeep : Percent.Plain keep) (given : List (String × String)) :
    pairs (write keep given) = given := by
  have hcut : ∀ pair : String × String, cutAt? '=' (writePair keep pair) =
      some (Percent.encode keep pair.1.toList, Percent.encode keep pair.2.toList) := fun pair =>
    cutAt?_append (Percent.notMem_encode hkeep (by decide) _)
  have hpieces : (pieces '&' (join '&' (given.map (writePair keep)))).filter (· ≠ []) =
      given.map (writePair keep) := by
    by_cases hne : given = []
    · subst hne
      rfl
    · rw [pieces_join]
      · refine List.filter_eq_self.2 fun piece hpiece => ?_
        obtain ⟨pair, -, rfl⟩ := List.mem_map.1 hpiece
        simp [writePair]
      · simpa using hne
      · intro piece hpiece
        obtain ⟨pair, -, rfl⟩ := List.mem_map.1 hpiece
        unfold writePair
        rw [List.mem_append, List.mem_cons]
        rintro (h | h | h)
        · exact Percent.notMem_encode hkeep (by decide) _ h
        · cases h
        · exact Percent.notMem_encode hkeep (by decide) _ h
  unfold pairs write
  rw [String.toList_ofList, hpieces, List.map_map]
  refine (List.map_congr_left fun pair _ => ?_).trans (List.map_id _)
  simp only [Function.comp_apply, hcut, Option.getD_some, Percent.decodeForm_encode hkeep,
    String.ofList_toList, id]

/-- The names that have a value, with their values. -/
def given (fields : List (String × Option String)) : List (String × String) :=
  fields.filterMap fun field => field.2.map (field.1, ·)

theorem notMem_given {fields : List (String × Option String)} {name : String}
    (h : name ∉ fields.map Prod.fst) : first? (given fields) name = none := by
  have hfind : (given fields).find? (·.1 = name) = none := by
    refine List.find?_eq_none.2 fun pair hpair => ?_
    obtain ⟨field, hfield, hvalue⟩ := List.mem_filterMap.1 hpair
    obtain ⟨value, -, rfl⟩ := Option.map_eq_some_iff.1 hvalue
    rw [decide_eq_true_eq]
    rintro rfl
    exact h (List.mem_map_of_mem hfield)
  unfold first?
  rw [hfind]

/-- Each name has the value that was given for it; an empty one would count as none. -/
theorem first?_given {fields : List (String × Option String)} (hnames : (fields.map Prod.fst).Nodup)
    {name : String} {value : Option String} (hmem : (name, value) ∈ fields)
    (hne : value ≠ some "") : first? (given fields) name = value := by
  induction fields with
  | nil => cases hmem
  | cons field fields ih =>
    obtain ⟨hfresh, hnames⟩ := List.nodup_cons.1 hnames
    rcases List.mem_cons.1 hmem with rfl | hmem
    · cases value with
      | none =>
        have hskip : given ((name, none) :: fields) = given fields := rfl
        rw [hskip]
        exact notMem_given hfresh
      | some text =>
        have htext : text ≠ "" := fun e => hne (congrArg some e)
        simp [first?, given, htext]
    · have hother : field.1 ≠ name := by
        rintro rfl
        exact hfresh (List.mem_map.2 ⟨_, hmem, rfl⟩)
      have hskip : first? (given (field :: fields)) name = first? (given fields) name := by
        obtain ⟨other, value'⟩ := field
        cases value' with
        | none => rfl
        | some text => simp [first?, given, hother]
      rw [hskip]
      exact ih hnames hmem

end Form

end GitLfs.Text
