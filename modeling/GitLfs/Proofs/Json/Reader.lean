import GitLfs.Proofs.Json.Token
import GitLfs.Proofs.Json.Value
import GitLfs.Proofs.Text.Utf8

/-!
# Written values are read back

`readBytes_write`: the bytes of a written value are read as that value, in any dialect that allows its
depth. `Value.Fits d n v` says which values these are: no container is nested deeper than `n`, and every
number is an integer that the dialect takes.

The characters of a value are a row of tokens, `tokensOf`, and on these tokens the machine accepts the
value wherever a value may stand. Both are proved along `Fits`; a list and an object are taken item by
item, and what is claimed of the items is the hypothesis of the induction.

Blanks alone are no value: `readBytes_of_blank`.
-/

namespace GitLfs.Json

open GitLfs.Number

/-- A value whose containers are nested at most so deep and whose numbers are integers that a dialect
takes. -/
inductive Value.Fits (d : Dialect) : Nat → Value → Prop where
  | null {n : Nat} : Fits d n .null
  | boolean {n : Nat} (b : Bool) : Fits d n (.boolean b)
  | integer {n : Nat} {i : Int} (h : d.Takes i) : Fits d n (.number (.integer i))
  | text {n : Nat} (s : String) : Fits d n (.text s)
  | list {n : Nat} {items : List Value} (h : ∀ v ∈ items, Fits d n v) : Fits d (n + 1) (.list items)
  | object {n : Nat} {members : List (String × Value)} (h : ∀ m ∈ members, Fits d n m.2) :
      Fits d (n + 1) (.object members)

variable {d : Dialect}

theorem Value.Fits.optional {α : Type} {n : Nat} {write : α → Value} {o : Option α}
    (h : ∀ a ∈ o, (write a).Fits d n) : (Value.optional write o).Fits d n := by
  cases o with
  | none => exact .null
  | some a => exact h a rfl

/-- What is left of a value without its nulls fits where the value does. -/
theorem Value.Fits.withoutNulls {n : Nat} {v : Value} (h : v.Fits d n) : v.withoutNulls.Fits d n := by
  induction h with
  | null => exact .null
  | boolean b => exact .boolean b
  | integer h => exact .integer h
  | text s => exact .text s
  | list _ ih =>
    rw [Value.withoutNulls, Value.listWithoutNulls_eq]
    apply Fits.list
    intro v hv
    obtain ⟨w, hw, rfl⟩ := List.mem_map.1 hv
    exact ih w hw
  | object _ ih =>
    rw [Value.withoutNulls, Value.membersWithoutNulls_eq]
    apply Fits.object
    intro m hm
    obtain ⟨w, hw, rfl⟩ := List.mem_map.1 hm
    exact ih w (List.mem_filter.1 hw).1

mutual

/-- The tokens of a value. -/
def tokensOf : Value → List Token
  | .text s => [.text s]
  | .list items => .openList :: itemTokens items
  | .object members => .openObject :: memberTokens members
  | v => [.literal v]

/-- The tokens of the items of a list, and of its end. -/
def itemTokens : List Value → List Token
  | [] => [.closeList]
  | [v] => tokensOf v ++ [.closeList]
  | v :: rest => tokensOf v ++ .comma :: itemTokens rest

/-- The tokens of the members of an object, and of its end. -/
def memberTokens : List (String × Value) → List Token
  | [] => [.closeObject]
  | [(k, v)] => .text k :: .colon :: tokensOf v ++ [.closeObject]
  | (k, v) :: rest => .text k :: .colon :: tokensOf v ++ .comma :: memberTokens rest

end

/-! ## From characters to tokens -/

section Lexes

open Token

/-- The characters of a value are its tokens, whatever row of tokens follows. -/
def Tokenizes (d : Dialect) (v : Value) : Prop :=
  ∀ rest tokens, Closes rest → Lexes d rest tokens → Lexes d (write v ++ rest) (tokensOf v ++ tokens)

theorem lexes_writeItems {items : List Value} (hitems : ∀ v ∈ items, Tokenizes d v)
    {rest : List Char} {tokens : List Token} (h : Lexes d rest tokens) :
    Lexes d (writeItems items ++ rest) (itemTokens items ++ tokens) := by
  have hend : Lexes d (']' :: rest) (.closeList :: tokens) := Lexes.token (s := []) (by decide) rfl h
  induction items with
  | nil => exact hend
  | cons v items ih =>
    have hv := hitems v List.mem_cons_self
    cases items with
    | nil =>
      simp only [writeItems, itemTokens, List.append_assoc]
      exact hv _ _ (closes_cons (by decide) rest) hend
    | cons w more =>
      have hmore := ih fun v hv => hitems v (List.mem_cons_of_mem _ hv)
      simp only [writeItems, itemTokens, List.append_assoc, List.cons_append]
      exact hv _ _ (closes_cons (by decide) _) (Lexes.token (s := []) (by decide) rfl hmore)

theorem lexes_writeMembers {members : List (String × Value)}
    (hmembers : ∀ m ∈ members, Tokenizes d m.2) {rest : List Char} {tokens : List Token}
    (h : Lexes d rest tokens) :
    Lexes d (writeMembers members ++ rest) (memberTokens members ++ tokens) := by
  have hend : Lexes d ('}' :: rest) (.closeObject :: tokens) :=
    Lexes.token (s := []) (by decide) rfl h
  induction members with
  | nil => exact hend
  | cons m members ih =>
    obtain ⟨k, v⟩ := m
    have hv : Tokenizes d v := hmembers (k, v) List.mem_cons_self
    cases members with
    | nil =>
      simp only [writeMembers, memberTokens, List.append_assoc, List.cons_append]
      refine Lexes.text k (Lexes.token (s := []) (by decide) rfl ?_)
      exact hv _ _ (closes_cons (by decide) rest) hend
    | cons w more =>
      have hmore := ih fun m hm => hmembers m (List.mem_cons_of_mem _ hm)
      simp only [writeMembers, memberTokens, List.append_assoc, List.cons_append]
      refine Lexes.text k (Lexes.token (s := []) (by decide) rfl ?_)
      exact hv _ _ (closes_cons (by decide) _) (Lexes.token (s := []) (by decide) rfl hmore)

theorem tokenizes_of_fits {n : Nat} {v : Value} (h : v.Fits d n) : Tokenizes d v := by
  induction h with
  | null => exact fun rest tokens _ h => Lexes.null h
  | boolean b => exact fun rest tokens _ h => Lexes.boolean b h
  | integer hshort => exact fun rest tokens hrest h => Lexes.integer hshort hrest h
  | text s => exact fun rest tokens _ h => Lexes.text s h
  | list _ ih =>
    exact fun rest tokens _ h => Lexes.token (s := []) (by decide) rfl (lexes_writeItems ih h)
  | object _ ih =>
    exact fun rest tokens _ h => Lexes.token (s := []) (by decide) rfl (lexes_writeMembers ih h)

end Lexes

/-! ## From tokens to the value -/

theorem Dialect.not_tooDeep_of_le {depth depth' : Nat} (h : d.tooDeep depth = false)
    (hle : depth' ≤ depth) : d.tooDeep depth' = false := by
  unfold Dialect.tooDeep at h ⊢
  cases hmax : d.maxDepth with
  | none => rfl
  | some limit =>
    rw [hmax] at h
    simp only [decide_eq_false_iff_not] at h ⊢
    omega

namespace Reading

/-- The machine after some tokens. -/
def run (d : Dialect) (r : Reading) (tokens : List Token) : Option Reading :=
  tokens.foldlM (step d) r

theorem run_cons {r r' : Reading} {t : Token} (h : step d r t = some r') (tokens : List Token) :
    run d r (t :: tokens) = run d r' tokens := by
  unfold run
  rw [List.foldlM_cons, h]
  rfl

theorem run_append {r r' : Reading} {tokens : List Token} (h : run d r tokens = some r')
    (more : List Token) : run d r (tokens ++ more) = run d r' more := by
  unfold run at h ⊢
  rw [List.foldlM_append, h]
  rfl

theorem run_singleton (r : Reading) (t : Token) : run d r [t] = step d r t := by
  unfold run
  rw [List.foldlM_cons]
  cases step d r t <;> rfl

/-- A value may come: alone, or as the first item of a list. -/
def ExpectsValue (a : Awaiting) : Prop := a = .value ∨ a = .firstItem

/-- A name may come: the first one of an object, or one behind a comma. -/
def ExpectsName (a : Awaiting) : Prop := a = .firstName ∨ a = .name

/-- Wherever a value may come and containers may be nested deeper by `n`, the machine accepts a value
at its tokens. -/
def Accepts (d : Dialect) (n : Nat) (v : Value) : Prop :=
  ∀ containers awaiting, ExpectsValue awaiting → d.tooDeep (containers.length + n) = false →
    run d (.within containers awaiting) (tokensOf v) = accept d containers v

variable {n : Nat} {outer : List OpenContainer}

/-- An item goes into the innermost list. -/
theorem run_item {v : Value} (hv : Accepts d n v)
    (hdepth : d.tooDeep (outer.length + (n + 1)) = false) (before : List Value)
    {awaiting : Awaiting} (hawaiting : ExpectsValue awaiting) (more : List Token) :
    run d (.within (.list before :: outer) awaiting) (tokensOf v ++ more) =
      run d (.within (.list (v :: before) :: outer) .separator) more := by
  have hinner : d.tooDeep ((OpenContainer.list before :: outer).length + n) = false := by
    rw [List.length_cons]
    exact Dialect.not_tooDeep_of_le hdepth (by omega)
  have hhere : d.tooDeep (OpenContainer.list before :: outer).length = false :=
    Dialect.not_tooDeep_of_le hinner (by omega)
  have haccept := hv _ _ hawaiting hinner
  unfold accept at haccept
  rw [hhere] at haccept
  exact run_append haccept more

/-- A name and its value go into the innermost object. -/
theorem run_member {v : Value} (hv : Accepts d n v)
    (hdepth : d.tooDeep (outer.length + (n + 1)) = false) (before : List (String × Value))
    (k : String) {awaiting : Awaiting} (hawaiting : ExpectsName awaiting) (more : List Token) :
    run d (.within (.object before "" :: outer) awaiting)
        (.text k :: .colon :: (tokensOf v ++ more)) =
      run d (.within (.object ((k, v) :: before) "" :: outer) .separator) more := by
  have hinner : d.tooDeep ((OpenContainer.object before k :: outer).length + n) = false := by
    rw [List.length_cons]
    exact Dialect.not_tooDeep_of_le hdepth (by omega)
  have hhere : d.tooDeep (OpenContainer.object before k :: outer).length = false :=
    Dialect.not_tooDeep_of_le hinner (by omega)
  have hname : step d (.within (.object before "" :: outer) awaiting) (.text k) =
      some (.within (.object before k :: outer) .colon) := by
    obtain rfl | rfl := hawaiting <;> rfl
  have hcolon : step d (.within (.object before k :: outer) .colon) .colon =
      some (.within (.object before k :: outer) .value) := rfl
  have haccept := hv (.object before k :: outer) .value (.inl rfl) hinner
  unfold accept at haccept
  rw [hhere] at haccept
  rw [run_cons hname, run_cons hcolon]
  exact run_append haccept more

/-- The items of a list go into it one after the other, and then it is a value itself. -/
theorem run_itemTokens {items : List Value} (hitems : ∀ v ∈ items, Accepts d n v)
    (hdepth : d.tooDeep (outer.length + (n + 1)) = false) (before : List Value)
    {awaiting : Awaiting} (hawaiting : ExpectsValue awaiting)
    (hnil : items = [] → awaiting = .firstItem) :
    run d (.within (.list before :: outer) awaiting) (itemTokens items) =
      accept d outer (.list (before.reverse ++ items)) := by
  induction items generalizing before awaiting with
  | nil =>
    rw [hnil rfl, itemTokens, run_singleton, List.append_nil]
    rfl
  | cons v items ih =>
    have hv := run_item (hitems v List.mem_cons_self) hdepth before hawaiting
    cases items with
    | nil =>
      rw [itemTokens, hv, run_singleton, ← List.reverse_cons]
      rfl
    | cons w more =>
      have hcomma : step d (.within (.list (v :: before) :: outer) .separator) .comma =
          some (.within (.list (v :: before) :: outer) .value) := rfl
      have hmore := ih (fun v hv => hitems v (List.mem_cons_of_mem _ hv)) (v :: before)
        (.inl rfl) (by rintro ⟨⟩)
      simp only [itemTokens]
      rw [hv, run_cons hcomma, hmore, List.reverse_cons, List.append_assoc]
      rfl

/-- The members of an object go into it one after the other, and then it is a value itself. -/
theorem run_memberTokens {members : List (String × Value)}
    (hmembers : ∀ m ∈ members, Accepts d n m.2)
    (hdepth : d.tooDeep (outer.length + (n + 1)) = false) (before : List (String × Value))
    {awaiting : Awaiting} (hawaiting : ExpectsName awaiting)
    (hnil : members = [] → awaiting = .firstName) :
    run d (.within (.object before "" :: outer) awaiting) (memberTokens members) =
      accept d outer (.object (before.reverse ++ members)) := by
  induction members generalizing before awaiting with
  | nil =>
    rw [hnil rfl, memberTokens, run_singleton, List.append_nil]
    rfl
  | cons m members ih =>
    obtain ⟨k, v⟩ := m
    have hv := run_member (hmembers (k, v) List.mem_cons_self) hdepth before k hawaiting
    cases members with
    | nil =>
      simp only [memberTokens, List.cons_append]
      rw [hv, run_singleton, ← List.reverse_cons]
      rfl
    | cons w more =>
      have hcomma : step d (.within (.object ((k, v) :: before) "" :: outer) .separator) .comma =
          some (.within (.object ((k, v) :: before) "" :: outer) .name) := rfl
      have hmore := ih (fun m hm => hmembers m (List.mem_cons_of_mem _ hm)) ((k, v) :: before)
        (.inr rfl) (by rintro ⟨⟩)
      simp only [memberTokens, List.cons_append]
      rw [hv, run_cons hcomma, hmore, List.reverse_cons, List.append_assoc]
      rfl

theorem accepts_literal {v : Value} (h : tokensOf v = [.literal v]) : Accepts d n v := by
  rintro containers awaiting (rfl | rfl) - <;> rw [h, run_singleton] <;> rfl

theorem accepts_of_fits {v : Value} (h : v.Fits d n) : Accepts d n v := by
  induction h with
  | null => exact accepts_literal rfl
  | boolean b => exact accepts_literal rfl
  | integer => exact accepts_literal rfl
  | text s =>
    rintro containers awaiting (rfl | rfl) - <;> rw [tokensOf, run_singleton] <;> rfl
  | list _ ih =>
    intro containers awaiting hawaiting hdepth
    have hopen : step d (.within containers awaiting) .openList =
        some (.within (.list [] :: containers) .firstItem) := by
      have hhere := Dialect.not_tooDeep_of_le hdepth (Nat.le_add_right _ _)
      obtain rfl | rfl := hawaiting <;> simp [step, enter, hhere]
    rw [tokensOf, run_cons hopen]
    exact run_itemTokens ih hdepth [] (.inr rfl) fun _ => rfl
  | object _ ih =>
    intro containers awaiting hawaiting hdepth
    have hopen : step d (.within containers awaiting) .openObject =
        some (.within (.object [] "" :: containers) .firstName) := by
      have hhere := Dialect.not_tooDeep_of_le hdepth (Nat.le_add_right _ _)
      obtain rfl | rfl := hawaiting <;> simp [step, enter, hhere]
    rw [tokensOf, run_cons hopen]
    exact run_memberTokens ih hdepth [] (.inl rfl) fun _ => rfl

end Reading

/-! ## Both together -/

/-- The characters of a written value are read as that value. -/
theorem readChars_write {n : Nat} {v : Value} (h : v.Fits d n) (hdepth : d.tooDeep n = false) :
    readChars d (write v) = some v := by
  have hlex := tokenizes_of_fits (d := d) h [] [] Token.closes_nil Token.Lexes.nil
  rw [List.append_nil, List.append_nil] at hlex
  have hread : (tokensOf v).foldlM (Reading.step d) Reading.start = Reading.accept d [] v :=
    Reading.accepts_of_fits h [] .value (.inl rfl) (by simpa using hdepth)
  have haccept : Reading.accept d [] v = some (.finished v) := by
    unfold Reading.accept
    rw [List.length_nil, Dialect.not_tooDeep_of_le hdepth (Nat.zero_le n)]
    rfl
  unfold readChars
  rw [hlex.list?]
  simp only [Option.bind_eq_bind, Option.bind_some, hread, haccept]
  rfl

/-- The bytes of a written value are read as that value. -/
theorem readBytes_write {n : Nat} {v : Value} (h : v.Fits d n) (hdepth : d.tooDeep n = false) :
    readBytes d (Text.Utf8.encode (write v)) = some v := by
  unfold readBytes
  rw [Text.Utf8.decode?_encode]
  exact readChars_write h hdepth

/-! ## Blanks -/

/-- The blanks that may not stand between tokens. -/
theorem eq_of_blank {c : Char} (h : Text.isAsciiBlank c = true) (hnot : ¬ Token.isBlank c = true) :
    c = '\x0b' ∨ c = '\x0c' := by
  have heq : ∀ d : Char, c.toNat = d.toNat → c = d := fun d hd =>
    Char.ext (UInt32.toNat_inj.1 hd)
  simp only [Text.isAsciiBlank, Bool.or_eq_true, Bool.and_eq_true, decide_eq_true_eq, beq_iff_eq] at h
  simp only [Token.isBlank, decide_eq_true_eq, not_or] at hnot
  obtain ⟨hspace, htab, hline, hreturn⟩ := hnot
  have hspace' : c.toNat ≠ 0x20 := fun h => hspace (heq ' ' h)
  have htab' : c.toNat ≠ 9 := fun h => htab (heq '\t' h)
  have hline' : c.toNat ≠ 10 := fun h => hline (heq '\n' h)
  have hreturn' : c.toNat ≠ 13 := fun h => hreturn (heq '\r' h)
  have hnat : c.toNat = 11 ∨ c.toNat = 12 := by omega
  exact hnat.imp (heq '\x0b') (heq '\x0c')

/-- No token starts with a blank, and the blanks that may not stand between tokens are no tokens. -/
theorem listWithin_of_blank {d : Dialect} {fuel : Nat} {s : List Char} {tokens : List Token}
    (hs : ∀ c ∈ s, Text.isAsciiBlank c = true) (h : Token.listWithin d fuel s = some tokens) :
    tokens = [] := by
  induction fuel generalizing s with
  | zero =>
    cases s with
    | nil => exact (Option.some.inj h).symm
    | cons c s => cases h
  | succ fuel ih =>
    cases s with
    | nil => exact (Option.some.inj h).symm
    | cons c s =>
      rw [Token.listWithin] at h
      by_cases hblank : Token.isBlank c = true
      · rw [if_pos hblank] at h
        exact ih (fun c hc => hs c (List.mem_cons_of_mem _ hc)) h
      · have hnext : Token.next d (c :: s) = none := by
          rcases eq_of_blank (hs c List.mem_cons_self) hblank with rfl | rfl <;> rfl
        rw [if_neg hblank, hnext] at h
        cases h

/-- Blanks alone are no value. -/
theorem readChars_of_blank {d : Dialect} {s : List Char} (hs : ∀ c ∈ s, Text.isAsciiBlank c = true) :
    readChars d s = none := by
  unfold readChars Token.list?
  cases htokens : Token.listWithin d s.length s with
  | none => rfl
  | some tokens =>
    rw [listWithin_of_blank hs htokens]
    rfl

/-- Bytes that are blanks are no value. -/
theorem readBytes_of_blank {d : Dialect} {bytes : List UInt8}
    (h : ∀ b ∈ bytes, Text.isAsciiBlank (Char.ofNat b.toNat) = true) : readBytes d bytes = none := by
  have hascii : ∀ b : UInt8, Text.isAsciiBlank (Char.ofNat b.toNat) = true → b.toNat < 0x80 := by
    intro b hb
    have hlt := b.toNat_lt
    simp only [Text.isAsciiBlank, Text.Utf8.toNat_ofNat (Or.inl (by omega : b.toNat < 0xD800)),
      Bool.or_eq_true, Bool.and_eq_true, decide_eq_true_eq, beq_iff_eq] at hb
    omega
  have hdecode : Text.Utf8.decode? bytes = some (bytes.map fun b => Char.ofNat b.toNat) := by
    unfold Text.Utf8.decode?
    rw [Text.Utf8.scan_of_ascii fun b hb => hascii b (h b hb), Text.Utf8.mapM_id_eq_some_iff,
      List.map_map]
    rfl
  unfold readBytes
  rw [hdecode, Option.bind_some]
  refine readChars_of_blank fun c hc => ?_
  obtain ⟨b, hb, rfl⟩ := List.mem_map.1 hc
  exact h b hb

end GitLfs.Json
