import GitLfs.Json.Writer
import GitLfs.Proofs.Json.Reader

/-!
# Integers that are read are short

No integer in a value that is read has more digits than may be written (`short_of_readBytes`). Integers
come from tokens only, where longer ones are refused, and the machine that takes the tokens puts nothing
into a container but what a token brings or what was in a container that ends. These are the values
that can be written (`isWritable_iff`).
-/

namespace GitLfs.Json

open GitLfs.Number

/-- No integer in the value has more digits than may be written. -/
inductive Value.Short : Value → Prop where
  | null : Short .null
  | boolean (b : Bool) : Short (.boolean b)
  | number {n : Number} (h : ∀ i, n = .integer i → Decimal.Short i) : Short (.number n)
  | text (s : String) : Short (.text s)
  | list {items : List Value} (h : ∀ v ∈ items, Short v) : Short (.list items)
  | object {members : List (String × Value)} (h : ∀ m ∈ members, Short m.2) : Short (.object members)

variable {d : Dialect}

/-- What a reader takes is short. -/
theorem Value.Fits.short {n : Nat} {v : Value} (h : v.Fits d n) : v.Short := by
  induction h with
  | null => exact .null
  | boolean b => exact .boolean b
  | integer h =>
    refine .number fun i hi => ?_
    cases hi
    exact h.short
  | text s => exact .text s
  | list _ ih => exact .list ih
  | object _ ih => exact .object ih

/-! ## Writing -/

theorem short_integer_iff {n : Int} : (Value.number (.integer n)).Short ↔ Decimal.Short n := by
  constructor
  · rintro ⟨⟩
    next h => exact h n rfl
  · intro h
    refine .number fun i hi => ?_
    cases hi
    exact h

mutual

/-- A value can be written when no integer in it is too long. -/
theorem isWritable_iff : (v : Value) → (isWritable v = true ↔ v.Short)
  | .null => iff_of_true rfl .null
  | .boolean b => iff_of_true rfl (.boolean b)
  | .number (.integer n) => by rw [short_integer_iff, isWritable, decide_eq_true_iff]
  | .number (.decimal ..) | .number .notANumber | .number (.infinite _) =>
    iff_of_true rfl (.number nofun)
  | .text s => iff_of_true rfl (.text s)
  | .list items => by
    rw [isWritable, areWritable_iff items]
    exact ⟨.list, fun | .list h => h⟩
  | .object members => by
    rw [isWritable, membersAreWritable_iff members]
    exact ⟨.object, fun | .object h => h⟩

theorem areWritable_iff : (items : List Value) → (areWritable items = true ↔ ∀ v ∈ items, v.Short)
  | [] => by simp [areWritable]
  | v :: rest => by
    rw [areWritable, Bool.and_eq_true, isWritable_iff v, areWritable_iff rest, List.forall_mem_cons]

theorem membersAreWritable_iff : (members : List (String × Value)) →
    (membersAreWritable members = true ↔ ∀ m ∈ members, m.2.Short)
  | [] => by simp [membersAreWritable]
  | (k, v) :: rest => by
    rw [membersAreWritable, Bool.and_eq_true, isWritable_iff v, membersAreWritable_iff rest,
      List.forall_mem_cons]

end

/-! ## Tokens -/

namespace Token

/-- The value that a token brings, if it brings one, is short. -/
def Short : Token → Prop
  | .literal v => v.Short
  | _ => True

/-- An integer is read from digits that are not too many. -/
theorem integer_of_unsignedNumber {negative : Bool} {s rest : List Char} {i : Int}
    (h : unsignedNumber d negative s = some (.integer i, rest)) :
    ∃ whole, (∀ c ∈ whole, c.isDigit = true) ∧ whole.length ≤ Decimal.maxDigits ∧
      i = if negative then -(Decimal.valueOf whole : Int) else Decimal.valueOf whole := by
  have hspan : ∀ c ∈ (spanDigits s).1, c.isDigit = true := List.all_eq_true.1 List.all_takeWhile
  have hzero : ∀ c ∈ ['0'], c.isDigit = true := List.forall_mem_singleton.2 rfl
  unfold unsignedNumber at h
  simp only [Option.bind_eq_bind, Option.bind_none, Option.bind_some] at h
  generalize (if (negative && d.signCounts) = true then 1 else 0) = sign at h
  split at h
  case' h_1 => refine ⟨['0'], hzero, ?_⟩
  case' h_2 =>
    split at h
    case h_1 => cases h
    refine ⟨(spanDigits s).1, hspan, ?_⟩
  all_goals
    simp only [Option.bind_eq_some_iff] at h
    obtain ⟨_, -, _, -, h⟩ := h
    split at h
    · split at h
      · cases h
      next hlong =>
        cases h
        refine ⟨Nat.le_of_not_lt fun hlt => hlong ?_, rfl⟩
        exact decide_eq_true (Nat.lt_of_lt_of_le hlt (Nat.le_add_left _ _))
    · split at h <;> cases h

theorem short_of_unsignedNumber {negative : Bool} {s rest : List Char} {n : Number}
    (h : unsignedNumber d negative s = some (n, rest)) : (Value.number n).Short := by
  refine .number fun i hi => ?_
  subst hi
  obtain ⟨whole, hdigits, hlength, rfl⟩ := integer_of_unsignedNumber h
  exact Decimal.short_valueOf hdigits hlength negative

theorem short_of_mem_words : ∀ w ∈ words, w.2.Short := by
  have hspecial : ∀ n : Number, (∀ i, n ≠ .integer i) → (Value.number n).Short := fun n hn =>
    .number fun i hi => absurd hi (hn i)
  intro w hw
  simp only [words, List.mem_cons, List.not_mem_nil, or_false] at hw
  obtain rfl | rfl | rfl | rfl | rfl | rfl := hw
  · exact .null
  · exact .boolean true
  · exact .boolean false
  all_goals exact hspecial _ fun _ => Number.noConfusion

theorem short_of_next {s rest : List Char} {t : Token} (h : next d s = some (t, rest)) : t.Short := by
  unfold next at h
  split at h
  case h_7 =>
    obtain ⟨⟨text, rest'⟩, -, heq⟩ := Option.map_eq_some_iff.1 h
    cases heq
    trivial
  case h_8 =>
    split at h
    · next hword =>
      cases h
      obtain ⟨w, hw, hfound⟩ := List.exists_of_findSome?_eq_some hword
      obtain ⟨rest', -, heq⟩ := Option.map_eq_some_iff.1 hfound
      cases heq
      exact short_of_mem_words w hw
    · obtain ⟨⟨n, rest'⟩, hnumber, heq⟩ := Option.map_eq_some_iff.1 h
      cases heq
      exact short_of_unsignedNumber hnumber
  all_goals
    cases h
    trivial

theorem short_of_listWithin {fuel : Nat} {s : List Char} {tokens : List Token}
    (h : listWithin d fuel s = some tokens) : ∀ t ∈ tokens, t.Short := by
  induction fuel generalizing s tokens with
  | zero =>
    cases s with
    | nil =>
      cases h
      exact fun t ht => absurd ht List.not_mem_nil
    | cons c s => cases h
  | succ fuel ih =>
    cases s with
    | nil =>
      cases h
      exact fun t ht => absurd ht List.not_mem_nil
    | cons c s =>
      rw [listWithin] at h
      split at h
      · exact ih h
      · split at h
        · cases h
        · next t rest hnext =>
          obtain ⟨more, hmore, rfl⟩ := Option.map_eq_some_iff.1 h
          exact List.forall_mem_cons.2 ⟨short_of_next hnext, ih hmore⟩

end Token

/-! ## The machine -/

/-- Nothing long is in the container. -/
def OpenContainer.Short : OpenContainer → Prop
  | .list items => ∀ v ∈ items, v.Short
  | .object members _ => ∀ m ∈ members, m.2.Short

namespace Reading

/-- Nothing long has been read. -/
def Short : Reading → Prop
  | .within containers _ => ∀ c ∈ containers, c.Short
  | .finished v => v.Short

variable {r r' : Reading} {containers : List OpenContainer} {v : Value}

theorem short_of_accept (hc : ∀ c ∈ containers, c.Short) (hv : v.Short)
    (h : accept d containers v = some r) : r.Short := by
  unfold accept at h
  split at h
  · cases h
  · split at h
    · cases h
      exact hv
    · cases h
      obtain ⟨hitems, houter⟩ := List.forall_mem_cons.1 hc
      exact List.forall_mem_cons.2 ⟨List.forall_mem_cons.2 ⟨hv, hitems⟩, houter⟩
    · cases h
      obtain ⟨hmembers, houter⟩ := List.forall_mem_cons.1 hc
      exact List.forall_mem_cons.2 ⟨List.forall_mem_cons.2 ⟨hv, hmembers⟩, houter⟩

theorem short_of_enter {c : OpenContainer} {awaiting : Awaiting} (hc : ∀ c ∈ containers, c.Short)
    (hnew : c.Short) (h : enter d containers c awaiting = some r) : r.Short := by
  unfold enter at h
  split at h
  · cases h
  · cases h
    exact List.forall_mem_cons.2 ⟨hnew, hc⟩

theorem short_of_closeList (hc : ∀ c ∈ containers, c.Short)
    (h : closeList d containers = some r) : r.Short := by
  unfold closeList at h
  split at h
  · obtain ⟨hitems, houter⟩ := List.forall_mem_cons.1 hc
    exact short_of_accept houter (.list fun v hv => hitems v (List.mem_reverse.1 hv)) h
  · cases h

theorem short_of_closeObject (hc : ∀ c ∈ containers, c.Short)
    (h : closeObject d containers = some r) : r.Short := by
  unfold closeObject at h
  split at h
  · obtain ⟨hmembers, houter⟩ := List.forall_mem_cons.1 hc
    exact short_of_accept houter (.object fun m hm => hmembers m (List.mem_reverse.1 hm)) h
  · cases h

theorem short_of_nameMember {name : String} (hc : ∀ c ∈ containers, c.Short)
    (h : nameMember name containers = some r) : r.Short := by
  unfold nameMember at h
  split at h
  · cases h
    obtain ⟨hmembers, houter⟩ := List.forall_mem_cons.1 hc
    exact List.forall_mem_cons.2 ⟨hmembers, houter⟩
  · cases h

theorem short_of_continue? (hc : ∀ c ∈ containers, c.Short)
    (h : continue? containers = some r) : r.Short := by
  unfold continue? at h
  split at h
  · cases h
    exact hc
  · cases h
    exact hc
  · cases h

/-- A token that is short leaves nothing long behind. -/
theorem short_of_step {t : Token} (hr : r.Short) (ht : t.Short) (h : step d r t = some r') :
    r'.Short := by
  have hlist : (OpenContainer.list []).Short := fun v hv => absurd hv List.not_mem_nil
  have hobject : (OpenContainer.object [] "").Short := fun m hm => absurd hm List.not_mem_nil
  unfold step at h
  split at h
  · exact short_of_accept hr ht h
  · exact short_of_accept hr (.text _) h
  · exact short_of_enter hr hlist h
  · exact short_of_enter hr hobject h
  · exact short_of_accept hr ht h
  · exact short_of_accept hr (.text _) h
  · exact short_of_enter hr hlist h
  · exact short_of_enter hr hobject h
  · exact short_of_closeList hr h
  · exact short_of_nameMember hr h
  · exact short_of_closeObject hr h
  · exact short_of_nameMember hr h
  · cases h
    exact hr
  · exact short_of_continue? hr h
  · exact short_of_closeList hr h
  · exact short_of_closeObject hr h
  · cases h

theorem short_of_run {tokens : List Token} (hr : r.Short) (ht : ∀ t ∈ tokens, t.Short)
    (h : tokens.foldlM (step d) r = some r') : r'.Short := by
  induction tokens generalizing r with
  | nil =>
    cases h
    exact hr
  | cons t tokens ih =>
    obtain ⟨hfirst, hmore⟩ := List.forall_mem_cons.1 ht
    rw [List.foldlM_cons, Option.bind_eq_bind, Option.bind_eq_some_iff] at h
    obtain ⟨next, hnext, hrest⟩ := h
    exact ih (short_of_step hr hfirst hnext) hmore hrest

end Reading

/-! ## Whole texts -/

theorem short_of_readChars {s : List Char} {v : Value} (h : readChars d s = some v) : v.Short := by
  unfold readChars at h
  simp only [Option.bind_eq_bind, Option.bind_eq_some_iff] at h
  obtain ⟨tokens, htokens, reading, hreading, hresult⟩ := h
  have hstart : Reading.start.Short := fun c hc => absurd hc List.not_mem_nil
  have hshort := Reading.short_of_run hstart (Token.short_of_listWithin htokens) hreading
  cases reading with
  | within containers awaiting => cases hresult
  | finished v' =>
    cases hresult
    exact hshort

theorem short_of_readBytes {bytes : List UInt8} {v : Value} (h : readBytes d bytes = some v) :
    v.Short := by
  obtain ⟨s, -, hs⟩ := Option.bind_eq_some_iff.1 h
  exact short_of_readChars hs

end GitLfs.Json
