import GitLfs.Http.Pattern

/-!
# The texts a pattern stands for

`Pattern.Spells` says which texts a pattern stands for, part by part, without saying in which order a
path is tried. A path that begins with such a text fits as soon as its rest does
(`isSome_fit?_append`).

When a path can be cut into such a text and a rest in more than one way, the way that is taken leaves
the shortest rest: `fit?_greedy`. Each parameter has the longest text that leaves the others one, so
this is not plain. It holds because a text that begins later and ends earlier than another one can be
exchanged for the later beginning and the later end: `Spells.exchange`.
-/

namespace GitLfs.Http

namespace ParameterKind

/-! ## The texts of a parameter -/

/-- The character is a hexadecimal digit. -/
def isHex (c : Char) : Bool := (Text.Percent.hexValue? c).isSome

/-- The text is groups of hexadecimal digits, of the given sizes; a hyphen may stand in front of each
but the first. -/
def IsGroups (first : Bool) : List Nat → List Char → Prop
  | [], t => t = []
  | size :: sizes, t => ∃ hyphen group rest, t = hyphen ++ (group ++ rest) ∧
      (hyphen = [] ∨ first = false ∧ hyphen = ['-']) ∧ group.length = size ∧
      (∀ c ∈ group, isHex c = true) ∧ IsGroups false sizes rest

/-- A parameter of a kind may stand for a text. -/
inductive Allows : ParameterKind → List Char → Prop where
  | segment {t : List Char} (ne_nil : t ≠ []) (h : ∀ c ∈ t, c ≠ '/') : Allows .segment t
  | path {t : List Char} (h : ∀ c ∈ t, c ≠ '\n') : Allows .path t
  | integer {t : List Char} (ne_nil : t ≠ []) (h : ∀ c ∈ t, c.isDigit = true) : Allows .integer t
  | whole {t : List Char} (ne_nil : t ≠ []) (h : ∀ c ∈ t, c.isDigit = true) : Allows .decimal t
  | pointed {a b : List Char} (ha : a ≠ []) (hb : b ≠ []) (hda : ∀ c ∈ a, c.isDigit = true)
      (hdb : ∀ c ∈ b, c.isDigit = true) : Allows .decimal (a ++ '.' :: b)
  | identifier {t : List Char} (h : IsGroups true [8, 4, 4, 4, 12] t) : Allows .identifier t

/-! ### Runs of characters -/

theorem mem_downTo1 {m n : Nat} : m ∈ downTo1 n ↔ 1 ≤ m ∧ m ≤ n := by
  simp only [downTo1, List.mem_map, List.mem_reverse, List.mem_range]
  constructor
  · rintro ⟨i, hi, rfl⟩
    omega
  · intro ⟨h1, hn⟩
    exact ⟨m - 1, by omega, by omega⟩

theorem pairwise_downTo1 (n : Nat) : (downTo1 n).Pairwise (· > ·) := by
  unfold downTo1
  rw [List.pairwise_map, List.pairwise_reverse]
  exact List.pairwise_lt_range.imp fun h => by omega

theorem run_append {p : Char → Bool} {t : List Char} (h : ∀ c ∈ t, p c = true) (rest : List Char) :
    run p (t ++ rest) = t.length + run p rest := by
  unfold run
  rw [List.takeWhile_append_of_pos h, List.length_append]

/-- The characters up to the end of a run are in the class. -/
theorem exists_of_le_run {p : Char → Bool} {s : List Char} {n : Nat} (h : n ≤ run p s) :
    ∃ t rest, s = t ++ rest ∧ t.length = n ∧ ∀ c ∈ t, p c = true := by
  unfold run at h
  have hlength : (s.takeWhile p).length ≤ s.length := (List.takeWhile_prefix p).length_le
  refine ⟨s.take n, s.drop n, (List.take_append_drop n s).symm, ?_, fun c hc => ?_⟩
  · rw [List.length_take]
    omega
  · have hstarts : s.take n <+: s.takeWhile p := by
      refine List.prefix_of_prefix_length_le (List.take_prefix n s) (List.takeWhile_prefix p) ?_
      rw [List.length_take]
      omega
    exact List.all_eq_true.1 List.all_takeWhile c (hstarts.subset hc)

/-! ### Groups of hexadecimal digits -/

/-- The number of hyphens that are passed in front of a group. -/
def hyphens (first : Bool) (s : List Char) : Nat :=
  match first, s with
  | false, '-' :: _ => 1
  | _, _ => 0

theorem groupsLength?_cons (first : Bool) (size : Nat) (sizes : List Nat) (s : List Char) :
    groupsLength? first (size :: sizes) s =
      if ((s.drop (hyphens first s)).take size).length = size ∧
          ((s.drop (hyphens first s)).take size).all isHex then
        (groupsLength? false sizes (s.drop (hyphens first s + size))).map
          (hyphens first s + size + ·)
      else none := rfl

/-- A hexadecimal digit is no hyphen. -/
theorem hyphens_of_isHex {c : Char} (hc : isHex c = true) (first : Bool) (s : List Char) :
    hyphens first (c :: s) = 0 := by
  unfold hyphens
  split
  · next heq =>
    rw [(List.cons.inj heq).1] at hc
    exact absurd hc (by decide)
  · rfl

/-- How long groups are does not depend on what follows them. -/
theorem groupsLength?_append {first : Bool} {sizes : List Nat} {t : List Char}
    (hpos : ∀ size ∈ sizes, 0 < size) (h : IsGroups first sizes t) (more : List Char) :
    groupsLength? first sizes (t ++ more) = some t.length := by
  induction sizes generalizing first t with
  | nil =>
    obtain rfl : t = [] := h
    rfl
  | cons size sizes ih =>
    obtain ⟨hyphen, group, rest, rfl, hhyphen, rfl, hhex, hrest⟩ := h
    have hmore := ih (fun size hs => hpos size (List.mem_cons_of_mem _ hs)) hrest
    have hcount : hyphens first (hyphen ++ (group ++ (rest ++ more))) = hyphen.length := by
      rcases hhyphen with rfl | ⟨rfl, rfl⟩
      · obtain ⟨c, group', rfl⟩ := List.exists_cons_of_length_pos (hpos _ List.mem_cons_self)
        exact hyphens_of_isHex (hhex c List.mem_cons_self) first _
      · rfl
    have hlength : hyphen.length + group.length = (hyphen ++ group).length := by
      rw [List.length_append]
    rw [List.append_assoc, List.append_assoc, groupsLength?_cons, hcount, List.drop_left,
      List.take_left, if_pos ⟨rfl, List.all_eq_true.2 hhex⟩, hlength, ← List.append_assoc,
      List.drop_left, hmore, Option.map_some, List.length_append, List.length_append,
      List.length_append, Nat.add_assoc]

/-- What is found to be groups is so. -/
theorem exists_of_groupsLength? {first : Bool} {sizes : List Nat} {s : List Char} {n : Nat}
    (h : groupsLength? first sizes s = some n) :
    ∃ t rest, s = t ++ rest ∧ t.length = n ∧ IsGroups first sizes t := by
  induction sizes generalizing first s n with
  | nil => exact ⟨[], s, rfl, Option.some.inj h, rfl⟩
  | cons size sizes ih =>
    rw [groupsLength?_cons] at h
    by_cases hgroup : ((s.drop (hyphens first s)).take size).length = size ∧
        ((s.drop (hyphens first s)).take size).all isHex
    · rw [if_pos hgroup] at h
      obtain ⟨m, hm, rfl⟩ := Option.map_eq_some_iff.1 h
      obtain ⟨t, rest, hs, rfl, ht⟩ := ih hm
      have hhyphen : hyphens first s ≤ s.length ∧ (s.take (hyphens first s) = [] ∨
          first = false ∧ s.take (hyphens first s) = ['-']) := by
        unfold hyphens
        split
        · simp
        · simp
      rw [← List.drop_drop] at hs
      refine ⟨s.take (hyphens first s) ++ ((s.drop (hyphens first s)).take size ++ t), rest, ?_, ?_,
        _, _, _, rfl, hhyphen.2, hgroup.1, List.all_eq_true.1 hgroup.2, ht⟩
      · rw [List.append_assoc, List.append_assoc, ← hs, List.take_append_drop,
          List.take_append_drop]
      · rw [List.length_append, List.length_append, hgroup.1, List.length_take]
        omega
    · rw [if_neg hgroup] at h
      cases h

/-! ### The lengths of texts -/

/-- Digits may stand alone, or in front of a point and more digits. -/
theorem mem_decimalLengths {s : List Char} {n : Nat} :
    n ∈ decimalLengths s ↔ (1 ≤ n ∧ n ≤ run Char.isDigit s) ∨
      ∃ m b, 1 ≤ run Char.isDigit s ∧ s.drop (run Char.isDigit s) = '.' :: b ∧
        1 ≤ m ∧ m ≤ run Char.isDigit b ∧ n = run Char.isDigit s + 1 + m := by
  unfold decimalLengths
  rw [List.mem_append, mem_downTo1, or_comm]
  refine or_congr Iff.rfl ?_
  split
  · next k b hrun hdrop =>
    simp only [List.mem_map, mem_downTo1]
    constructor
    · intro ⟨m, ⟨hpos, hle⟩, hn⟩
      exact ⟨m, b, by omega, hdrop, hpos, hle, hn.symm⟩
    · intro ⟨m, b', _, hdrop', hpos, hle, hn⟩
      obtain rfl : b = b' := (List.cons.inj (hdrop.symm.trans hdrop')).2
      exact ⟨m, ⟨hpos, hle⟩, hn.symm⟩
  · next hother =>
    refine iff_of_false List.not_mem_nil fun ⟨m, b, hpos, hdrop, _⟩ => ?_
    obtain ⟨k, hk⟩ := Nat.exists_eq_succ_of_ne_zero (Nat.ne_of_gt hpos)
    exact hother k b hk hdrop

/-- A text that is allowed is found where it stands, whatever follows it. -/
theorem length_mem_lengths {kind : ParameterKind} {t : List Char} (h : kind.Allows t)
    (rest : List Char) : t.length ∈ kind.lengths (t ++ rest) := by
  cases h with
  | segment ne_nil h =>
    have hall : ∀ c ∈ t, decide (c ≠ '/') = true := fun c hc => decide_eq_true (h c hc)
    have hpos := List.length_pos_iff.2 ne_nil
    rw [lengths, mem_downTo1, run_append hall]
    omega
  | path h =>
    have hall : ∀ c ∈ t, decide (c ≠ '\n') = true := fun c hc => decide_eq_true (h c hc)
    rw [lengths, List.mem_append, mem_downTo1, run_append hall, List.mem_singleton]
    omega
  | integer ne_nil h =>
    have hpos := List.length_pos_iff.2 ne_nil
    rw [lengths, mem_downTo1, run_append h]
    omega
  | whole ne_nil h =>
    have hpos := List.length_pos_iff.2 ne_nil
    rw [lengths, mem_decimalLengths, run_append h]
    omega
  | @pointed a b ha hb hda hdb =>
    have hposa := List.length_pos_iff.2 ha
    have hposb := List.length_pos_iff.2 hb
    have hrun : run Char.isDigit (a ++ '.' :: (b ++ rest)) = a.length := by
      rw [run_append hda]
      rfl
    rw [List.append_assoc, List.cons_append, lengths, mem_decimalLengths, hrun, List.drop_left]
    refine Or.inr ⟨b.length, b ++ rest, hposa, rfl, hposb, ?_, ?_⟩
    · rw [run_append hdb]
      omega
    · rw [List.length_append, List.length_cons]
      omega
  | identifier h =>
    rw [lengths, groupsLength?_append (by decide) h]
    exact List.mem_singleton.2 rfl

/-- What is found is allowed. -/
theorem exists_of_mem_lengths {kind : ParameterKind} {s : List Char} {n : Nat}
    (h : n ∈ kind.lengths s) :
    ∃ t rest, s = t ++ rest ∧ t.length = n ∧ kind.Allows t := by
  -- a run is allowed where it is not empty
  have hrun : ∀ {kind : ParameterKind} {p : Char → Bool}, 1 ≤ n → n ≤ run p s →
      (∀ t, t ≠ [] → (∀ c ∈ t, p c = true) → kind.Allows t) →
        ∃ t rest, s = t ++ rest ∧ t.length = n ∧ kind.Allows t := by
    intro kind p hpos hle hallows
    obtain ⟨t, rest, hs, hlength, hall⟩ := exists_of_le_run hle
    refine ⟨t, rest, hs, hlength, hallows t (fun hnil => ?_) hall⟩
    rw [hnil, List.length_nil] at hlength
    omega
  cases kind with
  | segment =>
    rw [lengths, mem_downTo1] at h
    exact hrun h.1 h.2 fun t hne hall => .segment hne fun c hc => of_decide_eq_true (hall c hc)
  | path =>
    rw [lengths, List.mem_append, mem_downTo1, List.mem_singleton] at h
    rcases h with h | rfl
    · exact hrun h.1 h.2 fun t _ hall => .path fun c hc => of_decide_eq_true (hall c hc)
    · exact ⟨[], s, rfl, rfl, .path fun c hc => absurd hc List.not_mem_nil⟩
  | integer =>
    rw [lengths, mem_downTo1] at h
    exact hrun h.1 h.2 fun t hne hall => .integer hne hall
  | decimal =>
    rw [lengths, mem_decimalLengths] at h
    rcases h with h | ⟨m, b, hpos, hdrop, hm, hle, hn⟩
    · exact hrun h.1 h.2 fun t hne hall => .whole hne hall
    · obtain ⟨a, rest, hs, ha, hda⟩ := exists_of_le_run (Nat.le_refl (run Char.isDigit s))
      obtain ⟨b', rest', hb, hb', hdb⟩ := exists_of_le_run hle
      rw [← ha, hs, List.drop_left, hb] at hdrop
      refine ⟨a ++ '.' :: b', rest', ?_, ?_, .pointed ?_ ?_ hda hdb⟩
      · rw [hs, hdrop, List.append_assoc, List.cons_append]
      · rw [List.length_append, List.length_cons]
        omega
      · rintro rfl
        rw [← ha] at hpos
        exact absurd hpos (by decide)
      · rintro rfl
        rw [← hb'] at hm
        exact absurd hm (by decide)
  | identifier =>
    rw [lengths, Option.mem_toList] at h
    obtain ⟨t, rest, hs, hlength, ht⟩ := exists_of_groupsLength? h
    exact ⟨t, rest, hs, hlength, .identifier ht⟩
  | unknown name => exact absurd h List.not_mem_nil

/-- Longer texts are tried first. -/
theorem pairwise_lengths (kind : ParameterKind) (s : List Char) :
    (kind.lengths s).Pairwise (· > ·) := by
  cases kind with
  | segment => exact pairwise_downTo1 _
  | path =>
    rw [lengths, List.pairwise_append]
    refine ⟨pairwise_downTo1 _, List.pairwise_singleton _ _, fun m hm n hn => ?_⟩
    rw [mem_downTo1] at hm
    rw [List.mem_singleton.1 hn]
    omega
  | integer => exact pairwise_downTo1 _
  | decimal =>
    unfold lengths decimalLengths
    rw [List.pairwise_append]
    refine ⟨?_, pairwise_downTo1 _, fun m hm n hn => ?_⟩
    · split
      · rw [List.pairwise_map]
        exact (pairwise_downTo1 _).imp fun h => by omega
      · exact List.Pairwise.nil
    · rw [mem_downTo1] at hn
      split at hm
      · obtain ⟨k, _, rfl⟩ := List.mem_map.1 hm
        omega
      · exact absurd hm List.not_mem_nil
  | identifier =>
    rw [lengths]
    cases groupsLength? true [8, 4, 4, 4, 12] s with
    | none => exact List.Pairwise.nil
    | some n => exact List.pairwise_singleton _ _
  | unknown name => exact List.Pairwise.nil

/-! ### Texts within texts -/

/-- Groups of the same sizes have the same number of digits, wherever hyphens stand. -/
theorem countP_of_isGroups {first first' : Bool} {sizes : List Nat} {t t' : List Char}
    (h : IsGroups first sizes t) (h' : IsGroups first' sizes t') :
    t.countP isHex = t'.countP isHex := by
  have hnone : ∀ {first : Bool} {hyphen : List Char}, hyphen = [] ∨ first = false ∧ hyphen = ['-'] →
      hyphen.countP isHex = 0 := by
    intro first hyphen hhyphen
    rcases hhyphen with rfl | ⟨-, rfl⟩ <;> rfl
  induction sizes generalizing first first' t t' with
  | nil =>
    obtain rfl : t = [] := h
    obtain rfl : t' = [] := h'
    rfl
  | cons size sizes ih =>
    obtain ⟨hyphen, group, rest, rfl, hhyphen, hsize, hhex, hrest⟩ := h
    obtain ⟨hyphen', group', rest', rfl, hhyphen', hsize', hhex', hrest'⟩ := h'
    simp only [List.countP_append, hnone hhyphen, hnone hhyphen', List.countP_eq_length.2 hhex,
      List.countP_eq_length.2 hhex', ih hrest hrest']
    omega

/-- Groups end in a digit. -/
theorem isHex_getLast {first : Bool} {sizes : List Nat} {t : List Char}
    (hpos : ∀ size ∈ sizes, 0 < size) (h : IsGroups first sizes t) :
    ∀ c ∈ t.getLast?, isHex c = true := by
  induction sizes generalizing first t with
  | nil =>
    obtain rfl : t = [] := h
    exact fun c hc => absurd hc (by simp)
  | cons size sizes ih =>
    obtain ⟨hyphen, group, rest, rfl, -, rfl, hhex, hrest⟩ := h
    intro c hc
    have hgroup : group ≠ [] := List.ne_nil_of_length_pos (hpos _ List.mem_cons_self)
    rw [List.getLast?_append, List.getLast?_append, List.getLast?_eq_some_getLast hgroup] at hc
    cases hlast : rest.getLast? with
    | some d =>
      rw [hlast] at hc
      exact ih (fun size hs => hpos size (List.mem_cons_of_mem _ hs)) hrest c (hlast.trans hc)
    | none =>
      rw [hlast] at hc
      rw [← Option.some.inj hc]
      exact hhex _ (List.getLast_mem hgroup)

/-- There is no slash in groups. -/
theorem slash_notMem_of_isGroups {first : Bool} {sizes : List Nat} {t : List Char}
    (h : IsGroups first sizes t) : '/' ∉ t := by
  induction sizes generalizing first t with
  | nil =>
    obtain rfl : t = [] := h
    exact List.not_mem_nil
  | cons size sizes ih =>
    obtain ⟨hyphen, group, rest, rfl, hhyphen, -, hhex, hrest⟩ := h
    have hnone : '/' ∉ hyphen := by
      rcases hhyphen with rfl | ⟨-, rfl⟩ <;> decide
    have hgroup : '/' ∉ group := fun hmem => absurd (hhex '/' hmem) (by decide)
    rw [List.mem_append, List.mem_append, not_or, not_or]
    exact ⟨hnone, hgroup, ih hrest⟩

/-- Only a parameter for a path may stand for a text with a slash. -/
theorem Allows.slash_notMem {kind : ParameterKind} {t : List Char} (h : kind.Allows t)
    (hkind : kind ≠ .path) : '/' ∉ t := by
  have hdigits : ∀ {s : List Char}, (∀ c ∈ s, c.isDigit = true) → '/' ∉ s :=
    fun h hmem => absurd (h '/' hmem) (by decide)
  cases h with
  | segment _ h => exact fun hmem => h '/' hmem rfl
  | path _ => exact absurd rfl hkind
  | integer _ h | whole _ h => exact hdigits h
  | pointed _ _ ha hb =>
    rw [List.mem_append, List.mem_cons, not_or, not_or]
    exact ⟨hdigits ha, by decide, hdigits hb⟩
  | identifier h => exact slash_notMem_of_isGroups h

/-- A number with decimals starts with a digit. -/
theorem Allows.head_decimal {t : List Char} (h : Allows .decimal t) :
    ∃ c rest, t = c :: rest ∧ c.isDigit = true := by
  have hstart : ∀ {a : List Char} (more : List Char), a ≠ [] → (∀ c ∈ a, c.isDigit = true) →
      ∃ c rest, a ++ more = c :: rest ∧ c.isDigit = true := by
    intro a more hne hda
    obtain ⟨c, a, rfl⟩ := List.exists_cons_of_ne_nil hne
    exact ⟨c, a ++ more, rfl, hda c List.mem_cons_self⟩
  generalize hkind : ParameterKind.decimal = kind at h
  cases h with
  | whole ne_nil h =>
    rw [← List.append_nil t]
    exact hstart [] ne_nil h
  | pointed ha _ hda _ => exact hstart _ ha hda
  | segment | path | integer | identifier => cases hkind

/-- What starts with a digit and ends as a number with decimals does is one. -/
theorem Allows.of_append_decimal {before s : List Char} (h : Allows .decimal (before ++ s))
    (hs : ∃ c rest, s = c :: rest ∧ c.isDigit = true) : Allows .decimal s := by
  obtain ⟨c, rest, rfl, hc⟩ := hs
  generalize hkind : ParameterKind.decimal = kind at h
  generalize hall : before ++ c :: rest = all at h
  cases h with
  | whole _ hd =>
    refine .whole (List.cons_ne_nil c rest) fun d hd' => hd d ?_
    rw [← hall]
    exact List.mem_append_right _ hd'
  | @pointed a b ha hb hda hdb =>
    rcases List.append_eq_append_iff.1 hall with ⟨a', rfl, hrest⟩ | ⟨b', rfl, hrest⟩
    · -- the point stands in what is left, behind a digit
      have ha' : a' ≠ [] := by
        rintro rfl
        rw [(List.cons.inj hrest).1] at hc
        exact absurd hc (by decide)
      rw [hrest]
      exact .pointed ha' hb (fun d hd => hda d (List.mem_append_right _ hd)) hdb
    · -- the point is cut off, or it would be the first character that is left
      cases b' with
      | nil =>
        rw [← (List.cons.inj hrest).1] at hc
        exact absurd hc (by decide)
      | cons d b' =>
        obtain ⟨-, rfl⟩ := List.cons.inj hrest
        exact .whole (List.cons_ne_nil c rest) fun d hd => hdb d (List.mem_append_right _ hd)
  | segment | path | integer | identifier => cases hkind

/-- A text that is allowed may go on to the end of a longer one around it. -/
theorem Allows.extend {kind : ParameterKind} {before t more : List Char}
    (hlong : kind.Allows (before ++ (t ++ more))) (hshort : kind.Allows t) (hmore : more ≠ []) :
    kind.Allows (t ++ more) := by
  have hne : t ++ more ≠ [] := List.append_ne_nil_of_right_ne_nil t hmore
  cases kind with
  | segment =>
    cases hlong with
    | segment _ hall => exact .segment hne fun c hc => hall c (List.mem_append_right _ hc)
  | path =>
    cases hlong with
    | path hall => exact .path fun c hc => hall c (List.mem_append_right _ hc)
  | integer =>
    cases hlong with
    | integer _ hall => exact .integer hne fun c hc => hall c (List.mem_append_right _ hc)
  | decimal =>
    obtain ⟨c, rest, rfl, hc⟩ := hshort.head_decimal
    exact hlong.of_append_decimal ⟨c, rest ++ more, rfl, hc⟩
  | identifier =>
    -- both texts have all the digits, so what is left behind the shorter one has none
    cases hlong with
    | identifier hlong =>
      cases hshort with
      | identifier hshort =>
        have hcount := countP_of_isGroups hlong hshort
        rw [List.countP_append, List.countP_append] at hcount
        have hzero : more.countP isHex = 0 := by omega
        have hlast : more.getLast hmore ∈ (before ++ (t ++ more)).getLast? := by
          rw [List.getLast?_append, List.getLast?_append, List.getLast?_eq_some_getLast hmore]
          rfl
        have hhex := isHex_getLast (by decide) hlong _ hlast
        exact absurd hhex (List.countP_eq_zero.1 hzero _ (List.getLast_mem hmore))
  | unknown name => exact absurd hshort (by rintro ⟨⟩)

end ParameterKind

namespace Pattern

/-! ## The texts of a pattern -/

/-- A pattern stands for a text: its characters for themselves, each parameter for a text of its
kind. -/
inductive Spells : Pattern → List Char → Prop where
  | nil : Spells [] []
  | char {c : Char} {parts : Pattern} {s : List Char} (hparts : Spells parts s) :
      Spells (.char c :: parts) (c :: s)
  | parameter {name : String} {kind : ParameterKind} {parts : Pattern} {t s : List Char}
      (hkind : kind.Allows t) (hparts : Spells parts s) :
      Spells (.parameter name kind :: parts) (t ++ s)

theorem spells_nil_iff {s : List Char} : Spells [] s ↔ s = [] :=
  ⟨fun | .nil => rfl, fun h => h ▸ .nil⟩

theorem spells_char_iff {c : Char} {parts : Pattern} {s : List Char} :
    Spells (.char c :: parts) s ↔ ∃ rest, s = c :: rest ∧ Spells parts rest :=
  ⟨fun | .char hparts => ⟨_, rfl, hparts⟩, fun ⟨_, hs, hparts⟩ => hs ▸ .char hparts⟩

theorem spells_parameter_iff {name : String} {kind : ParameterKind} {parts : Pattern}
    {s : List Char} :
    Spells (.parameter name kind :: parts) s ↔
      ∃ t rest, s = t ++ rest ∧ kind.Allows t ∧ Spells parts rest :=
  ⟨fun | .parameter hkind hparts => ⟨_, _, rfl, hkind, hparts⟩,
    fun ⟨_, _, hs, hkind, hparts⟩ => hs ▸ .parameter hkind hparts⟩

theorem spells_chars (s : List Char) : Spells (s.map .char) s := by
  induction s with
  | nil => exact .nil
  | cons c s ih => exact .char ih

/-- A path that begins with a text of the pattern fits as soon as its rest does. -/
theorem isSome_fit?_append {p q : Pattern} {front back : List Char} (hp : p.Spells front)
    (hq : (fit? q back).isSome) : (fit? (p ++ q) (front ++ back)).isSome := by
  induction hp with
  | nil => exact hq
  | char _ ih =>
    rw [List.cons_append, List.cons_append, fit?, if_pos rfl]
    exact ih
  | @parameter name kind parts t s hkind _ ih =>
    rw [List.cons_append, fit?, List.findSome?_isSome_iff]
    refine ⟨t.length, ?_, ?_⟩
    · rw [List.append_assoc]
      exact ParameterKind.length_mem_lengths hkind _
    · rw [List.append_assoc, List.drop_left, Option.isSome_map]
      exact ih

/-- Where no parameter is for a path, all texts have the same number of slashes. -/
theorem Spells.count_slash {p : Pattern} {s t : List Char} (hs : p.Spells s) (ht : p.Spells t)
    (hpath : ∀ name, Part.parameter name .path ∉ p) : s.count '/' = t.count '/' := by
  induction hs generalizing t with
  | nil => rw [spells_nil_iff.1 ht]
  | @char c parts s _ ih =>
    obtain ⟨rest, rfl, hrest⟩ := spells_char_iff.1 ht
    rw [List.count_cons, List.count_cons,
      ih hrest fun name hmem => hpath name (List.mem_cons_of_mem _ hmem)]
  | @parameter name kind parts u s hkind _ ih =>
    obtain ⟨u', rest, rfl, hkind', hrest⟩ := spells_parameter_iff.1 ht
    have hne : kind ≠ .path := fun he => hpath name (he ▸ List.mem_cons_self)
    rw [List.count_append, List.count_append, List.count_eq_zero.2 (hkind.slash_notMem hne),
      List.count_eq_zero.2 (hkind'.slash_notMem hne),
      ih hrest fun name hmem => hpath name (List.mem_cons_of_mem _ hmem)]

/-! ## The text that is taken -/

/-- A text of the pattern that begins later than another one and ends before it may be exchanged for
one that begins where the later one begins and ends where the other one does. -/
theorem Spells.exchange {p : Pattern} {pre s a₁ a₂ rest₁ rest₂ : List Char} (h₂ : p.Spells a₂)
    (h₁ : p.Spells a₁) (hlong : pre ++ s = a₂ ++ rest₂) (hshort : s = a₁ ++ rest₁)
    (hlt : rest₂.length < rest₁.length) : ∃ a, s = a ++ rest₂ ∧ p.Spells a := by
  induction p generalizing pre s a₁ a₂ with
  | nil =>
    rw [spells_nil_iff.1 h₁, List.nil_append] at hshort
    rw [spells_nil_iff.1 h₂, List.nil_append] at hlong
    have hlength := congrArg List.length hlong
    rw [List.length_append, hshort] at hlength
    omega
  | cons part p ih =>
    cases part with
    | char c =>
      obtain ⟨b₁, rfl, hb₁⟩ := spells_char_iff.1 h₁
      obtain ⟨b₂, rfl, hb₂⟩ := spells_char_iff.1 h₂
      cases pre with
      | nil => exact ⟨c :: b₂, hlong, h₂⟩
      | cons d pre =>
        rw [hshort, List.cons_append, List.cons_append] at hlong
        obtain ⟨-, hlong⟩ := List.cons.inj hlong
        have hpre : (pre ++ [c]) ++ (b₁ ++ rest₁) = b₂ ++ rest₂ := by
          rw [← List.append_cons]
          exact hlong
        obtain ⟨a, ha, hspells⟩ := ih hb₂ hb₁ hpre rfl
        exact ⟨c :: a, by rw [hshort, List.cons_append, ha, List.cons_append], .char hspells⟩
    | parameter name kind =>
      obtain ⟨t₁, b₁, rfl, ht₁, hb₁⟩ := spells_parameter_iff.1 h₁
      obtain ⟨t₂, b₂, rfl, ht₂, hb₂⟩ := spells_parameter_iff.1 h₂
      rw [List.append_assoc] at hshort
      rw [hshort, List.append_assoc, ← List.append_assoc] at hlong
      rcases List.append_eq_append_iff.1 hlong with ⟨more, rfl, hrest⟩ | ⟨more, -, hrest⟩
      · -- the parameter goes further in the earlier text, so it may go there in the later one too
        refine ⟨t₁ ++ more ++ b₂, ?_, .parameter ?_ hb₂⟩
        · rw [hshort, hrest, List.append_assoc, List.append_assoc]
        · by_cases hmore : more = []
          · rw [hmore, List.append_nil]
            exact ht₁
          · rw [List.append_assoc] at ht₂
            exact ht₂.extend ht₁ hmore
      · obtain ⟨a, ha, hspells⟩ := ih hb₂ hb₁ hrest.symm rfl
        exact ⟨t₁ ++ a, by rw [hshort, ha, List.append_assoc], .parameter ht₁ hspells⟩

/-- A parameter has the longest of its texts that leave the others one. -/
theorem exists_of_fit?_parameter {name : String} {kind : ParameterKind} {p : Pattern}
    {s : List Char} {found : List (String × String)}
    (h : fit? (.parameter name kind :: p) s = some found) :
    ∃ t rest later, s = t ++ rest ∧ kind.Allows t ∧ fit? p rest = some later ∧
      found = (name, String.ofList t) :: later ∧
      ∀ t' rest', s = t' ++ rest' → kind.Allows t' → (fit? p rest').isSome →
        t'.length ≤ t.length := by
  rw [fit?, List.findSome?_eq_some_iff] at h
  obtain ⟨longer, n, shorter, hlengths, hn, hlonger⟩ := h
  obtain ⟨later, hlater, rfl⟩ := Option.map_eq_some_iff.1 hn
  obtain ⟨t, rest, rfl, rfl, ht⟩ := ParameterKind.exists_of_mem_lengths
    (hlengths ▸ List.mem_append_right longer List.mem_cons_self)
  rw [List.drop_left] at hlater
  refine ⟨t, rest, later, rfl, ht, hlater, by rw [List.take_left],
    fun t' rest' hs ht' hrest' => ?_⟩
  have hmem := ParameterKind.length_mem_lengths ht' rest'
  rw [← hs, hlengths, List.mem_append, List.mem_cons] at hmem
  rcases hmem with hmem | hmem | hmem
  · -- a longer text would have been taken before
    have hnone := hlonger _ hmem
    rw [Option.map_eq_none_iff, hs, List.drop_left] at hnone
    rw [hnone] at hrest'
    cases hrest'
  · exact Nat.le_of_eq hmem
  · have hpairs := ParameterKind.pairwise_lengths kind (t ++ rest)
    rw [hlengths, List.pairwise_append, List.pairwise_cons] at hpairs
    exact Nat.le_of_lt (hpairs.2.1.1 _ hmem)

/-- What fits two patterns together falls into a text of the first one and a rest that fits the
second one; no other way to cut it so leaves a shorter rest. -/
theorem fit?_greedy {p q : Pattern} {s : List Char} {found : List (String × String)}
    (h : fit? (p ++ q) s = some found) :
    ∃ front back found₁ found₂, s = front ++ back ∧ p.Spells front ∧ fit? q back = some found₂ ∧
      found = found₁ ++ found₂ ∧ found₁.map Prod.fst = p.filterMap Part.name? ∧
      ∀ front' back', s = front' ++ back' → p.Spells front' → (fit? q back').isSome →
        back.length ≤ back'.length := by
  induction p generalizing s found with
  | nil =>
    refine ⟨[], s, [], found, rfl, .nil, h, rfl, rfl, fun front' back' hs hfront' _ => ?_⟩
    rw [hs, spells_nil_iff.1 hfront']
    exact Nat.le_refl _
  | cons part p ih =>
    cases part with
    | char c =>
      cases s with
      | nil => cases h
      | cons d rest =>
        rw [List.cons_append, fit?] at h
        split at h
        · next hcd =>
          subst hcd
          obtain ⟨front, back, found₁, found₂, rfl, hfront, hback, rfl, hnames, hleast⟩ := ih h
          refine ⟨c :: front, back, found₁, found₂, rfl, .char hfront, hback, rfl, hnames,
            fun front' back' hs hfront' hback' => ?_⟩
          obtain ⟨front', rfl, hspells⟩ := spells_char_iff.1 hfront'
          exact hleast front' back' (List.cons.inj hs).2 hspells hback'
        · cases h
    | parameter name kind =>
      obtain ⟨t, rest, later, rfl, ht, hlater, rfl, hlongest⟩ := exists_of_fit?_parameter h
      obtain ⟨front, back, found₁, found₂, rfl, hfront, hback, rfl, hnames, hleast⟩ := ih hlater
      refine ⟨t ++ front, back, (name, String.ofList t) :: found₁, found₂,
        (List.append_assoc _ _ _).symm, .parameter ht hfront, hback, rfl, ?_,
        fun front' back' hs hfront' hback' => ?_⟩
      · rw [List.map_cons, hnames]
        rfl
      · obtain ⟨t', front', rfl, ht', hspells⟩ := spells_parameter_iff.1 hfront'
        rw [List.append_assoc] at hs
        have hlength := hlongest t' _ hs ht' (isSome_fit?_append hspells hback')
        obtain ⟨more, rfl⟩ : t' <+: t :=
          List.prefix_of_prefix_length_le (List.prefix_append t' _) (hs ▸ List.prefix_append t _)
            hlength
        rw [List.append_assoc] at hs
        have hrest := List.append_cancel_left hs
        -- a shorter text of the parameter leaves no shorter rest than the one that was taken
        rcases Nat.lt_or_ge back'.length back.length with hlt | hge
        · obtain ⟨a, ha, haspells⟩ := hspells.exchange hfront hrest rfl hlt
          exact hleast a back' ha haspells hback'
        · exact hge

end Pattern
end GitLfs.Http
