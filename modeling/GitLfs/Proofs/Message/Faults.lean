import GitLfs.Message.Batch
import GitLfs.Proofs.Check.Decode

/-!
# What is wrong with a batch request, and in which order that is found

`Site` lists the places in a batch request at which something can be wrong, `Site.Before` says in which
order they are looked at, and `Site.cause?` says what is wrong at a place, whatever stands elsewhere.
The faults that a check finds are just those, in that order: `faults_decode`.
-/

namespace GitLfs

open Json (Value)

variable {α β : Type}

namespace Checked

/-- The faults of the items of a list are those of its items, in their order. -/
theorem faults_items (check : α → Checked β) (as : List α) (index : Nat) :
    (items check index as).faults = (List.range as.length).flatMap fun i =>
      as[i]?.toList.flatMap fun a => (check a).faults.map (Fault.under (.item (index + i))) := by
  induction as generalizing index with
  | nil => rfl
  | cons a as ih =>
    rw [items, faults_seq, faults_map, faults_under, ih, List.length_cons, List.range_succ_eq_map,
      List.flatMap_cons, List.flatMap_map]
    simp [Nat.add_assoc, Nat.add_comm 1]

/-- A check finds no more than one fault, and that is about the value itself. -/
def Finds (x : Checked α) (cause? : Option Cause) : Prop :=
  x.faults = cause?.toList.map (Fault.mk [])

namespace Finds

variable {x : Checked α} {cause? : Option Cause}

theorem passed (a : α) : (Checked.passed a).Finds none := rfl

theorem fail (cause : Cause) : (Checked.fail cause : Checked α).Finds (some cause) := rfl

/-- What stops a check stops what would come after it. -/
theorem of_failed {first : Fault} {others : List Fault}
    (h : (Checked.failed first others : Checked α).Finds cause?) :
    (Checked.failed first others : Checked β).Finds (some first.cause) := by
  unfold Finds at h ⊢
  cases cause? with
  | none => cases h
  | some cause =>
    obtain ⟨rfl, rfl⟩ := List.cons.inj h
    rfl

theorem under (h : x.Finds cause?) (step : Step) :
    (x.under step).faults = cause?.toList.map (Fault.mk [step]) := by
  rw [faults_under, h, List.map_map]
  rfl

end Finds

end Checked

namespace Decoder

variable {d : Decoder α} {cause? : Value → Option Cause} {members : List (String × Value)}
  {name : String}

theorem faults_required (h : ∀ v, (d v).Finds (cause? v)) :
    (required members name d).faults =
      ((Value.member? members name).elim (some .missing) cause?).toList.map
        (Fault.mk [.member name]) := by
  unfold required
  cases Value.member? members name with
  | none => rfl
  | some v => exact (h v).under _

theorem faults_optional (h : ∀ v, (d v).Finds (cause? v)) (default : α) :
    (optional members name default d).faults =
      ((Value.member? members name).bind cause?).toList.map (Fault.mk [.member name]) := by
  unfold optional
  cases Value.member? members name with
  | none => rfl
  | some v => exact (h v).under _

end Decoder

namespace BatchRequest

/-! ## Places -/

/-- A place in a batch request at which something can be wrong. -/
inductive Site where
  | operation
  | objects
  /-- An item of the list of objects. -/
  | object (index : Nat)
  | oid (index : Nat)
  | size (index : Nat)
  | ref
  | refName
  | transfers
  /-- An item of the list of transfers. -/
  | transfer (index : Nat)
  deriving DecidableEq, Repr

namespace Site

/-- The way to a place. -/
def place : Site → List Step
  | operation => [.member "operation"]
  | objects => [.member "objects"]
  | object i => [.member "objects", .item i]
  | oid i => [.member "objects", .item i, .member "oid"]
  | size i => [.member "objects", .item i, .member "size"]
  | ref => [.member "ref"]
  | refName => [.member "ref", .member "name"]
  | transfers => [.member "transfers"]
  | transfer i => [.member "transfers", .item i]

/-- The place as it is told. -/
def text : Site → String
  | operation => "operation"
  | objects => "objects"
  | object i => "objects." ++ Number.Decimal.text i
  | oid i => "objects." ++ Number.Decimal.text i ++ ".oid"
  | size i => "objects." ++ Number.Decimal.text i ++ ".size"
  | ref => "ref"
  | refName => "ref.name"
  | transfers => "transfers"
  | transfer i => "transfers." ++ Number.Decimal.text i

/-- The field of a request to which a place belongs; a container is looked at before its parts. -/
def stage : Site → Nat
  | operation => 0
  | objects => 1
  | object _ | oid _ | size _ => 2
  | ref => 3
  | refName => 4
  | transfers => 5
  | transfer _ => 6

/-- The number of the item to which a place belongs. -/
def item : Site → Nat
  | object i | oid i | size i | transfer i => i
  | _ => 0

/-- The field of an object to which a place belongs. -/
def part : Site → Nat
  | oid _ => 1
  | size _ => 2
  | _ => 0

/-- A place is looked at before another one. -/
def Before (s t : Site) : Prop :=
  s.stage < t.stage ∨ s.stage = t.stage ∧ (s.item < t.item ∨ s.item = t.item ∧ s.part < t.part)

instance (s t : Site) : Decidable (s.Before t) :=
  inferInstanceAs (Decidable (_ ∨ _))

/-! ## What is wrong at a place -/

/-- The items of a list that is a member of an object. -/
def itemsOf (members : List (String × Value)) (name : String) : List Value :=
  match Value.member? members name with
  | some (.list items) => items
  | _ => []

/-- The texts that values are, if all of them are texts. -/
def texts? : List Value → Option (List String)
  | [] => some []
  | .text s :: vs => (texts? vs).map (s :: ·)
  | _ :: _ => none

/-- What is wrong with the name of an operation. -/
def operationCause? : Value → Option Cause
  | .text s => if s ∈ ["upload", "download", "verify"] then none else some (.unknownOperation s)
  | _ => some .notText

/-- What is wrong with the identifier of an object. -/
def oidCause? : Value → Option Cause
  | .text s => if Text.trimmed Text.isBlank s = "" then some .emptyText else none
  | _ => some .notText

/-- What is wrong with the size of an object. -/
def sizeCause? (v : Value) : Option Cause :=
  match Decoder.integer v with
  | .failed first _ => some first.cause
  | .passed n => if n < 0 then some .negative else none

/-- What is wrong with the name of a ref. -/
def nameCause? : Value → Option Cause
  | .null | .text _ => none
  | _ => some .notText

/-- What is wrong at a place of a request with the given members, if something stands there. -/
def cause? (members : List (String × Value)) : Site → Option Cause
  | operation =>
    (Value.member? members "operation").elim (some .missing) operationCause?
  | objects =>
    match Value.member? members "objects" with
    | none => some .missing
    | some (.list _) => none
    | some _ => some .notAList
  | object i =>
    match (itemsOf members "objects")[i]? with
    | none | some (.object _) => none
    | some _ => some (.notARecord "LfsObject")
  | oid i =>
    match (itemsOf members "objects")[i]? with
    | some (.object fields) => (Value.member? fields "oid").elim (some .missing) oidCause?
    | _ => none
  | size i =>
    match (itemsOf members "objects")[i]? with
    | some (.object fields) => (Value.member? fields "size").bind sizeCause?
    | _ => none
  | ref =>
    match Value.member? members "ref" with
    | none | some .null | some (.object _) => none
    | some _ => some (.notARecord "LfsRef")
  | refName =>
    match Value.member? members "ref" with
    | some (.object fields) => (Value.member? fields "name").bind nameCause?
    | _ => none
  | transfers =>
    match Value.member? members "transfers" with
    | none | some .null => none
    | some (.list vs) => (texts? vs).bind fun offered =>
      if "basic" ∈ offered then none else some (.basicNotOffered offered)
    | some _ => some .notAList
  | transfer i =>
    match (itemsOf members "transfers")[i]? with
    | none | some (.text _) => none
    | some _ => some .notText

/-- The fault at a place. -/
def fault? (members : List (String × Value)) (s : Site) : Option Fault :=
  (s.cause? members).map (Fault.mk s.place)

end Site

/-! ## The faults of single values -/

open Site

variable {members : List (String × Value)}

theorem finds_operation (v : Value) : (BatchOperation.decode v).Finds (operationCause? v) := by
  cases v with
  | text s =>
    by_cases hs : s ∈ ["upload", "download", "verify"]
    · have hnone : operationCause? (.text s) = none := if_pos hs
      rw [hnone]
      simp only [List.mem_cons, List.not_mem_nil, or_false] at hs
      rcases hs with rfl | rfl | rfl <;> exact .passed _
    · have hunknown : operationCause? (.text s) = some (.unknownOperation s) := if_neg hs
      have hop : BatchOperation.ofName? s = none := by
        simp only [List.mem_cons, List.not_mem_nil, or_false, not_or] at hs
        obtain ⟨hupload, hdownload, hverify⟩ := hs
        rw [BatchOperation.ofName?, if_neg hupload, if_neg hdownload, if_neg hverify]
      rw [hunknown, BatchOperation.decode, Decoder.text]
      dsimp only [Checked.andThen]
      rw [hop]
      exact .fail _
  | _ => exact .fail _

theorem finds_oid (v : Value) : (Decoder.trimmedText v).Finds (oidCause? v) := by
  cases v with
  | text s =>
    rw [Decoder.trimmedText, Decoder.text, Checked.andThen, Decoder.nonEmpty, oidCause?]
    split
    · exact .fail _
    · exact .passed _
  | _ => exact .fail _

/-- A check of a number finds no more than one fault, and no rule of the protocol is broken by it. -/
def FindsNumeric (x : Checked Int) : Prop :=
  ∃ cause?, x.Finds cause? ∧ ∀ cause ∈ cause?, cause.isProtocolRule = false

theorem findsNumeric_passed (n : Int) : FindsNumeric (.passed n) :=
  ⟨none, .passed n, fun _ h => by cases h⟩

theorem findsNumeric_fail {cause : Cause} (h : cause.isProtocolRule = false) :
    FindsNumeric (.fail cause) :=
  ⟨some cause, .fail cause, fun _ hcause => Option.some.inj hcause ▸ h⟩

theorem findsNumeric_integerOfDecimal (negative : Bool) (mantissa : Nat) (exponent : Int) :
    FindsNumeric (Decoder.integerOfDecimal negative mantissa exponent) := by
  unfold Decoder.integerOfDecimal
  split
  · exact findsNumeric_fail rfl
  · split
    · exact findsNumeric_fail rfl
    · split
      · exact findsNumeric_fail rfl
      · exact findsNumeric_passed _

theorem findsNumeric_integer (v : Value) : FindsNumeric (Decoder.integer v) := by
  unfold Decoder.integer
  split
  · exact findsNumeric_passed _
  · exact findsNumeric_passed _
  · exact findsNumeric_integerOfDecimal _ _ _
  · exact findsNumeric_fail rfl
  · split
    · exact findsNumeric_passed _
    · exact findsNumeric_fail rfl
    · exact findsNumeric_fail rfl
  · exact findsNumeric_fail rfl

theorem finds_size (v : Value) : (Decoder.natural v).Finds (sizeCause? v) := by
  obtain ⟨cause?, hfinds, -⟩ := findsNumeric_integer v
  unfold Decoder.natural sizeCause?
  cases hinteger : Decoder.integer v with
  | passed n =>
    unfold Checked.andThen
    dsimp only
    split
    · exact .fail _
    · exact .passed _
  | failed first others =>
    rw [hinteger] at hfinds
    exact hfinds.of_failed

theorem finds_name (v : Value) : (Decoder.nullable Decoder.text v).Finds (nameCause? v) := by
  cases v with
  | null => exact .passed _
  | text s => exact .passed _
  | _ => exact .fail _

/-! ## The faults of a request -/

theorem filterMap_fault? (s : Site) :
    [s].filterMap (fault? members) = (s.cause? members).toList.map (Fault.mk s.place) := by
  rw [List.filterMap_cons, List.filterMap_nil, fault?]
  cases s.cause? members <;> rfl

theorem faults_operation :
    (Decoder.required members "operation" BatchOperation.decode).faults =
      [Site.operation].filterMap (fault? members) := by
  rw [Decoder.faults_required finds_operation, filterMap_fault?]
  rfl

/-- The faults of an item of the list of objects. -/
theorem faults_object {i : Nat} {v : Value} (h : (itemsOf members "objects")[i]? = some v) :
    (((RequestedObject.decode v).faults.map (Fault.under (.item i))).map
        (Fault.under (.member "objects"))) =
      [Site.object i, .oid i, .size i].filterMap (fault? members) := by
  have hobject : cause? members (.object i) =
      match some v with
      | none | some (.object _) => none
      | some _ => some (.notARecord "LfsObject") := by
    rw [← h]
    rfl
  have hoid : cause? members (.oid i) = match some v with
      | some (.object fields) => (Value.member? fields "oid").elim (some .missing) oidCause?
      | _ => none := by
    rw [← h]
    rfl
  have hsize : cause? members (.size i) = match some v with
      | some (.object fields) => (Value.member? fields "size").bind sizeCause?
      | _ => none := by
    rw [← h]
    rfl
  simp only [List.filterMap_cons, List.filterMap_nil, fault?, hobject, hoid, hsize]
  cases v with
  | object fields =>
    have hfaults : (RequestedObject.decode (.object fields)).faults =
        (Decoder.required fields "oid" Decoder.trimmedText).faults ++
          (Decoder.optional fields "size" 0 Decoder.natural).faults := by
      rw [RequestedObject.decode, Decoder.record, Checked.faults_seq, Checked.faults_map]
    rw [hfaults, Decoder.faults_required finds_oid, Decoder.faults_optional finds_size]
    dsimp only
    cases (Value.member? fields "oid").elim (some .missing) oidCause? <;>
      cases (Value.member? fields "size").bind sizeCause? <;> rfl
  | _ => rfl

theorem faults_objects :
    (Decoder.required members "objects" (Decoder.list RequestedObject.decode)).faults =
      [Site.objects].filterMap (fault? members) ++
        (List.range (itemsOf members "objects").length).flatMap fun i =>
          [Site.object i, .oid i, .size i].filterMap (fault? members) := by
  rw [filterMap_fault?]
  cases hlist : Value.member? members "objects" with
  | none =>
    have hnone : itemsOf members "objects" = [] := by rw [itemsOf, hlist]
    rw [Decoder.required, hlist, hnone, cause?, hlist]
    rfl
  | some v =>
    cases v with
    | list vs =>
      have hitems : itemsOf members "objects" = vs := by rw [itemsOf, hlist]
      rw [Decoder.required, hlist, cause?, hlist, hitems]
      dsimp only
      rw [Checked.faults_under, Decoder.list, Checked.faults_items, List.map_flatMap]
      refine List.flatMap_congr fun i hi => ?_
      obtain ⟨v, hv⟩ : ∃ v, vs[i]? = some v :=
        ⟨_, List.getElem?_eq_getElem (List.mem_range.1 hi)⟩
      rw [hv, Option.toList_some, List.flatMap_singleton, Nat.zero_add]
      exact faults_object (hitems ▸ hv)
    | _ =>
      have hnone : itemsOf members "objects" = [] := by rw [itemsOf, hlist]
      rw [Decoder.required, hlist, hnone, cause?, hlist]
      rfl

theorem faults_ref :
    (Decoder.optional members "ref" none (Decoder.nullable Ref.decode)).faults =
      [Site.ref].filterMap (fault? members) ++ [Site.refName].filterMap (fault? members) := by
  simp only [filterMap_fault?, cause?, Decoder.optional]
  cases Value.member? members "ref" with
  | none => rfl
  | some v =>
    cases v with
    | object fields =>
      have hfaults : (Decoder.nullable Ref.decode (.object fields)).faults =
          (Decoder.optional fields "name" none (Decoder.nullable Decoder.text)).faults := by
        rw [Decoder.nullable, Checked.faults_map, Ref.decode, Decoder.record, Checked.faults_map]
        exact Value.noConfusion
      rw [Checked.faults_under, hfaults, Decoder.faults_optional finds_name]
      dsimp only
      cases (Value.member? fields "name").bind nameCause? <;> rfl
    | _ => rfl

theorem texts?_eq_some_iff {vs : List Value} {offered : List String} :
    texts? vs = some offered ↔ vs = offered.map .text := by
  induction vs generalizing offered with
  | nil => cases offered <;> simp [texts?]
  | cons v vs ih =>
    cases v with
    | text s =>
      rw [texts?, Option.map_eq_some_iff]
      constructor
      · intro ⟨more, hmore, hoffered⟩
        rw [← hoffered, ih.1 hmore]
        rfl
      · intro h
        obtain ⟨t, more, rfl, ht, hmore⟩ := List.map_eq_cons_iff.1 h.symm
        exact ⟨more, ih.2 hmore.symm, by rw [Value.text.inj ht]⟩
    | _ => cases offered <;> simp [texts?]

theorem value?_items (vs : List Value) (index : Nat) :
    (Checked.items Decoder.text index vs).value? = texts? vs := by
  induction vs generalizing index with
  | nil => rfl
  | cons v vs ih =>
    rw [Checked.items, Checked.value?_seq, ih]
    cases v with
    | text s =>
      rw [texts?]
      cases texts? vs <;> rfl
    | _ => rfl

/-- The faults of the items of the list of transfers. -/
theorem faults_items_transfers {vs : List Value} (h : itemsOf members "transfers" = vs) :
    (Checked.items Decoder.text 0 vs).faults.map (Fault.under (.member "transfers")) =
      (List.range vs.length).flatMap fun i => [Site.transfer i].filterMap (fault? members) := by
  rw [Checked.faults_items, List.map_flatMap]
  refine List.flatMap_congr fun i hi => ?_
  obtain ⟨v, hv⟩ : ∃ v, vs[i]? = some v := ⟨_, List.getElem?_eq_getElem (List.mem_range.1 hi)⟩
  have hcause : cause? members (.transfer i) = match some v with
      | none | some (.text _) => none
      | some _ => some .notText := by
    rw [← hv, ← h]
    rfl
  rw [hv, Option.toList_some, List.flatMap_singleton, Nat.zero_add, filterMap_fault?, hcause]
  cases v <;> rfl

theorem faults_transfers :
    (Decoder.optional members "transfers" none (Decoder.nullable decodeTransfers)).faults =
      [Site.transfers].filterMap (fault? members) ++
        (List.range (itemsOf members "transfers").length).flatMap fun i =>
          [Site.transfer i].filterMap (fault? members) := by
  rw [filterMap_fault?]
  cases hlist : Value.member? members "transfers" with
  | none =>
    have hnone : itemsOf members "transfers" = [] := by rw [itemsOf, hlist]
    rw [Decoder.optional, hlist, hnone, cause?, hlist]
    rfl
  | some v =>
    cases v with
    | list vs =>
      have hitems : itemsOf members "transfers" = vs := by rw [itemsOf, hlist]
      have hdecode : Decoder.nullable decodeTransfers (.list vs) = some <$>
          (Checked.items Decoder.text 0 vs).andThen fun offered =>
            if basicTransfer ∈ offered then .passed offered else .fail (.basicNotOffered offered) :=
        rfl
      rw [Decoder.optional, hlist, cause?, hlist, hitems, ← faults_items_transfers hitems]
      dsimp only
      rw [Checked.faults_under, hdecode, Checked.faults_map]
      have hvalue := value?_items vs 0
      cases hchecked : Checked.items Decoder.text 0 vs with
      | passed offered =>
        rw [hchecked] at hvalue
        rw [← hvalue]
        unfold Checked.andThen Checked.value? basicTransfer
        dsimp only [Option.bind_some]
        split <;> rfl
      | failed first others =>
        rw [hchecked] at hvalue
        rw [← hvalue]
        rfl
    | _ =>
      have hnone : itemsOf members "transfers" = [] := by rw [itemsOf, hlist]
      rw [Decoder.optional, hlist, hnone, cause?, hlist]
      rfl

/-! ## All faults in their order -/

namespace Site

/-- The places of a stage at which a request with the given members can be wrong, in their order. -/
def ofStage (members : List (String × Value)) : Nat → List Site
  | 0 => [operation]
  | 1 => [objects]
  | 2 => (List.range (itemsOf members "objects").length).flatMap fun i => [object i, oid i, size i]
  | 3 => [ref]
  | 4 => [refName]
  | 5 => [transfers]
  | 6 => (List.range (itemsOf members "transfers").length).flatMap fun i => [transfer i]
  | _ => []

/-- All these places. -/
def all (members : List (String × Value)) : List Site :=
  [0, 1, 2, 3, 4, 5, 6].flatMap (ofStage members)

theorem stage_of_mem_ofStage {k : Nat} {s : Site} (h : s ∈ ofStage members k) : s.stage = k := by
  unfold ofStage at h
  split at h
  all_goals simp only [List.mem_flatMap, List.mem_cons, List.not_mem_nil, or_false] at h
  · rw [h, stage]
  · rw [h, stage]
  · obtain ⟨i, -, rfl | rfl | rfl⟩ := h <;> rfl
  · rw [h, stage]
  · rw [h, stage]
  · rw [h, stage]
  · obtain ⟨i, -, rfl⟩ := h
    rfl

theorem pairwise_ofStage (members : List (String × Value)) (k : Nat) :
    (ofStage members k).Pairwise Before := by
  unfold ofStage
  split
  · exact List.pairwise_singleton _ _
  · exact List.pairwise_singleton _ _
  · rw [List.pairwise_flatMap]
    refine ⟨fun i _ => by simp [Before, stage, item, part], List.pairwise_lt_range.imp ?_⟩
    intro i j hij
    simp [Before, stage, item, part, hij]
  · exact List.pairwise_singleton _ _
  · exact List.pairwise_singleton _ _
  · exact List.pairwise_singleton _ _
  · rw [List.pairwise_flatMap]
    refine ⟨fun i _ => List.pairwise_singleton _ _, List.pairwise_lt_range.imp ?_⟩
    intro i j hij
    simp [Before, stage, item, part, hij]
  · exact List.Pairwise.nil

/-- Each place stands behind all that come before it. -/
theorem pairwise_all (members : List (String × Value)) : (all members).Pairwise Before := by
  unfold all
  rw [List.pairwise_flatMap]
  refine ⟨fun k _ => pairwise_ofStage members k, ?_⟩
  have hstages : [0, 1, 2, 3, 4, 5, 6].Pairwise (· < ·) := by decide
  refine hstages.imp fun {k l} hkl s hs t ht => Or.inl ?_
  rw [stage_of_mem_ofStage hs, stage_of_mem_ofStage ht]
  exact hkl

/-- Something can be wrong at these places only. -/
theorem mem_all_of_cause? {s : Site} {cause : Cause} (h : s.cause? members = some cause) :
    s ∈ all members := by
  have hitem : ∀ {items : List Value} {i : Nat}, items[i]? ≠ none → i ∈ List.range items.length :=
    fun hne => List.mem_range.2 (Nat.lt_of_not_le fun hle => hne (List.getElem?_eq_none hle))
  have hstage : s ∈ ofStage members s.stage := by
    cases s with
    | object i | oid i | size i | transfer i =>
      refine List.mem_flatMap.2 ⟨i, hitem fun hnone => ?_, by simp⟩
      rw [cause?, hnone] at h
      cases h
    | _ => exact List.mem_singleton.2 rfl
  refine List.mem_flatMap.2 ⟨s.stage, ?_, hstage⟩
  cases s <;> simp [stage]

end Site

/-- The faults that are found are those at the places, in the order of the places. -/
theorem faults_decode (members : List (String × Value)) :
    (decode (.object members)).faults = (Site.all members).filterMap (fault? members) := by
  rw [decode, Decoder.record, Checked.faults_seq, Checked.faults_seq, Checked.faults_seq,
    Checked.faults_map, faults_operation, faults_objects, faults_ref, faults_transfers]
  simp only [Site.all, Site.ofStage, List.flatMap_cons, List.flatMap_nil, List.append_nil,
    List.filterMap_append, List.filterMap_flatMap, List.append_assoc]

/-! ## The first fault -/

namespace Site

theorem Before.irrefl (s : Site) : ¬ s.Before s := by
  unfold Before
  omega

theorem Before.trans {s t u : Site} (h : s.Before t) (h' : t.Before u) : s.Before u := by
  unfold Before at *
  omega

/-- Of two places one is looked at before the other. -/
theorem eq_of_not_before {s t : Site} (h : ¬ s.Before t) (h' : ¬ t.Before s) : s = t := by
  unfold Before at h h'
  cases s <;> cases t <;> simp [stage, item, part] at h h' ⊢ <;> omega

/-- Something is wrong at the place, and nothing at the places that are looked at before it. -/
structure IsFirst (members : List (String × Value)) (s : Site) (cause : Cause) : Prop where
  cause?_eq : s.cause? members = some cause
  before : ∀ t : Site, t.Before s → t.cause? members = none

theorem IsFirst.cause?_ne {s : Site} {cause : Cause} (h : IsFirst members s cause) :
    s.cause? members ≠ none := by
  rw [h.cause?_eq]
  exact Option.some_ne_none cause

theorem IsFirst.unique {s t : Site} {cause cause' : Cause} (h : IsFirst members s cause)
    (h' : IsFirst members t cause') : s = t ∧ cause = cause' := by
  have hst : ¬ s.Before t := fun hbefore => h.cause?_ne (h'.before s hbefore)
  have hts : ¬ t.Before s := fun hbefore => h'.cause?_ne (h.before t hbefore)
  obtain rfl := eq_of_not_before hst hts
  exact ⟨rfl, Option.some.inj (h.cause?_eq.symm.trans h'.cause?_eq)⟩

end Site

/-- The fault that a check tells is the first one. -/
theorem exists_isFirst_of_failed {first : Fault} {others : List Fault}
    (h : decode (.object members) = .failed first others) :
    ∃ s cause, Site.IsFirst members s cause ∧ first = ⟨s.place, cause⟩ := by
  have hfaults := faults_decode members
  rw [h, Checked.faults] at hfaults
  obtain ⟨front, s, back, hall, hnone, hsome, -⟩ := List.filterMap_eq_cons_iff.1 hfaults.symm
  obtain ⟨cause, hcause, rfl⟩ := Option.map_eq_some_iff.1 hsome
  refine ⟨s, cause, ⟨hcause, fun t ht => ?_⟩, rfl⟩
  by_contra hsomething
  obtain ⟨cause', hcause'⟩ := Option.ne_none_iff_exists'.1 hsomething
  have hmem := Site.mem_all_of_cause? hcause'
  have hpairs := Site.pairwise_all members
  rw [hall] at hmem hpairs
  rcases List.mem_append.1 hmem with hfront | hback
  · have hfault := hnone t hfront
    rw [fault?, hcause'] at hfault
    cases hfault
  · rcases List.mem_cons.1 hback with rfl | hback
    · exact Site.Before.irrefl t ht
    · have hst := List.rel_of_pairwise_cons (List.pairwise_append.1 hpairs).2.1 hback
      exact Site.Before.irrefl t (ht.trans hst)

/-- A request passes when nothing is wrong at any place, and then only. -/
theorem exists_passed_iff :
    (∃ request, decode (.object members) = .passed request) ↔ ∀ s : Site, s.cause? members = none := by
  rw [← Checked.faults_eq_nil_iff, faults_decode, List.filterMap_eq_nil_iff]
  constructor
  · intro h s
    by_contra hsomething
    obtain ⟨cause, hcause⟩ := Option.ne_none_iff_exists'.1 hsomething
    have hfault := h s (Site.mem_all_of_cause? hcause)
    rw [fault?, hcause] at hfault
    cases hfault
  · intro h s _
    rw [fault?, h s]
    rfl

/-- Where something is wrong, something is wrong first. -/
theorem exists_isFirst {t : Site} {cause : Cause} (h : t.cause? members = some cause) :
    ∃ s cause, Site.IsFirst members s cause := by
  cases hdecode : decode (.object members) with
  | passed request =>
    have hnone := exists_passed_iff.1 ⟨request, hdecode⟩ t
    rw [h] at hnone
    cases hnone
  | failed first others =>
    obtain ⟨s, cause, hfirst, -⟩ := exists_isFirst_of_failed hdecode
    exact ⟨s, cause, hfirst⟩

/-! ## The first object that does not pass -/

/-- An item of the list of objects does not pass its check. -/
def BadObject (members : List (String × Value)) (i : Nat) : Prop :=
  ∃ v, (itemsOf members "objects")[i]? = some v ∧ ∀ object, RequestedObject.decode v ≠ .passed object

theorem badObject_iff {i : Nat} :
    BadObject members i ↔
      ∃ s ∈ [Site.object i, .oid i, .size i], ∃ cause, s.cause? members = some cause := by
  constructor
  · intro ⟨v, hv, hfails⟩
    by_contra hnone
    push Not at hnone
    have hfaults := faults_object hv
    rw [List.filterMap_eq_nil_iff.2 fun s hs => by
        rw [fault?, Option.eq_none_iff_forall_ne_some.2 (hnone s hs)]
        rfl,
      List.map_eq_nil_iff, List.map_eq_nil_iff, Checked.faults_eq_nil_iff] at hfaults
    obtain ⟨object, hobject⟩ := hfaults
    exact hfails object hobject
  · intro ⟨s, hs, cause, hcause⟩
    cases hv : (itemsOf members "objects")[i]? with
    | none =>
      simp only [List.mem_cons, List.not_mem_nil, or_false] at hs
      rcases hs with rfl | rfl | rfl <;> rw [cause?, hv] at hcause <;> cases hcause
    | some v =>
      refine ⟨v, hv, fun object hobject => ?_⟩
      have hfaults := faults_object hv
      rw [hobject] at hfaults
      have hnone := List.filterMap_eq_nil_iff.1 hfaults.symm s hs
      rw [fault?, hcause] at hnone
      cases hnone

/-- Where the objects are no list, there are no items. -/
theorem itemsOf_of_objects {cause : Cause} (h : Site.objects.cause? members = some cause) :
    itemsOf members "objects" = [] := by
  rw [cause?] at h
  unfold itemsOf
  cases hmember : Value.member? members "objects" with
  | none => rfl
  | some v =>
    rw [hmember] at h
    cases v with
    | list items => cases h
    | _ => rfl

/-- Where the operation is right and an object is bad, the first fault is in the first bad object. -/
theorem exists_isFirst_object (hoperation : Site.operation.cause? members = none)
    (hbad : ∃ i, BadObject members i) :
    ∃ i, BadObject members i ∧ (∀ j < i, ¬ BadObject members j) ∧
      ∃ s ∈ [Site.object i, .oid i, .size i], ∃ cause, Site.IsFirst members s cause := by
  have hitem : ∀ {i : Nat} {t : Site}, t ∈ [Site.object i, .oid i, .size i] →
      t.stage = 2 ∧ t.item = i := by
    intro i t ht
    simp only [List.mem_cons, List.not_mem_nil, or_false] at ht
    rcases ht with rfl | rfl | rfl <;> exact ⟨rfl, rfl⟩
  obtain ⟨i, hi⟩ := hbad
  obtain ⟨t, ht, cause, hcause⟩ := badObject_iff.1 hi
  obtain ⟨s, cause, hfirst⟩ := exists_isFirst hcause
  -- no bad object stands in front of the first fault
  have hle : ∀ {j : Nat}, BadObject members j → s.stage < 2 ∨ s.stage = 2 ∧ s.item ≤ j := by
    intro j hj
    obtain ⟨u, hu, cause', hcause'⟩ := badObject_iff.1 hj
    obtain ⟨hstage, hitem⟩ := hitem hu
    have hnot : ¬ u.Before s := fun hbefore => by
      rw [hfirst.before u hbefore] at hcause'
      cases hcause'
    unfold Site.Before at hnot
    omega
  have hs : s ∈ [Site.object s.item, .oid s.item, .size s.item] := by
    have hstage := hle hi
    cases s with
    | operation => exact absurd hoperation hfirst.cause?_ne
    | objects =>
      obtain ⟨v, hv, -⟩ := hi
      rw [itemsOf_of_objects hfirst.cause?_eq] at hv
      cases hv
    | object i | oid i | size i => simp [item]
    | _ => simp [stage] at hstage
  have hsbad : BadObject members s.item := badObject_iff.2 ⟨s, hs, cause, hfirst.cause?_eq⟩
  refine ⟨s.item, hsbad, fun j hj hbad => ?_, s, hs, cause, hfirst⟩
  have hstage := (hitem hs).1
  have hj' := hle hbad
  omega

end BatchRequest

end GitLfs
