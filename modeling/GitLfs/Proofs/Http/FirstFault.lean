import GitLfs.Proofs.Http.Body
import GitLfs.Proofs.Message.Faults

/-!
# The first fault of a body is told

A body that is not refused for its form is checked, and what is told of it is its first fault
(`first_fault_told`). The faults and their order come from `BatchRequest.faults_decode`. It is left to
show that the words of a rule of the protocol are never taken for a place with words behind it: the
former start with a capital letter (`Site.told_of_rule`).
-/

namespace GitLfs

open Json (Value)

namespace BatchRequest.Site

variable {members : List (String × Value)} {s : Site} {cause : Cause}

/-- What is told about a place: where it is and what is wrong there; a rule of the protocol that is
broken is told alone. -/
def told (s : Site) (cause : Cause) : String :=
  if cause.isProtocolRule then cause.message .json else s.text ++ ": " ++ cause.message .json

theorem intercalate_place (s : Site) : String.intercalate "." (s.place.map Step.text) = s.text := by
  have hfield : ∀ word i name : String,
      word ++ "." ++ i ++ "." ++ name = word ++ "." ++ i ++ ("." ++ name) :=
    fun word i name => String.append_assoc
  cases s with
  | oid i => exact hfield "objects" _ "oid"
  | size i => exact hfield "objects" _ "size"
  | _ => rfl

/-- The text of a place starts with a small letter. -/
theorem head?_text (s : Site) : ∃ c, s.text.toList.head? = some c ∧ c ≠ 'I' ∧ c ≠ 'M' := by
  cases s with
  | operation | objects => exact ⟨'o', rfl, by decide, by decide⟩
  | object i => exact ⟨'o', by simp [text], by decide, by decide⟩
  | oid i => exact ⟨'o', by simp [text], by decide, by decide⟩
  | size i => exact ⟨'o', by simp [text], by decide, by decide⟩
  | ref | refName => exact ⟨'r', rfl, by decide, by decide⟩
  | transfers => exact ⟨'t', rfl, by decide, by decide⟩
  | transfer i => exact ⟨'t', by simp [text], by decide, by decide⟩

/-- A fault at a place is told so. -/
theorem describe_place (s : Site) (cause : Cause) :
    Fault.describe .json ⟨s.place, cause⟩ = s.told cause := by
  have hplace : s.place ≠ [] := by cases s <;> exact List.cons_ne_nil _ _
  have htext : s.text ≠ "" := by
    intro hempty
    obtain ⟨c, hc, -⟩ := s.head?_text
    rw [hempty] at hc
    cases hc
  unfold Fault.describe told
  dsimp only
  rw [intercalate_place, if_neg htext]
  by_cases hrule : cause.isProtocolRule = true
  · rw [if_pos (Or.inl hrule), if_pos hrule]
  · rw [if_neg (not_or.2 ⟨hrule, hplace⟩), if_neg hrule]

/-! ## Rules of the protocol -/

theorem not_rule_of_oidCause? {v : Value} (h : oidCause? v = some cause) :
    cause.isProtocolRule = false := by
  unfold oidCause? at h
  split at h
  · split at h
    · cases h
      rfl
    · cases h
  · cases h
    rfl

theorem not_rule_of_sizeCause? {v : Value} (h : sizeCause? v = some cause) :
    cause.isProtocolRule = false := by
  obtain ⟨cause?, hfinds, hnumeric⟩ := findsNumeric_integer v
  unfold sizeCause? at h
  split at h
  · next first others hinteger =>
    rw [hinteger] at hfinds
    cases cause? with
    | none => cases hfinds
    | some cause' =>
      obtain ⟨hfirst, -⟩ := List.cons.inj hfinds
      rw [hfirst] at h
      exact hnumeric cause h
  · split at h
    · cases h
      rfl
    · cases h

theorem not_rule_of_nameCause? {v : Value} (h : nameCause? v = some cause) :
    cause.isProtocolRule = false := by
  unfold nameCause? at h
  split at h
  · cases h
  · cases h
  · cases h
    rfl

/-- A rule of the protocol can be broken in two places only. -/
theorem rule_cases (h : s.cause? members = some cause) (hrule : cause.isProtocolRule = true) :
    (s = .operation ∧ ∃ name, cause = .unknownOperation name) ∨
      s = .transfers ∧ ∃ offered, cause = .basicNotOffered offered := by
  have hnot : cause.isProtocolRule ≠ false := by rw [hrule]; decide
  cases s with
  | operation =>
    left
    rw [cause?] at h
    cases hmember : Value.member? members "operation" with
    | none =>
      rw [hmember] at h
      cases h
      cases hrule
    | some v =>
      rw [hmember, Option.elim_some] at h
      unfold operationCause? at h
      split at h
      · split at h
        · cases h
        · exact ⟨rfl, _, (Option.some.inj h).symm⟩
      · cases h
        cases hrule
  | transfers =>
    right
    rw [cause?] at h
    split at h
    · cases h
    · cases h
    · obtain ⟨offered, -, h⟩ := Option.bind_eq_some_iff.1 h
      split at h
      · cases h
      · exact ⟨rfl, offered, (Option.some.inj h).symm⟩
    · cases h
      cases hrule
  | objects | object i | ref | transfer i =>
    rw [cause?] at h
    split at h <;> cases h <;> cases hrule
  | oid i =>
    rw [cause?] at h
    split at h
    · next fields _ =>
      cases hmember : Value.member? fields "oid" with
      | none =>
        rw [hmember] at h
        cases h
        cases hrule
      | some v =>
        rw [hmember] at h
        exact absurd (not_rule_of_oidCause? h) hnot
    · cases h
  | size i =>
    rw [cause?] at h
    split at h
    · obtain ⟨v, -, hv⟩ := Option.bind_eq_some_iff.1 h
      exact absurd (not_rule_of_sizeCause? hv) hnot
    · cases h
  | refName =>
    rw [cause?] at h
    split at h
    · obtain ⟨v, -, hv⟩ := Option.bind_eq_some_iff.1 h
      exact absurd (not_rule_of_nameCause? hv) hnot
    · cases h

theorem head?_append {text more : String} {c : Char} (h : text.toList.head? = some c) :
    (text ++ more).toList.head? = some c := by
  rw [String.toList_append, List.head?_append, h, Option.some_or]

/-- The words of a rule start with a capital letter. -/
theorem head?_rule (hrule : cause.isProtocolRule = true) :
    ∃ c, (cause.message .json).toList.head? = some c ∧ (c = 'I' ∨ c = 'M') := by
  cases cause with
  | unknownOperation name =>
    have hhead : "Invalid LFS operation '".toList.head? = some 'I' := rfl
    exact ⟨'I', head?_append (head?_append hhead), Or.inl rfl⟩
  | basicNotOffered offered =>
    have hhead : "Missing 'basic' in transfer property: ".toList.head? = some 'M' := rfl
    exact ⟨'M', head?_append hhead, Or.inr rfl⟩
  | _ => cases hrule

/-- What is told is the words of a rule only where a rule is broken. -/
theorem told_of_rule {rule : Cause} (hrule : rule.isProtocolRule = true)
    (h : s.told cause = rule.message .json) :
    cause.isProtocolRule = true ∧ cause.message .json = rule.message .json := by
  unfold told at h
  by_cases hcause : cause.isProtocolRule = true
  · rw [if_pos hcause] at h
    exact ⟨hcause, h⟩
  · rw [if_neg hcause] at h
    obtain ⟨c, hc, hcapital⟩ := head?_rule hrule
    obtain ⟨c', hc', hI, hM⟩ := s.head?_text
    rw [← h, head?_append (head?_append hc')] at hc
    obtain rfl := Option.some.inj hc
    exact absurd hcapital (not_or.2 ⟨hI, hM⟩)

theorem unknownOperation_inj {name name' : String}
    (h : (Cause.unknownOperation name).message .json = (Cause.unknownOperation name').message .json) :
    name = name' :=
  (String.append_right_inj _).1 ((String.append_left_inj _).1 h)

theorem unknownOperation_ne_basicNotOffered (name : String) (offered : List String) :
    (Cause.unknownOperation name).message .json ≠ (Cause.basicNotOffered offered).message .json := by
  intro h
  have hunknown : "Invalid LFS operation '".toList.head? = some 'I' := rfl
  have hmissing : "Missing 'basic' in transfer property: ".toList.head? = some 'M' := rfl
  have hheads := congrArg (fun text : String => text.toList.head?) h
  dsimp only [Cause.message] at hheads
  rw [head?_append (head?_append hunknown), head?_append hmissing] at hheads
  cases hheads

end BatchRequest.Site

namespace Http

/-! ## The first fault -/

theorem invalidBody_inj {reason reason' : String} (h : invalidBody reason = invalidBody reason') :
    reason = reason' := by
  have hmessage := congrArg Refusal.message (Failure.refusal.inj h)
  exact (String.append_right_inj _).1 (Words.ofText_inj.1 hmessage)

section Batch

open BatchRequest (Site BadObject)
open BatchRequest.Site (IsFirst)

variable {bytes : List UInt8} {members : List (String × Value)}

/-- A body that is read as an object passes where nothing is wrong, and is refused for its first fault
where something is. -/
theorem parseBody_batch (h : Json.readBytes .strict bytes = some (.object members)) :
    ((∀ s : Site, s.cause? members = none) ∧
        ∃ request, parseBody BatchRequest.decode false bytes = .ok request) ∨
      ∃ s cause, IsFirst members s cause ∧
        parseBody BatchRequest.decode false bytes = .error (invalidBody (s.told cause)) := by
  rw [parseBody_of_read h]
  cases hdecode : BatchRequest.decode (.object members) with
  | passed request => exact Or.inl ⟨BatchRequest.exists_passed_iff.1 ⟨request, hdecode⟩, request, rfl⟩
  | failed first others =>
    obtain ⟨s, cause, hfirst, rfl⟩ := BatchRequest.exists_isFirst_of_failed hdecode
    refine Or.inr ⟨s, cause, hfirst, ?_⟩
    dsimp only
    rw [s.describe_place cause]

theorem parseBody_batch_of_isFirst (h : Json.readBytes .strict bytes = some (.object members))
    {s : Site} {cause : Cause} (hfirst : IsFirst members s cause) :
    parseBody BatchRequest.decode false bytes = .error (invalidBody (s.told cause)) := by
  obtain ⟨hnone, -⟩ | ⟨t, cause', hfirst', htold⟩ := parseBody_batch h
  · exact absurd (hnone s) hfirst.cause?_ne
  · obtain ⟨rfl, rfl⟩ := hfirst.unique hfirst'
    exact htold

theorem parseBody_batch_error_iff (h : Json.readBytes .strict bytes = some (.object members))
    {e : Failure} :
    parseBody BatchRequest.decode false bytes = .error e ↔
      ∃ s cause, IsFirst members s cause ∧ e = invalidBody (s.told cause) := by
  constructor
  · intro he
    obtain ⟨-, request, hpassed⟩ | ⟨s, cause, hfirst, htold⟩ := parseBody_batch h
    · rw [hpassed] at he
      cases he
    · rw [htold] at he
      exact ⟨s, cause, hfirst, (Except.error.inj he).symm⟩
  · intro ⟨s, cause, hfirst, he⟩
    rw [he, parseBody_batch_of_isFirst h hfirst]

theorem parseBody_batch_ok_iff (h : Json.readBytes .strict bytes = some (.object members)) :
    (∃ request, parseBody BatchRequest.decode false bytes = .ok request) ↔
      ∀ s : Site, s.cause? members = none := by
  constructor
  · intro ⟨request, hpassed⟩
    obtain ⟨hnone, -⟩ | ⟨s, cause, -, htold⟩ := parseBody_batch h
    · exact hnone
    · rw [htold] at hpassed
      cases hpassed
  · intro hnone
    obtain ⟨-, hpassed⟩ | ⟨s, cause, hfirst, -⟩ := parseBody_batch h
    · exact hpassed
    · exact absurd (hnone s) hfirst.cause?_ne

/-- Where the operation is right, the first bad object is told, and the place in it. -/
theorem parseBody_batch_object (h : Json.readBytes .strict bytes = some (.object members))
    (hoperation : Site.operation.cause? members = none) (hbad : ∃ i, BadObject members i) :
    ∃ i, BadObject members i ∧ (∀ j < i, ¬ BadObject members j) ∧
      ∃ s ∈ [Site.object i, .oid i, .size i], ∃ cause, IsFirst members s cause ∧
        parseBody BatchRequest.decode false bytes =
          .error (invalidBody (s.text ++ ": " ++ cause.message .json)) := by
  obtain ⟨i, hi, hleast, s, hs, cause, hfirst⟩ :=
    BatchRequest.exists_isFirst_object hoperation hbad
  refine ⟨i, hi, hleast, s, hs, cause, hfirst, ?_⟩
  have hnot : ¬ cause.isProtocolRule = true := by
    intro hrule
    simp only [List.mem_cons, List.not_mem_nil, or_false] at hs
    rcases Site.rule_cases hfirst.cause?_eq hrule with ⟨rfl, -⟩ | ⟨rfl, -⟩ <;>
      rcases hs with hs | hs | hs <;> cases hs
  have htold := parseBody_batch_of_isFirst h hfirst
  rw [Site.told, if_neg hnot] at htold
  exact htold

/-- The words of a rule are told where a rule with these words is the first fault. -/
theorem parseBody_batch_rule_iff (h : Json.readBytes .strict bytes = some (.object members))
    {rule : Cause} (hrule : rule.isProtocolRule = true) :
    parseBody BatchRequest.decode false bytes = .error (invalidBody (rule.message .json)) ↔
      ∃ s cause, IsFirst members s cause ∧ cause.isProtocolRule = true ∧
        cause.message .json = rule.message .json := by
  rw [parseBody_batch_error_iff h]
  constructor
  · intro ⟨s, cause, hfirst, htold⟩
    exact ⟨s, cause, hfirst, Site.told_of_rule hrule (invalidBody_inj htold).symm⟩
  · intro ⟨s, cause, hfirst, hcause, hwords⟩
    refine ⟨s, cause, hfirst, ?_⟩
    rw [Site.told, if_pos hcause, hwords]

theorem parseBody_batch_unknownOperation_iff
    (h : Json.readBytes .strict bytes = some (.object members)) {name : String} :
    parseBody BatchRequest.decode false bytes =
        .error (invalidBody ((Cause.unknownOperation name).message .json)) ↔
      IsFirst members .operation (.unknownOperation name) := by
  rw [parseBody_batch_rule_iff h rfl]
  constructor
  · intro ⟨s, cause, hfirst, hcause, hwords⟩
    obtain ⟨rfl, name', rfl⟩ | ⟨-, offered, rfl⟩ := Site.rule_cases hfirst.cause?_eq hcause
    · rw [← Site.unknownOperation_inj hwords]
      exact hfirst
    · exact absurd hwords.symm (Site.unknownOperation_ne_basicNotOffered name offered)
  · intro hfirst
    exact ⟨_, _, hfirst, rfl, rfl⟩

theorem parseBody_batch_basicNotOffered_iff
    (h : Json.readBytes .strict bytes = some (.object members)) {offered : List String} :
    parseBody BatchRequest.decode false bytes =
        .error (invalidBody ((Cause.basicNotOffered offered).message .json)) ↔
      ∃ offered', IsFirst members .transfers (.basicNotOffered offered') ∧
        (Cause.basicNotOffered offered').message .json =
          (Cause.basicNotOffered offered).message .json := by
  rw [parseBody_batch_rule_iff h rfl]
  constructor
  · intro ⟨s, cause, hfirst, hcause, hwords⟩
    obtain ⟨-, name, rfl⟩ | ⟨rfl, offered', rfl⟩ := Site.rule_cases hfirst.cause?_eq hcause
    · exact absurd hwords (Site.unknownOperation_ne_basicNotOffered name offered)
    · exact ⟨offered', hfirst, hwords⟩
  · intro ⟨offered', hfirst, hwords⟩
    exact ⟨_, _, hfirst, rfl, hwords⟩

/-- Where some transfer is no text, the rule about the transfers is not looked at. -/
theorem cause?_transfers_of_not_text
    (h : ∃ v ∈ BatchRequest.Site.itemsOf members "transfers", ∀ name, v ≠ .text name) :
    Site.transfers.cause? members = none := by
  obtain ⟨v, hv, hnot⟩ := h
  unfold Site.itemsOf at hv
  split at hv
  · next items hmember =>
    have htexts : Site.texts? items = none := by
      cases htexts : Site.texts? items with
      | none => rfl
      | some offered =>
        rw [BatchRequest.texts?_eq_some_iff.1 htexts] at hv
        obtain ⟨name, -, hname⟩ := List.mem_map.1 hv
        exact absurd hname.symm (hnot name)
    rw [Site.cause?, hmember]
    dsimp only
    rw [htexts, Option.bind_none]
  · cases hv

/-- The body of a batch request that is read as an object passes exactly where nothing is wrong at any
place, and is refused for the first of its faults where something is, however many there are: the
operation is looked at before the objects, these one by one with the identifier before the size, then the
ref and last the transfers. The first bad object is told where the operation is right, and a rule of the
protocol is told, without a place, exactly where breaking it is the first fault. A body with a number that
is too long, with half of a character or with containers nested too deep is not read at all; it holds no
object, and is refused for its form. -/
theorem first_fault_told (bytes : List UInt8) (members : List (String × Value))
    (hread : Json.readBytes .strict bytes = some (.object members)) :
    let outcome := parseBody BatchRequest.decode false bytes
    ((∃ request, outcome = .ok request) ↔ ∀ s : Site, s.cause? members = none) ∧
    (∀ e, outcome = .error e ↔
      ∃ s cause, IsFirst members s cause ∧ e = invalidBody (s.told cause)) ∧
    (Site.operation.cause? members = none → (∃ i, BadObject members i) →
      ∃ i, BadObject members i ∧ (∀ j < i, ¬ BadObject members j) ∧
        ∃ s ∈ [Site.object i, .oid i, .size i], ∃ cause, IsFirst members s cause ∧
          outcome = .error (invalidBody (s.text ++ ": " ++ cause.message .json))) ∧
    (∀ name, outcome = .error (invalidBody ((Cause.unknownOperation name).message .json)) ↔
      IsFirst members .operation (.unknownOperation name)) ∧
    (∀ offered, outcome = .error (invalidBody ((Cause.basicNotOffered offered).message .json)) ↔
      ∃ offered', IsFirst members .transfers (.basicNotOffered offered') ∧
        (Cause.basicNotOffered offered').message .json =
          (Cause.basicNotOffered offered).message .json) ∧
    ((∃ v ∈ Site.itemsOf members "transfers", ∀ name, v ≠ .text name) →
      ∀ offered,
        outcome ≠ .error (invalidBody ((Cause.basicNotOffered offered).message .json))) := by
  intro outcome
  refine ⟨parseBody_batch_ok_iff hread, fun e => parseBody_batch_error_iff hread,
    parseBody_batch_object hread, fun name => parseBody_batch_unknownOperation_iff hread,
    fun offered => parseBody_batch_basicNotOffered_iff hread, ?_⟩
  intro hother offered htold
  obtain ⟨offered', hfirst, -⟩ := (parseBody_batch_basicNotOffered_iff hread).1 htold
  exact hfirst.cause?_ne (cause?_transfers_of_not_text hother)

/-- A request with something wrong in each of its fields but the operation. -/
def faulty : List (String × Value) :=
  [("transfers", .list [.text "zip", .integer 7]),
    ("ref", .object [("name", .integer 3)]),
    ("objects", .list [.object [("oid", .text "a")], .object [("size", .integer (-2))],
      .object [("oid", .text "")]]),
    ("operation", .text "upload")]

theorem faulty_fits : Value.Fits .strict 3 (.object faulty) := by
  refine .object (List.forall_mem_cons.2 ⟨.list ?_, List.forall_mem_cons.2 ⟨.object ?_,
    List.forall_mem_cons.2 ⟨.list ?_, List.forall_mem_singleton.2 (.text _)⟩⟩⟩)
  · exact List.forall_mem_cons.2 ⟨.text _, List.forall_mem_singleton.2 (.integer (by decide))⟩
  · exact List.forall_mem_singleton.2 (.integer (by decide))
  · refine List.forall_mem_cons.2 ⟨.object ?_, List.forall_mem_cons.2 ⟨.object ?_,
      List.forall_mem_singleton.2 (.object ?_)⟩⟩
    · exact List.forall_mem_singleton.2 (.text _)
    · exact List.forall_mem_singleton.2 (.integer (by decide))
    · exact List.forall_mem_singleton.2 (.text _)

/-- The second object has neither an identifier nor a size that is right: the identifier is told. -/
theorem first_fault_told_faulty :
    let bytes := Text.Utf8.encode (Json.write (.object faulty))
    Json.readBytes .strict bytes = some (.object faulty) ∧ BadObject faulty 1 ∧ BadObject faulty 2 ∧
      IsFirst faulty (.oid 1) .missing ∧
      parseBody BatchRequest.decode false bytes =
        .error (invalidBody "objects.1.oid: Field required") := by
  intro bytes
  have hread : Json.readBytes .strict bytes = some (.object faulty) :=
    Json.readBytes_write faulty_fits rfl
  have hfirst : IsFirst faulty (.oid 1) .missing := by
    refine ⟨rfl, fun t ht => ?_⟩
    cases t with
    | operation | objects => rfl
    | object i | oid i | size i =>
      have hi : i < 2 := by
        simp only [Site.Before, Site.stage, Site.item, Site.part] at ht
        omega
      obtain rfl | rfl : i = 0 ∨ i = 1 := by omega
      all_goals first | rfl | exact absurd ht (by decide)
    | ref | refName | transfers | transfer i =>
      simp only [Site.Before, Site.stage] at ht
      omega
  exact ⟨hread, BatchRequest.badObject_iff.2 ⟨.oid 1, by decide, .missing, rfl⟩,
    BatchRequest.badObject_iff.2 ⟨.oid 2, by decide, .emptyText, rfl⟩, hfirst,
    ((first_fault_told bytes faulty hread).2.1 _).2 ⟨.oid 1, .missing, hfirst, rfl⟩⟩

end Batch

end Http

end GitLfs
