import GitLfs.Proofs.Access.Dialogue
import GitLfs.Proofs.Number.Decimal
import GitLfs.Storage.Exchange
import GitLfs.Storage.Memory

/-!
# What the batch service asks

A batch request passes the gate, has an object store looked up where stores are looked up, and then
asks the store about one object after the other: for its size, and for the actions that follow from
the size. What is asked about an object may depend on what the store did for those before it, so the
plan of a row of objects goes along with the state.

`holds_serve` says that the service holds this dialogue and `heeds_row` that the part about the objects
heeds its plan, whatever the collaborators do. Where all sizes that may have to be told can be written,
nothing but a call that fails stands in the way of the plan (`carriesOut_row`). `objects_in_order` puts
that together.
-/

namespace GitLfs

open Number (Decimal.Short Decimal.text)

variable {σ : Type}

/-! ## Sizes that are told -/

theorem Failure.written_of_short {n : Int} (h : Decimal.Short n) :
    written n = .ok (Decimal.text n) := if_pos h

theorem Failure.written_of_long {n : Int} (h : ¬ Decimal.Short n) :
    written n = .error (.defect .unwritableInteger) := if_neg h

theorem ObjectAnswer.sizeMismatch_of_short {o : RequestedObject} {stored : Int}
    (ho : Decimal.Short o.size) (hstored : Decimal.Short stored) :
    sizeMismatch o stored = .ok (mismatch o (Decimal.text o.size) (Decimal.text stored)) := by
  unfold sizeMismatch
  rw [Failure.written_of_short ho, Failure.written_of_short hstored]
  rfl

namespace ObjectStore

/-- An object with a size that a store gives is absent: there is no size, or one below zero. -/
def absent : Option Int → Bool
  | none => true
  | some n => n < 0

/-- The size of an object that is not absent. -/
def held (size : Option Int) : Option Int := if absent size then none else size

/-- The actions of an upload: to send the object, and what to do afterwards, if anything. -/
def uploadActions (upload : Action) (verify : Option Action) : OrderedMap String Action :=
  let actions := OrderedMap.ofList [("upload", upload)]
  verify.elim actions (actions.insert "verify")

/-- What a store is asked about an object once its size is known: what it takes to send one that is
absent, and to fetch one that is not. -/
def offer (s : ObjectStore σ) (op : BatchOperation) (o : RequestedObject) :
    (held : Option Int) → Dialogue σ ObjectAnswer
  | none =>
    match op with
    | .upload =>
      (Dialogue.single (.uploadAction o.oid o.size) (s.uploadAction o.oid o.size)).andThen
        fun upload =>
          (Dialogue.single (.verifyAction o.oid) (s.verifyAction o.oid)).map fun verify =>
            ⟨o.oid, o.size, none, some (uploadActions upload verify), none⟩
    | .download | .verify => .close (.ok (.notFound o))
  | some size =>
    match op with
    | .upload => .close (.ok ⟨o.oid, o.size, none, none, none⟩)
    | .download =>
      (Dialogue.single (.downloadAction o.oid) (s.downloadAction o.oid)).map fun download =>
        ⟨o.oid, size, none, some (OrderedMap.ofList [("download", download)]), none⟩
    | .verify =>
      .close (if size = o.size then .ok ⟨o.oid, size, none, none, none⟩
        else ObjectAnswer.sizeMismatch o size)

/-- The calls that follow when the size of an object is known. -/
def offerCalls (op : BatchOperation) (o : RequestedObject) (absent : Bool) : List Call :=
  match op, absent with
  | .upload, true => [.uploadAction o.oid o.size, .verifyAction o.oid]
  | .download, false => [.downloadAction o.oid]
  | _, _ => []

/-- What a store is asked about an object. -/
def objectDialogue (s : ObjectStore σ) (op : BatchOperation) (o : RequestedObject) :
    Dialogue σ ObjectAnswer :=
  (Dialogue.single (.objectSize o.oid) (s.size o.oid)).andThen fun size => s.offer op o (held size)

/-- The calls about an object. -/
def objectPlan (s : ObjectStore σ) (op : BatchOperation) (o : RequestedObject) (a : σ) :
    List Call :=
  .objectSize o.oid ::
    match (perform (s.size o.oid) ⟨a, []⟩).1 with
    | .ok size => offerCalls op o (absent size)
    | .error _ => []

theorem held_of_absent {size : Option Int} (h : absent size = true) : held size = none := if_pos h

theorem held_of_not_absent {size : Option Int} (h : absent size = false) :
    ∃ n, 0 ≤ n ∧ size = some n ∧ held size = some n := by
  cases size with
  | none => cases h
  | some n =>
    have hn : 0 ≤ n := by simpa [absent] using h
    exact ⟨n, hn, rfl, by simp [held, h]⟩

/-! ## Rows of objects -/

/-- What a store is asked about objects, one after the other. -/
def rowDialogue (s : ObjectStore σ) (op : BatchOperation) :
    List RequestedObject → Dialogue σ (List ObjectAnswer)
  | [] => .close (.ok [])
  | o :: rest =>
    (s.objectDialogue op o).andThen fun first => (rowDialogue s op rest).map (first :: ·)

/-- The calls about objects; those about an object depend on the state that the ones before it led
to. -/
def rowPlan (s : ObjectStore σ) (op : BatchOperation) : List RequestedObject → σ → List Call
  | [], _ => []
  | o :: rest, a =>
    s.objectPlan op o a ++ rowPlan s op rest ((s.objectDialogue op o).hold a).state

/-! ## The store is asked what the dialogue says -/

theorem holds_storedSize (s : ObjectStore σ) (oid : String) :
    (s.storedSize oid).Holds ((Dialogue.single (.objectSize oid) (s.size oid)).map held) := by
  refine (Service.Holds.ask _ _).bind fun size => ?_
  cases size with
  | none => exact .pure none
  | some n =>
    have hheld : held (some n) = if n < 0 then none else some n := by simp [held, absent]
    rw [hheld]
    exact .pure _

/-- Whatever is done with a size that was asked for comes after the question. -/
theorem holds_storedSize_bind {s : ObjectStore σ} {oid : String}
    {f : Option Int → Service σ ObjectAnswer} {g : Option Int → Dialogue σ ObjectAnswer}
    (h : ∀ size, (f size).Holds (g size)) :
    (s.storedSize oid >>= f).Holds
      ((Dialogue.single (.objectSize oid) (s.size oid)).andThen fun size => g (held size)) := by
  have hbind := (s.holds_storedSize oid).bind h
  unfold Dialogue.map at hbind
  rwa [Dialogue.andThen_assoc] at hbind

theorem holds_answer (s : ObjectStore σ) (op : BatchOperation) (o : RequestedObject) :
    (s.answer op o).Holds (s.objectDialogue op o) := by
  cases op with
  | upload =>
    refine holds_storedSize_bind (g := s.offer .upload o) fun size => ?_
    cases size with
    | some n => exact .pure _
    | none =>
      refine (Service.Holds.ask _ _).bind fun upload => ?_
      refine (Service.Holds.ask _ _).bind fun verify => ?_
      cases verify <;> exact .pure _
  | download =>
    refine holds_storedSize_bind (g := s.offer .download o) fun size => ?_
    cases size with
    | some n => exact (Service.Holds.ask _ _).bind fun download => .pure _
    | none => exact .report_bind (.pure _)
  | verify =>
    refine holds_storedSize_bind (g := s.offer .verify o) fun size => ?_
    cases size with
    | none => exact .pure _
    | some n =>
      dsimp only [offer]
      split
      · exact .pure _
      · exact .ofExcept _

theorem holds_answerAll (s : ObjectStore σ) (op : BatchOperation) (objects : List RequestedObject) :
    (s.answerAll op objects).Holds (s.rowDialogue op objects) := by
  induction objects with
  | nil => exact .pure []
  | cons o rest ih =>
    exact (s.holds_answer op o).bind fun first => ih.bind fun others => .pure _

/-! ## The dialogue about a row heeds its plan -/

theorem heeds_offer (s : ObjectStore σ) (op : BatchOperation) (o : RequestedObject)
    (size : Option Int) (a : σ) :
    ((s.offer op o (held size)).hold a).Heeds (offerCalls op o (absent size)) := by
  cases habsent : absent size with
  | true =>
    rw [held_of_absent habsent]
    cases op with
    | upload =>
      have hask := fun (call : Call) {β : Type} (question : Query σ β) b =>
        Dialogue.heeds_of_carriesOut (Dialogue.carriesOut_single call question b)
      exact Dialogue.heeds_andThen (hask _ _ a) fun upload _ => Dialogue.heeds_map (hask _ _ _) _
    | download | verify => exact Dialogue.heeds_close _ a
  | false =>
    obtain ⟨n, -, -, hheld⟩ := held_of_not_absent habsent
    rw [hheld]
    cases op with
    | download =>
      exact Dialogue.heeds_map
        (Dialogue.heeds_of_carriesOut (Dialogue.carriesOut_single _ _ a)) _
    | upload | verify => exact Dialogue.heeds_close _ a

theorem heeds_object (s : ObjectStore σ) (op : BatchOperation) (o : RequestedObject) (a : σ) :
    ((s.objectDialogue op o).hold a).Heeds (s.objectPlan op o a) := by
  have hask := Dialogue.carriesOut_single (.objectSize o.oid) (s.size o.oid) a
  refine Dialogue.heeds_andThen (Dialogue.heeds_of_carriesOut hask) fun size hsize => ?_
  rw [Dialogue.outcome_single] at hsize
  rw [hsize]
  exact s.heeds_offer op o size _

/-- By induction on the row: the next object comes when there is an answer about the one before. -/
theorem heeds_row (s : ObjectStore σ) (op : BatchOperation) (objects : List RequestedObject)
    (a : σ) : ((s.rowDialogue op objects).hold a).Heeds (s.rowPlan op objects a) := by
  induction objects generalizing a with
  | nil => exact Dialogue.heeds_close _ a
  | cons o rest ih =>
    exact Dialogue.heeds_andThen (s.heeds_object op o a) fun first _ => Dialogue.heeds_map (ih _) _

/-! ## Where sizes can be written, it follows its plan -/

/-- A store that is asked about objects, one after the other, gives no size that is too long to be
written. -/
def TellsShort (s : ObjectStore σ) (op : BatchOperation) : List RequestedObject → σ → Prop
  | [], _ => True
  | o :: rest, a =>
    (∀ n, (perform (s.size o.oid) ⟨a, []⟩).1 = .ok (some n) → Decimal.Short n) ∧
      TellsShort s op rest ((s.objectDialogue op o).hold a).state

variable {s : ObjectStore σ} {op : BatchOperation} {o : RequestedObject} {a : σ}

theorem carriesOut_offer {size : Option Int}
    (h : op = .verify → Decimal.Short o.size ∧ ∀ n, size = some n → Decimal.Short n) (a : σ) :
    ((s.offer op o (held size)).hold a).CarriesOut (offerCalls op o (absent size)) := by
  cases habsent : absent size with
  | true =>
    rw [held_of_absent habsent]
    cases op with
    | upload =>
      exact Dialogue.carriesOut_andThen (Dialogue.carriesOut_single _ _ a) fun upload _ =>
        Dialogue.carriesOut_map (Dialogue.carriesOut_single _ _ _) _
    | download | verify => exact Dialogue.carriesOut_ok _ a
  | false =>
    obtain ⟨n, -, rfl, hheld⟩ := held_of_not_absent habsent
    rw [hheld]
    cases op with
    | download => exact Dialogue.carriesOut_map (Dialogue.carriesOut_single _ _ a) _
    | upload => exact Dialogue.carriesOut_ok _ a
    | verify =>
      obtain ⟨hdeclared, hstored⟩ := h rfl
      dsimp only [offer]
      split
      · exact Dialogue.carriesOut_ok _ a
      · rw [ObjectAnswer.sizeMismatch_of_short hdeclared (hstored n rfl)]
        exact Dialogue.carriesOut_ok _ a

theorem carriesOut_object (h : op = .verify → Decimal.Short o.size ∧
      ∀ n, (perform (s.size o.oid) ⟨a, []⟩).1 = .ok (some n) → Decimal.Short n) :
    ((s.objectDialogue op o).hold a).CarriesOut (s.objectPlan op o a) := by
  have hask := Dialogue.carriesOut_single (.objectSize o.oid) (s.size o.oid) a
  refine Dialogue.carriesOut_andThen hask fun size hsize => ?_
  rw [Dialogue.outcome_single] at hsize
  rw [hsize]
  refine carriesOut_offer (fun hop => ⟨(h hop).1, fun n hn => (h hop).2 n ?_⟩) _
  rw [hsize, hn]

/-- By induction on the row: nothing but a call that fails stands in the way of the next object. -/
theorem carriesOut_row {objects : List RequestedObject} (h : op = .verify →
      (∀ o ∈ objects, Decimal.Short o.size) ∧ s.TellsShort op objects a) :
    ((s.rowDialogue op objects).hold a).CarriesOut (s.rowPlan op objects a) := by
  induction objects generalizing a with
  | nil => exact Dialogue.carriesOut_ok _ a
  | cons o rest ih =>
    refine Dialogue.carriesOut_andThen (carriesOut_object fun hop => ?_) fun first _ =>
      Dialogue.carriesOut_map (ih fun hop => ?_) _
    · exact ⟨(h hop).1 o List.mem_cons_self, (h hop).2.1⟩
    · exact ⟨fun o ho => (h hop).1 o (List.mem_cons_of_mem _ ho), (h hop).2.2⟩

/-! ## There is one answer for each object -/

end ObjectStore

/-! ## Requests -/

/-- A batch request, by a user, about the repository at a path, with the credentials that came with
it. -/
structure Exchange.Task where
  request : BatchRequest
  user : Option String
  path : Option String
  authorization : Option String
  deriving DecidableEq, Repr

namespace Exchange

variable {x : Exchange σ}

/-- What the service does about a request. -/
def serve (x : Exchange σ) (task : Task) : Service σ BatchAnswer :=
  x.batch task.request task.user task.path task.authorization

/-- What comes of a request, and how far the service has come then. -/
def step (x : Exchange σ) (task : Task) (p : Progress σ) :
    Except Failure BatchAnswer × Progress σ :=
  perform (x.serve task) p

namespace Task

/-- What the gate is asked about. -/
def operation (task : Task) : Operation := .ofBatch task.request.operation

/-- The ref that a request is about. -/
def ref (task : Task) : Option String := Ref.name? task.request.ref

/-- The call that looks up a store. -/
def storeCall (task : Task) : Call := .storeFor task.request task.path task.authorization

end Task

/-- What is asked on the way to the object store. -/
def approach (x : Exchange σ) (task : Task) : Dialogue σ (Option (ObjectStore σ)) :=
  (Gate.dialogue x.policies task.path task.operation task.ref task.user).andThen fun _ =>
    x.stores.dialogue (fun (r, path, authorization) => .storeFor r path authorization)
      (task.request, task.path, task.authorization)

/-- The calls on the way to the object store. -/
def approachPlan (x : Exchange σ) (task : Task) (a : σ) : List Call :=
  Gate.plan x.policies task.path task.operation task.ref task.user a ++
    x.stores.calls task.storeCall

/-- What a client is told when there is no object store. -/
def unavailable : Failure := .refusal (.internal noStoreMessage)

/-- What a request has the service ask. -/
def dialogue (x : Exchange σ) (task : Task) : Dialogue σ BatchAnswer :=
  (x.approach task).withFound unavailable fun store =>
    (store.rowDialogue task.request.operation task.request.objects).map .mk

/-- All calls of a request. -/
def plan (x : Exchange σ) (task : Task) (a : σ) : List Call :=
  x.approachPlan task a ++
    (x.approach task).foundPlan
      (fun store => store.rowPlan task.request.operation task.request.objects) a

/-- The service holds its dialogue. -/
theorem holds_serve (x : Exchange σ) (task : Task) : (x.serve task).Holds (x.dialogue task) := by
  unfold dialogue approach Dialogue.withFound
  rw [Dialogue.andThen_assoc]
  refine (Gate.holds_pass _ _ _ _).bind fun _ => (x.stores.holds_resolve _ _).bind fun found => ?_
  cases found with
  | none => exact .report_bind (.refuse _)
  | some store =>
    exact (store.holds_answerAll _ _).bind fun answers =>
      .elapsed_bind fun duration => .report_bind (.pure _)

/-! ## The dialogue follows its plan -/

theorem carriesOut_approach (x : Exchange σ) (task : Task) (a : σ) :
    ((x.approach task).hold a).CarriesOut (x.approachPlan task a) :=
  Dialogue.carriesOut_andThen (Gate.carriesOut_dialogue _ _ _ _ a) fun _ _ =>
    x.stores.carriesOut_dialogue _ _ _

theorem heeds_dialogue (x : Exchange σ) (task : Task) (a : σ) :
    ((x.dialogue task).hold a).Heeds (x.plan task a) :=
  Dialogue.heeds_withFound (x.carriesOut_approach task a) fun store b =>
    Dialogue.heeds_map (store.heeds_row _ _ b) _

/-- Where a batch verifies, the sizes that its objects are declared with and those that its store gives
can be written. -/
def Writable (x : Exchange σ) (task : Task) (a : σ) : Prop :=
  task.request.operation = .verify →
    (∀ o ∈ task.request.objects, Decimal.Short o.size) ∧
      ∀ store, ((x.approach task).hold a).outcome = .ok (some store) →
        store.TellsShort .verify task.request.objects ((x.approach task).hold a).state

/-- Nothing but a call that fails stands in the way of the plan, once a store has been found. -/
theorem carriesOut_dialogue {task : Task} {a : σ} (hwritable : x.Writable task a)
    (hfound : ((x.approach task).hold a).outcome ≠ .ok none) :
    ((x.dialogue task).hold a).CarriesOut (x.plan task a) := by
  refine Dialogue.carriesOut_andThen (x.carriesOut_approach task a) fun found ho => ?_
  unfold Dialogue.foundPlan
  rw [ho]
  cases found with
  | none => exact absurd ho hfound
  | some store =>
    refine Dialogue.carriesOut_map (ObjectStore.carriesOut_row fun hop => ?_) _
    have hstore := (hwritable hop).2 store ho
    rw [← hop] at hstore
    exact ⟨(hwritable hop).1, hstore⟩

/-- A batch about some objects. -/
def inquiry (op : BatchOperation) (objects : List RequestedObject) : Task :=
  ⟨⟨op, objects, none, none⟩, some "ann", none, none⟩

end Exchange

end GitLfs
