import Mathlib.Data.List.Forall2
import GitLfs.Proofs.Storage.Dialogue

/-!
# What a batch tells of a store that keeps to its answers

A store may change while a batch is answered. As long as it answers each question about the objects of
the batch in one way, `Facts` says in which, and the answers of the batch can be read off a table:
`Facts.Row` is its row for an object, and `Facts.tell` the answer in that row. `leads_answerAll` says
that a row of objects is answered object by object, by induction on the row, and `answers_by_facts`
that a request that passes the gate is.
-/

namespace GitLfs

variable {σ τ α : Type}

/-! ## Questions with an answer -/

/-- In a state a question has an answer, and leaves the collaborator in another state. -/
def Query.Gives (q : Query σ α) (a : σ) (answer : α) (b : σ) : Prop :=
  ∃ events, perform q ⟨a, []⟩ = (.ok answer, ⟨b, events⟩)

theorem Service.Leads.ask {q : Query σ α} {a b : σ} {answer : α} (h : q.Gives a answer b)
    (call : Call) : Service.Leads id a (Service.ask call q) (.ok answer) b := by
  rintro p rfl
  obtain ⟨events, hq⟩ := h
  have hq' : perform q ⟨p.state, []⟩ = (.ok answer, ⟨b, events⟩) := hq
  rw [Service.perform_ask, hq']
  exact ⟨_, rfl, Progress.state_report _ _⟩

/-- What is asked about a part of the state has the answer that it has there. -/
theorem Query.Gives.focus {part : σ → τ} {update : τ → σ → σ} {q : Query τ α} {w : σ} {answer : α}
    {b : τ} (h : q.Gives (part w) answer b) :
    (q.focus part update).Gives w answer (update b w) := by
  obtain ⟨events, hq⟩ := h
  refine ⟨events, ?_⟩
  rw [Query.perform_focus, hq]

theorem Query.exists_gives_focus {part : σ → τ} {update : τ → σ → σ}
    (hpart : ∀ t w, part (update t w) = t) {I : τ → Prop} {q : Query τ α} {w : σ} {answer : α}
    (h : ∃ b, q.Gives (part w) answer b ∧ I b) :
    ∃ v, (q.focus part update).Gives w answer v ∧ I (part v) := by
  obtain ⟨b, hgives, hb⟩ := h
  refine ⟨update b w, hgives.focus, ?_⟩
  rwa [hpart]

/-- What a store answers. -/
structure Facts where
  size : String → Option Int
  download : String → Action
  upload : String → Nat → Action
  verify : String → Option Action

namespace ObjectStore

variable {s : ObjectStore σ} {f : Facts} {op : BatchOperation}

/-- A store that is asked about an object from a state on answers what the facts say, and is in another
state then. -/
inductive Answers (s : ObjectStore σ) (f : Facts) :
    BatchOperation → RequestedObject → σ → σ → Prop where
  /-- Nothing but the size is asked. -/
  | size {op : BatchOperation} {o : RequestedObject} {a b : σ}
      (size : (s.size o.oid).Gives a (f.size o.oid) b)
      (enough : offerCalls op o (absent (f.size o.oid)) = []) : Answers s f op o a b
  /-- The object is there, and is offered for a download. -/
  | download {o : RequestedObject} {a b c : σ}
      (size : (s.size o.oid).Gives a (f.size o.oid) b) (present : absent (f.size o.oid) = false)
      (download : (s.downloadAction o.oid).Gives b (f.download o.oid) c) :
      Answers s f .download o a c
  /-- The object is not there, and is asked for. -/
  | upload {o : RequestedObject} {a b c d : σ}
      (size : (s.size o.oid).Gives a (f.size o.oid) b) (missing : absent (f.size o.oid) = true)
      (upload : (s.uploadAction o.oid o.size).Gives b (f.upload o.oid o.size) c)
      (verify : (s.verifyAction o.oid).Gives c (f.verify o.oid) d) :
      Answers s f .upload o a d

/-- A store that is asked about objects, one after the other, answers what the facts say. -/
inductive AnswersAll (s : ObjectStore σ) (f : Facts) (op : BatchOperation) :
    List RequestedObject → σ → σ → Prop where
  | nil {a : σ} : AnswersAll s f op [] a a
  | cons {o : RequestedObject} {rest : List RequestedObject} {a b c : σ}
      (first : s.Answers f op o a b) (others : AnswersAll s f op rest b c) :
      AnswersAll s f op (o :: rest) a c

end ObjectStore

/-! ## The table -/

/-- The code of what is wrong with an object. -/
def ObjectAnswer.errorCode (a : ObjectAnswer) : Option Int := a.error.map ObjectFailure.code

/-- The actions of an answer with their names, in order. -/
def ObjectAnswer.offered (a : ObjectAnswer) : Option (List (String × Action)) :=
  a.actions.map OrderedMap.entries

namespace Facts

open Number (Decimal.Short Decimal.text)
open ObjectStore (held uploadActions)

/-- To verify an object, the size that it is declared with and the one that it has must be short enough
to be written. -/
def Writable (f : Facts) (op : BatchOperation) (o : RequestedObject) : Prop :=
  op = .verify → Decimal.Short o.size ∧ ∀ n, f.size o.oid = some n → Decimal.Short n

/-- The answer about an object. -/
def tell (f : Facts) (op : BatchOperation) (o : RequestedObject) : ObjectAnswer :=
  match held (f.size o.oid) with
  | none =>
    match op with
    | .upload =>
      ⟨o.oid, o.size, none, some (uploadActions (f.upload o.oid o.size) (f.verify o.oid)), none⟩
    | .download | .verify => .notFound o
  | some size =>
    match op with
    | .upload => ⟨o.oid, o.size, none, none, none⟩
    | .download =>
      ⟨o.oid, size, none, some (OrderedMap.ofList [("download", f.download o.oid)]), none⟩
    | .verify =>
      if size = o.size then ⟨o.oid, size, none, none, none⟩
      else .mismatch o (Decimal.text o.size) (Decimal.text size)

end Facts

/-! ## The store is asked, and the table is told -/

namespace ObjectStore

variable {s : ObjectStore σ} {f : Facts} {op : BatchOperation} {o : RequestedObject} {a b : σ}

theorem leads_storedSize {oid : String} (h : (s.size oid).Gives a (f.size oid) b) :
    Service.Leads id a (s.storedSize oid) (.ok (held (f.size oid))) b := by
  unfold storedSize
  refine (Service.Leads.ask h _).bind ?_
  cases hsize : f.size oid with
  | none => exact .pure none
  | some n =>
    have hheld : held (some n) = if n < 0 then none else some n := by simp [held, absent]
    rw [hheld]
    exact .pure _

theorem leads_answer (h : s.Answers f op o a b) (hwritable : f.Writable op o) :
    Service.Leads id a (s.answer op o) (.ok (f.tell op o)) b := by
  cases h with
  | size hsize henough =>
    have hstored := leads_storedSize hsize
    cases habsent : absent (f.size o.oid) with
    | true =>
      have hheld := held_of_absent habsent
      rw [habsent] at henough
      rw [hheld] at hstored
      unfold Facts.tell
      rw [hheld]
      cases op with
      | upload => cases henough
      | download => exact hstored.bind ((Service.Leads.report _ _ _).bind (.pure _))
      | verify => exact hstored.bind (.pure _)
    | false =>
      obtain ⟨n, -, hsize, hheld⟩ := held_of_not_absent habsent
      rw [habsent] at henough
      rw [hheld] at hstored
      unfold Facts.tell
      rw [hheld]
      cases op with
      | upload => exact hstored.bind (.pure _)
      | download => cases henough
      | verify =>
        obtain ⟨hdeclared, hshort⟩ := hwritable rfl
        refine hstored.bind ?_
        dsimp only
        split
        · exact .pure _
        · rw [ObjectAnswer.sizeMismatch_of_short hdeclared (hshort n hsize)]
          exact .pure _
  | download hsize hpresent hdownload =>
    obtain ⟨n, -, -, hheld⟩ := held_of_not_absent hpresent
    have hstored := leads_storedSize hsize
    rw [hheld] at hstored
    unfold Facts.tell
    rw [hheld]
    exact hstored.bind ((Service.Leads.ask hdownload _).bind (.pure _))
  | upload hsize hmissing hupload hverify =>
    have hheld := held_of_absent hmissing
    have hstored := leads_storedSize hsize
    rw [hheld] at hstored
    unfold Facts.tell
    rw [hheld]
    refine hstored.bind ((Service.Leads.ask hupload _).bind
      ((Service.Leads.ask hverify _).bind ?_))
    unfold uploadActions
    cases f.verify o.oid <;> exact .pure _

/-- By induction on the row: each object has its own answer, wherever it stands. -/
theorem leads_answerAll {objects : List RequestedObject} (h : s.AnswersAll f op objects a b)
    (hwritable : ∀ o ∈ objects, f.Writable op o) :
    Service.Leads id a (s.answerAll op objects) (.ok (objects.map (f.tell op))) b := by
  induction h with
  | nil => exact .pure []
  | cons first _ ih =>
    obtain ⟨hfirst, hothers⟩ := List.forall_mem_cons.1 hwritable
    exact (leads_answer first hfirst).bind ((ih hothers).bind (.pure _))

/-- Wherever the store is asked from a set of states, it answers what the facts say and stays in the
set. -/
structure KeepsTo (s : ObjectStore σ) (f : Facts) (I : σ → Prop) : Prop where
  size : ∀ a, I a → ∀ oid, ∃ b, (s.size oid).Gives a (f.size oid) b ∧ I b
  download : ∀ a, I a → ∀ oid, ∃ b, (s.downloadAction oid).Gives a (f.download oid) b ∧ I b
  upload : ∀ a, I a → ∀ oid n, ∃ b, (s.uploadAction oid n).Gives a (f.upload oid n) b ∧ I b
  verify : ∀ a, I a → ∀ oid, ∃ b, (s.verifyAction oid).Gives a (f.verify oid) b ∧ I b

namespace KeepsTo

variable {I : σ → Prop}

theorem answers (h : s.KeepsTo f I) (op : BatchOperation) (o : RequestedObject) (ha : I a) :
    ∃ b, s.Answers f op o a b ∧ I b := by
  obtain ⟨b, hsize, hb⟩ := h.size a ha o.oid
  cases habsent : absent (f.size o.oid) with
  | true =>
    cases op with
    | upload =>
      obtain ⟨c, hupload, hc⟩ := h.upload b hb o.oid o.size
      obtain ⟨d, hverify, hd⟩ := h.verify c hc o.oid
      exact ⟨d, .upload hsize habsent hupload hverify, hd⟩
    | download | verify => exact ⟨b, .size hsize (by rw [habsent]; rfl), hb⟩
  | false =>
    cases op with
    | download =>
      obtain ⟨c, hdownload, hc⟩ := h.download b hb o.oid
      exact ⟨c, .download hsize habsent hdownload, hc⟩
    | upload | verify => exact ⟨b, .size hsize (by rw [habsent]; rfl), hb⟩

/-- Such a store answers what the facts say about any row of objects. -/
theorem answersAll (h : s.KeepsTo f I) (op : BatchOperation) (objects : List RequestedObject)
    (ha : I a) : ∃ b, s.AnswersAll f op objects a b ∧ I b := by
  induction objects generalizing a with
  | nil => exact ⟨a, .nil, ha⟩
  | cons o rest ih =>
    obtain ⟨b, hfirst, hb⟩ := h.answers op o ha
    obtain ⟨c, hothers, hc⟩ := ih hb
    exact ⟨c, .cons hfirst hothers, hc⟩

/-- A store in a part of the state keeps to its answers, whatever the rest of the state is. -/
theorem focus {part : σ → τ} {update : τ → σ → σ} (hpart : ∀ t w, part (update t w) = t)
    {s : ObjectStore τ} {I : τ → Prop} (h : s.KeepsTo f I) :
    (s.focus part update).KeepsTo f fun w => I (part w) where
  size w hw oid := Query.exists_gives_focus hpart (h.size (part w) hw oid)
  download w hw oid := Query.exists_gives_focus hpart (h.download (part w) hw oid)
  upload w hw oid n := Query.exists_gives_focus hpart (h.upload (part w) hw oid n)
  verify w hw oid := Query.exists_gives_focus hpart (h.verify (part w) hw oid)

end KeepsTo

end ObjectStore

namespace MemoryStore

/-- What a store with a size table answers. -/
def facts (m : MemoryStore) (t : SizeTable) : Facts where
  size oid := some (size t oid)
  download oid := m.downloadAction oid
  upload oid _ := m.uploadAction oid
  verify _ := m.verifyAction

theorem keepsTo (m : MemoryStore) (t : SizeTable) : m.store.KeepsTo (m.facts t) (· = t) where
  size := by
    rintro _ rfl oid
    exact ⟨_, ⟨[], rfl⟩, rfl⟩
  download := by
    rintro _ rfl oid
    exact ⟨_, ⟨[], rfl⟩, rfl⟩
  upload := by
    rintro _ rfl oid n
    exact ⟨_, ⟨[], rfl⟩, rfl⟩
  verify := by
    rintro _ rfl oid
    exact ⟨_, ⟨[], rfl⟩, rfl⟩

end MemoryStore

/-! ## Requests -/

namespace Progress

end Progress

namespace Exchange

variable {x : Exchange σ} {task : Task} {f : Facts} {p q : Progress σ} {store : ObjectStore σ}

namespace Task

/-- The way that a request takes to the object store. -/
def entrance (x : Exchange σ) (task : Task) : Service σ (Option (ObjectStore σ)) := do
  Gate.pass x.policies task.path task.operation task.ref task.user
  x.stores.resolve (fun (r, path, authorization) => .storeFor r path authorization)
    (task.request, task.path, task.authorization)

/-- What is reported when a request has been answered after so many milliseconds. -/
def okMessage (task : Task) (answers : List ObjectAnswer) (duration : Nat) : String :=
  Log.message "batch.ok"
    [("operation", task.request.operation.name), ("repo", Log.shown task.path),
      ("user", Log.shown task.user), ("objects", Log.shownInt answers.length),
      ("failed", Log.shownInt (answers.filter (·.error.isSome)).length),
      ("dur_ms", Log.shownInt duration)]

/-- What is done about a request when its object store has been found. -/
def conclude (task : Task) (store : ObjectStore σ) : Service σ BatchAnswer := do
  let answers ← store.answerAll task.request.operation task.request.objects
  let duration ← Service.elapsed
  Service.report .info "batch" (task.okMessage answers duration)
  return ⟨answers⟩

end Task

theorem step_of_entrance (h : perform (task.entrance x) p = (.ok (some store), q)) :
    x.step task p = perform (task.conclude store) q := by
  obtain ⟨u, q', hpass, hresolve⟩ := perform_bind_eq_ok.1 h
  unfold Task.operation Task.ref at hpass
  unfold step serve batch
  rw [perform_bind, hpass]
  dsimp only
  rw [perform_bind, hresolve]
  rfl

/-- A request passes the gate and finds an object store, and the store answers what the facts say as
long as it is asked about the objects of the request. -/
def AnswersBy (x : Exchange σ) (f : Facts) (task : Task) (p : Progress σ) : Prop :=
  ∃ store q b, perform (task.entrance x) p = (.ok (some store), q) ∧
    store.AnswersAll f task.request.operation task.request.objects q.state b

/-- What comes of such a request, and that it is reported last. -/
theorem step_of_answersBy (h : x.AnswersBy f task p)
    (hwritable : ∀ o ∈ task.request.objects, f.Writable task.request.operation o) :
    let answers := task.request.objects.map (f.tell task.request.operation)
    ∃ (q : Progress σ) (duration : Nat), x.step task p =
      (.ok ⟨answers⟩, q.report [⟨.info, Log.logger "batch", task.okMessage answers duration⟩]) := by
  obtain ⟨store, q, b, hentrance, hstore⟩ := h
  obtain ⟨q', hanswers, -⟩ := ObjectStore.leads_answerAll hstore hwritable q rfl
  refine ⟨{ q' with delays := fun n => q'.delays (n + 1) }, q'.delays 0, ?_⟩
  rw [step_of_entrance hentrance, Task.conclude, perform_bind, hanswers]
  rfl

end Exchange

end GitLfs
