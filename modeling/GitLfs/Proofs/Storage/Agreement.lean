import GitLfs.Proofs.Deployment
import GitLfs.Proofs.History
import GitLfs.Proofs.Storage.Facts

/-!
# What the operations of a batch agree on

Around a store that keeps a size table, sizes are put and removed, and batches are answered.
`lastChange?` reads off such a row of acts what became of an object last. `get?_final` says that the
table tells just that, and `step_of_admits` that the answers of a batch go by the table alone.
`operations_agree` puts that together: an upload, a download and a verification of one object never
contradict each other.
-/

namespace GitLfs

open Number (Decimal.Short Decimal.text)

variable {σ : Type}

/-! ## What answers say -/

namespace ObjectAnswer

/-- An answer has an action with a name. -/
def Offers (a : ObjectAnswer) (name : String) : Prop :=
  ∃ actions action, a.actions = some actions ∧ actions.get? name = some action

theorem not_offers_of_none {a : ObjectAnswer} (h : a.actions = none) (name : String) :
    ¬ a.Offers name := by
  rintro ⟨actions, action, hactions, -⟩
  rw [h] at hactions
  cases hactions

end ObjectAnswer

theorem ObjectStore.get?_uploadActions (upload : Action) (verify : Option Action) :
    (uploadActions upload verify).get? "upload" = some upload := by
  have hone : (OrderedMap.ofList [("upload", upload)]).get? "upload" = some upload := by
    rw [OrderedMap.ofList, List.foldl_cons, List.foldl_nil, OrderedMap.get?_insert, if_pos rfl]
  unfold uploadActions
  cases verify with
  | none => exact hone
  | some action =>
    exact (OrderedMap.get?_insert _ _ _ action).trans ((if_neg (by decide)).trans hone)

/-! ## A size table tells the answers -/

namespace MemoryStore

variable {m : MemoryStore} {part : σ → SizeTable} {update : SizeTable → σ → σ}

/-- The size under which a table holds an object. -/
def held (t : SizeTable) (oid : String) : Option Int := ObjectStore.held (some (size t oid))

theorem held_eq_none_iff {t : SizeTable} {oid : String} :
    held t oid = none ↔ ∀ n, t.get? oid = some n → n < 0 := by
  unfold held ObjectStore.held ObjectStore.absent size
  cases t.get? oid with
  | none => simp
  | some n => simp

theorem held_eq_some_iff {t : SizeTable} {oid : String} {n : Int} :
    held t oid = some n ↔ t.get? oid = some n ∧ 0 ≤ n := by
  unfold held ObjectStore.held ObjectStore.absent size
  cases t.get? oid with
  | none => simp
  | some k =>
    simp only [Option.getD_some, decide_eq_true_eq, Option.ite_none_left_eq_some,
      Option.some.injEq]
    constructor
    · rintro ⟨hk, rfl⟩
      exact ⟨rfl, Int.not_lt.1 hk⟩
    · rintro ⟨rfl, hk⟩
      exact ⟨Int.not_lt.2 hk, rfl⟩

/-- The answer about an object, by the size that is held. -/
def tell (m : MemoryStore) (op : BatchOperation) (o : RequestedObject) :
    (held : Option Int) → ObjectAnswer
  | none =>
    match op with
    | .upload =>
      ⟨o.oid, o.size, none,
        some (ObjectStore.uploadActions (m.uploadAction o.oid) m.verifyAction), none⟩
    | .download | .verify => .notFound o
  | some size =>
    match op with
    | .upload => ⟨o.oid, o.size, none, none, none⟩
    | .download =>
      ⟨o.oid, size, none, some (OrderedMap.ofList [("download", m.downloadAction o.oid)]), none⟩
    | .verify =>
      if size = o.size then ⟨o.oid, size, none, none, none⟩
      else .mismatch o (Decimal.text o.size) (Decimal.text size)

theorem offers_tell_upload {o : RequestedObject} {size : Option Int} :
    (m.tell .upload o size).Offers "upload" ↔ size = none := by
  cases size with
  | none => exact iff_of_true ⟨_, _, rfl, ObjectStore.get?_uploadActions _ _⟩ rfl
  | some n => exact iff_of_false (ObjectAnswer.not_offers_of_none rfl _) (by simp)

theorem errorCode_tell_download {o : RequestedObject} {size : Option Int} :
    (m.tell .download o size).errorCode = some 404 ↔ size = none := by
  cases size with
  | none => exact iff_of_true rfl rfl
  | some n => exact iff_of_false (by simp [tell, ObjectAnswer.errorCode]) (by simp)

theorem error_tell_verify {o : RequestedObject} {n : Int} :
    (m.tell .verify o (some n)).error = none ↔ (o.size : Int) = n := by
  dsimp only [tell]
  split
  · next h => exact iff_of_true rfl h.symm
  · next h => exact iff_of_false (by simp [ObjectAnswer.mismatch]) fun he => h he.symm

theorem errorCode_tell_verify {o : RequestedObject} {size : Option Int} :
    (m.tell .verify o size).errorCode = some 404 ↔ size = none := by
  cases size with
  | none => exact iff_of_true rfl rfl
  | some n =>
    refine iff_of_false ?_ (by simp)
    dsimp only [tell]
    split <;> simp [ObjectAnswer.errorCode, ObjectAnswer.mismatch]

/-- The store tells what its facts say. -/
theorem tell_facts (m : MemoryStore) (t : SizeTable) (op : BatchOperation) (o : RequestedObject) :
    (m.facts t).tell op o = m.tell op o (held t o.oid) := by
  have hsize : ObjectStore.held ((m.facts t).size o.oid) = held t o.oid := rfl
  unfold Facts.tell tell
  rw [hsize]
  cases held t o.oid <;> cases op <;> rfl

/-- No size in a table is too long to be written. -/
def Short (t : SizeTable) : Prop := ∀ oid n, t.get? oid = some n → Decimal.Short n

theorem Short.size {t : SizeTable} (h : Short t) (oid : String) : Decimal.Short (size t oid) := by
  unfold MemoryStore.size
  cases hn : t.get? oid with
  | none => decide
  | some n => exact h oid n hn

theorem keeps_focus (hpart : ∀ t w, part (update t w) = t) (m : MemoryStore) :
    (m.store.focus part update).Keeps part where
  size _ := Query.Keeps.focus hpart fun _ => rfl
  downloadAction _ := Query.Keeps.focus hpart fun _ => rfl
  uploadAction _ _ := Query.Keeps.focus hpart fun _ => rfl
  verifyAction _ := Query.Keeps.focus hpart fun _ => rfl

end MemoryStore

/-! ## Requests -/

namespace Exchange

variable {x : Exchange σ} {m : MemoryStore} {part : σ → SizeTable} {update : SizeTable → σ → σ}

/-- The service finds only one object store: a size table, which is a part of the state that the
access policies take no notice of. -/
structure Over (x : Exchange σ) (m : MemoryStore) (part : σ → SizeTable)
    (update : SizeTable → σ → σ) : Prop where
  part_update : ∀ t w, part (update t w) = t
  policies : x.policies.Yields part (AccessPolicy.Keeps part) .policyFor
  stores : x.stores.Yields part (· = m.store.focus part update)
    fun (r, path, authorization) => .storeFor r path authorization

theorem Over.keeps (h : x.Over m part update) : x.Keeps part where
  policies := h.policies
  stores key := by
    refine ⟨(h.stores key).1, fun p store q hp => ?_⟩
    rw [(h.stores key).2 p store q hp]
    exact MemoryStore.keeps_focus h.part_update m

/-- The batch service that settings ask for is one over the sizes that all repositories share. -/
theorem over_deployment {d : Deployment} (h : d.store = some m) :
    d.exchange.Over m (World.sizes · none) (World.setSizes none) where
  part_update t w := w.sizes_setSizes none t
  policies := d.keeps_policy
  stores := by
    refine Source.Yields.fixed fun store hstore => ?_
    rw [h, Option.map_some] at hstore
    exact (Option.some.inj hstore).symm

/-- A request passes the gate and finds an object store. -/
def Admits (x : Exchange σ) (task : Task) (p : Progress σ) : Prop :=
  ∃ store, (perform (task.entrance x) p).1 = .ok (some store)

/-- Without a policy everybody is let in where there always is the same store. -/
theorem admits_of_fixed {store : ObjectStore σ} (task : Task) (p : Progress σ) :
    (Exchange.mk (.fixed none) (.fixed (some store))).Admits task p := ⟨store, rfl⟩

/-- To go in leaves the size table alone, and leads to it. -/
theorem perform_entrance (h : x.Over m part update) (task : Task) (p : Progress σ) :
    part (perform (task.entrance x) p).2.state = part p.state ∧
      ∀ store, (perform (task.entrance x) p).1 = .ok (some store) →
        store = m.store.focus part update := by
  have hpass := Gate.keeps_pass h.policies task.path task.operation task.ref task.user
  obtain ⟨hfind, hfound⟩ := h.stores (task.request, task.path, task.authorization)
  refine ⟨hpass.bind (fun _ => hfind) p, fun store hstore => ?_⟩
  obtain ⟨-, q, -, hq⟩ := perform_bind_eq_ok.1 (Prod.ext hstore rfl)
  exact hfound q store _ hq

/-- The sizes that a request declares can be written. -/
def Task.Short (task : Task) : Prop := ∀ o ∈ task.request.objects, Decimal.Short o.size

/-- A request that is let in is answered, and its answers go by the size table alone. -/
theorem step_of_admits (h : x.Over m part update) {task : Task} {p : Progress σ}
    (ha : x.Admits task p) (htask : task.Short) (ht : MemoryStore.Short (part p.state)) :
    (x.step task p).1 = .ok ⟨task.request.objects.map fun o =>
      m.tell task.request.operation o (MemoryStore.held (part p.state) o.oid)⟩ := by
  obtain ⟨store, hstore⟩ := ha
  obtain ⟨hpart, hfound⟩ := perform_entrance h task p
  obtain rfl := hfound store hstore
  have hentrance : perform (task.entrance x) p =
      (.ok (some (m.store.focus part update)), (perform (task.entrance x) p).2) :=
    Prod.ext hstore rfl
  have hkeeps := (m.keepsTo (part p.state)).focus h.part_update
  obtain ⟨b, hanswers, -⟩ :=
    hkeeps.answersAll task.request.operation task.request.objects hpart
  have hwritable : ∀ o ∈ task.request.objects,
      (m.facts (part p.state)).Writable task.request.operation o := fun o ho _ =>
    ⟨htask o ho, fun n hn => Option.some.inj hn ▸ ht.size o.oid⟩
  obtain ⟨q, duration, hstep⟩ := step_of_answersBy ⟨_, _, b, hentrance, hanswers⟩ hwritable
  have htell : (m.facts (part p.state)).tell task.request.operation = fun o =>
      m.tell task.request.operation o (MemoryStore.held (part p.state) o.oid) := by
    funext o
    exact m.tell_facts _ _ o
  rw [hstep, htell]

/-! ## What is done around a store -/

/-- Something that is done around a store. -/
inductive Act where
  | put (oid : String) (size : Int)
  | remove (oid : String)
  | batch (task : Task)
  deriving DecidableEq, Repr

namespace Act

/-- What an act makes of the size of an object, if anything: a size, or none. -/
def change? (oid : String) : Act → Option (Option Int)
  | put other size => if oid = other then some (some size) else none
  | remove other => if oid = other then some none else none
  | batch _ => none

/-- No size that is put is too long to be written. -/
def Short : Act → Prop
  | put _ size => Decimal.Short size
  | remove _ | batch _ => True

theorem Short.of_change? {oid : String} {n : Int} {act : Act} (h : act.Short)
    (hn : act.change? oid = some (some n)) : Decimal.Short n := by
  cases act with
  | put other size =>
    obtain ⟨-, ⟨⟩⟩ : oid = other ∧ some (some size) = some (some n) := by
      simpa [change?] using hn
    exact h
  | remove other => simp [change?] at hn
  | batch task => cases hn

end Act

/-- What was last made of the size of an object. -/
def lastChange? (oid : String) (acts : List Act) : Option (Option Int) :=
  (acts.filterMap (Act.change? oid)).getLast?

/-- The last put or remove of an object is a remove, a put of a negative size, or does not exist. -/
def Missing (oid : String) (acts : List Act) : Prop :=
  lastChange? oid acts = none ∨ lastChange? oid acts = some none ∨
    ∃ n < 0, lastChange? oid acts = some (some n)

theorem lastChange?_cons (oid : String) (act : Act) (acts : List Act) :
    lastChange? oid (act :: acts) = (lastChange? oid acts).or (act.change? oid) := by
  unfold lastChange?
  cases h : act.change? oid with
  | none => rw [List.filterMap_cons_none h, Option.or_none]
  | some size =>
    rw [List.filterMap_cons_some h, List.getLast?_cons]
    cases (acts.filterMap (Act.change? oid)).getLast? <;> rfl

theorem short_of_lastChange? {oid : String} {n : Int} {acts : List Act} (h : ∀ a ∈ acts, a.Short)
    (hn : lastChange? oid acts = some (some n)) : Decimal.Short n := by
  obtain ⟨a, ha, hchange⟩ := List.mem_filterMap.1 (List.mem_of_getLast? hn)
  exact (h a ha).of_change? hchange

/-- What is done later and does not concern an object does not count. -/
theorem lastChange?_append {oid : String} {later : List Act}
    (h : ∀ act ∈ later, act.change? oid = none) (acts : List Act) :
    lastChange? oid (acts ++ later) = lastChange? oid acts := by
  have hlater : later.filterMap (Act.change? oid) = [] := List.filterMap_eq_nil_iff.2 h
  rw [lastChange?, List.filterMap_append, hlater, List.append_nil]
  rfl

/-- What comes of an act, which is an answer only for a batch, and how far the service has come
then. -/
def act (x : Exchange σ) (part : σ → SizeTable) (update : SizeTable → σ → σ) :
    Act → Progress σ → Option (Except Failure BatchAnswer) × Progress σ
  | .put oid size, p =>
    (none, { p with state := update (MemoryStore.put (part p.state) oid size) p.state })
  | .remove oid, p =>
    (none, { p with state := update (MemoryStore.remove (part p.state) oid) p.state })
  | .batch task, p => (some (x.step task p).1, (x.step task p).2)

/-- One act changes the table as it says, and a batch does not change it. -/
theorem get?_act (h : x.Over m part update) (a : Act) (p : Progress σ) (oid : String) :
    (part (x.act part update a p).2.state).get? oid =
      (a.change? oid).getD ((part p.state).get? oid) := by
  cases a with
  | put other size =>
    have hput : part (x.act part update (.put other size) p).2.state =
        (part p.state).insert other size := h.part_update _ _
    rw [hput, OrderedMap.get?_insert]
    dsimp only [Act.change?]
    split <;> rfl
  | remove other =>
    have hremove : part (x.act part update (.remove other) p).2.state =
        (part p.state).erase other := h.part_update _ _
    rw [hremove, OrderedMap.get?_erase]
    dsimp only [Act.change?]
    split <;> rfl
  | batch task =>
    have hbatch : part (x.act part update (.batch task) p).2.state = part p.state :=
      keeps_batch h.keeps task.request task.user task.path task.authorization p
    rw [hbatch]
    rfl

/-- After a row of acts the table has what was last made of each object. -/
theorem get?_final (h : x.Over m part update) (acts : List Act) (p : Progress σ) (oid : String) :
    (part (final (x.act part update) p acts).state).get? oid =
      (lastChange? oid acts).getD ((part p.state).get? oid) := by
  induction acts generalizing p with
  | nil => rfl
  | cons a acts ih =>
    rw [final, ih, get?_act h, lastChange?_cons]
    cases lastChange? oid acts <;> rfl

/-- A table into which only short sizes are put has only short sizes. -/
theorem short_final (h : x.Over m part update) {p : Progress σ} (hp : part p.state = ∅)
    {acts : List Act} (hacts : ∀ a ∈ acts, a.Short) :
    MemoryStore.Short (part (final (x.act part update) p acts).state) := by
  intro oid n hn
  rw [get?_final h acts p oid, hp] at hn
  rcases hlast : lastChange? oid acts with - | size <;> rw [hlast] at hn
  · cases hn
  · obtain rfl : size = some n := hn
    exact short_of_lastChange? hacts hlast

/-- What the table holds an object under is what was last put for it, unless that is missing. -/
theorem held_final (h : x.Over m part update) {p : Progress σ} (hp : part p.state = ∅)
    (acts : List Act) (oid : String) :
    let held := MemoryStore.held (part (final (x.act part update) p acts).state) oid
    (held = none ↔ Missing oid acts) ∧
      ∀ n, held = some n → lastChange? oid acts = some (some n) := by
  intro held
  have hget : (part (final (x.act part update) p acts).state).get? oid =
      (lastChange? oid acts).getD none := by
    rw [get?_final h acts p oid, hp]
    rfl
  constructor
  · have hnone : held = none ↔ _ := MemoryStore.held_eq_none_iff
    rw [hnone, hget]
    unfold Missing
    rcases lastChange? oid acts with - | - | n <;> simp
  · intro n hn
    obtain ⟨hn, -⟩ := MemoryStore.held_eq_some_iff.1 hn
    rw [hget] at hn
    rcases hlast : lastChange? oid acts with - | size <;> rw [hlast] at hn
    · cases hn
    · rw [← hn]
      rfl

/-- Later acts that do not concern an object do not change what the table holds it under. -/
theorem held_final_append (h : x.Over m part update) {oid : String} {later : List Act}
    (hlater : ∀ a ∈ later, a.change? oid = none) (p : Progress σ) (acts : List Act) :
    MemoryStore.held (part (final (x.act part update) p (acts ++ later)).state) oid =
      MemoryStore.held (part (final (x.act part update) p acts).state) oid := by
  have hget := get?_final h (acts ++ later) p oid
  rw [lastChange?_append hlater, ← get?_final h acts p oid] at hget
  unfold MemoryStore.held MemoryStore.size
  rw [hget]

/-- Whatever has been put, removed and asked, an object of a size that a client declares has one
answer for each operation. Every batch of that operation that is let in gives it, whatever else the
batch is about, until the object is put or removed again. The answers agree on what is stored: an
upload is offered, and a download and a verification say that there is nothing, exactly when the
object was last removed, last put with a negative size, or never put. Otherwise a download tells the
size that was put last, and a verification finds nothing wrong exactly when that size was declared. All
sizes that are put, and all that such a batch declares, are short enough to be written. -/
theorem operations_agree (h : x.Over m part update) {p : Progress σ} (hp : part p.state = ∅)
    {acts : List Act} (hacts : ∀ a ∈ acts, a.Short) (oid : String) (size : Nat) :
    ∃ answer : BatchOperation → ObjectAnswer,
      (∀ later : List Act, (∀ a ∈ later, a.Short ∧ a.change? oid = none) → ∀ task : Task,
        let q := final (x.act part update) p (acts ++ later)
        task.Short → x.Admits task q → ∃ reply, (x.step task q).1 = .ok reply ∧
          ∀ i : Nat, task.request.objects[i]? = some ⟨oid, size⟩ →
            reply.objects[i]? = some (answer task.request.operation)) ∧
      ((answer .upload).Offers "upload" ↔ Missing oid acts) ∧
      ((answer .download).errorCode = some 404 ↔ Missing oid acts) ∧
      ((answer .verify).errorCode = some 404 ↔ Missing oid acts) ∧
      (¬ Missing oid acts → ∃ n, lastChange? oid acts = some (some n) ∧
        (answer .download).size = n ∧ (answer .download).error = none ∧
        ((answer .verify).error = none ↔ (size : Int) = n)) := by
  obtain ⟨hmissing, hlast⟩ := held_final h hp acts oid
  generalize hheld : MemoryStore.held (part (final (x.act part update) p acts).state) oid = held
    at hmissing hlast
  refine ⟨fun op => m.tell op ⟨oid, size⟩ held, fun later hlater task => ?_,
    MemoryStore.offers_tell_upload.trans hmissing,
    MemoryStore.errorCode_tell_download.trans hmissing,
    MemoryStore.errorCode_tell_verify.trans hmissing, fun hstored => ?_⟩
  · intro q htask ha
    have hall : ∀ a ∈ acts ++ later, a.Short :=
      List.forall_mem_append.2 ⟨hacts, fun a ha => (hlater a ha).1⟩
    refine ⟨_, step_of_admits h ha htask (short_final h hp hall), fun i hi => ?_⟩
    have hq : MemoryStore.held (part q.state) oid = held :=
      (held_final_append h (fun a ha => (hlater a ha).2) p acts).trans hheld
    rw [List.getElem?_map, hi, Option.map_some, hq]
  · cases hcase : held with
    | none => exact absurd (hmissing.1 hcase) hstored
    | some n => exact ⟨n, hlast n hcase, rfl, rfl, MemoryStore.error_tell_verify⟩

/-- An object that is put, removed and put again, and another one with a size below zero. -/
def comings : List Act :=
  [.put "a" 3, .put "b" (-1), .batch (inquiry .upload [⟨"a", 3⟩]), .remove "a", .put "a" 0]

theorem operations_agree_comings :
    Http.Gateway.staff.exchange.Over ⟨"http://store", 60, true⟩ (World.sizes · none)
        (World.setSizes none) ∧
      World.empty.sizes none = ∅ ∧ (∀ a ∈ comings, a.Short) ∧ ¬ Missing "a" comings ∧
      ∃ answer : BatchOperation → ObjectAnswer,
        (answer .download).size = 0 ∧ (answer .verify).error = none ∧
        ∃ reply, (Http.Gateway.staff.exchange.step (inquiry .verify [⟨"b", 1⟩, ⟨"a", 0⟩])
          (final (Http.Gateway.staff.exchange.act (World.sizes · none) (World.setSizes none))
            (.start .empty .debug) comings)).1 = .ok reply ∧
          reply.objects[1]? = some (answer .verify) := by
  have hlast : lastChange? "a" comings = some (some 0) := by decide
  have hstored : ¬ Missing "a" comings := by simp [Missing, hlast]
  have hover := over_deployment (d := Http.Gateway.staff) rfl
  have hshort : ∀ a ∈ comings, a.Short := by
    rintro _ (_ | ⟨_, _ | ⟨_, _ | ⟨_, _ | ⟨_, _ | ⟨_, ⟨⟩⟩⟩⟩⟩⟩) <;> unfold Act.Short <;> decide +kernel
  have htask : (inquiry .verify [⟨"b", 1⟩, ⟨"a", 0⟩]).Short := by
    unfold Task.Short
    decide +kernel
  obtain ⟨answer, hasked, -, -, -, hsizes⟩ := operations_agree hover
    (p := .start .empty .debug) rfl hshort "a" 0
  obtain ⟨n, hn, hdownload, -, hverify⟩ := hsizes hstored
  obtain rfl : 0 = n := Option.some.inj (Option.some.inj (hlast.symm.trans hn))
  obtain ⟨reply, hreply, hobject⟩ := hasked [] (by simp) _ htask (admits_of_fixed _ _)
  rw [List.append_nil] at hreply
  exact ⟨hover, rfl, hshort, hstored, answer, hdownload, hverify.2 rfl, reply, hreply,
    hobject 1 rfl⟩

end Exchange

end GitLfs
