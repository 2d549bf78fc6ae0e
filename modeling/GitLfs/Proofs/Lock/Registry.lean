import GitLfs.Lock.Registry
import GitLfs.Proofs.Git.Presence
import GitLfs.Proofs.History
import GitLfs.Proofs.Lock.Table

/-!
# What one task does to a lock registry

A task is a call on a lock registry, as data. `answer_create_indexed`, `answer_list`, `answer_delete`
and the lemmas beside them say what is answered when what the table holds is known. `CreateEffect` lists
all that can become of a task to lock a path, whatever the table is like.

`Effect` lists all that a task can do to a registry with a consistent table: make a lock, release one,
show a page, or fail and leave the table as it was. `effect_answer` says that this is all, so what a
registry keeps is proved by cases on `Effect`.
-/

namespace GitLfs

theorem Lock.make_eq_ok_iff {id path owner : String} {time : DateTime} {l : Lock} :
    Failure.ofChecked (Lock.make id path time owner) = .ok l ↔
      id ≠ "" ∧ path ≠ "" ∧ l = ⟨id, path, time, some ⟨owner⟩⟩ := by
  unfold Lock.make Decoder.nonEmpty
  by_cases hid : id = "" <;> by_cases hp : path = "" <;>
    simp [hid, hp, Checked.fail, Checked.under, Failure.ofChecked, Seq.seq, Functor.map,
      Checked.seq, Checked.map, eq_comm]

theorem Lock.make_ne_brokenIndex {id path owner : String} {time : DateTime} {e : Failure}
    (h : Failure.ofChecked (Lock.make id path time owner) = .error e) :
    e ≠ .defect .brokenIndex := by
  cases hm : Lock.make id path time owner with
  | passed l => rw [hm] at h; cases h
  | failed first others => rw [hm] at h; cases h; simp

namespace Registry

variable {r : Registry} {s : RegistryState} {path name : String} {ref user : Option String}

/-! ## Tasks -/

/-- A call on a lock registry. -/
inductive Task where
  | create (path : String) (ref user : Option String)
  | list (path id cursor : Option String) (limit : Int) (ref : Option String)
  | listToVerify (ref user cursor : Option String) (limit : Int)
  | delete (id : String) (ref user : Option String) (force : Bool)
  deriving DecidableEq, Repr

/-- What comes of a task that succeeds. -/
inductive Reply where
  | created (lock : Lock)
  | page (page : LockPage)
  | released (lock : Lock)
  deriving DecidableEq, Repr

/-- The question that a task puts to a lock registry. -/
def ask (r : Registry) : Task → Query RegistryState Reply
  | .create path ref user => .created <$> r.keeper.create path ref user
  | .list path id cursor limit ref => .page <$> r.keeper.list path id cursor limit ref
  | .listToVerify ref user cursor limit => .page <$> r.keeper.listToVerify ref user cursor limit
  | .delete id ref user force => .released <$> r.keeper.delete id ref user force

/-- What comes of a task, and what the registry keeps then. -/
def answer (r : Registry) (task : Task) (s : RegistryState) :
    Except Failure Reply × RegistryState :=
  ((perform (r.ask task) ⟨s, []⟩).1, (perform (r.ask task) ⟨s, []⟩).2.state)

/-! ## Questions one by one -/

/-- No git repository stands in the way of a lock on a path. -/
def AllowsPath (r : Registry) (path : String) (ref : Option String) : Prop :=
  ∀ repository ∈ r.repository, repository.presence (ref.map .ofText) path = .ok true

/-- What a client is told about a path that is not present at a ref. -/
def pathAbsent (path : String) (ref : Option String) : Refusal :=
  .validation ("Path " ++ path ++ " does not exist at " ++ Git.Repository.revisionOr ref)

/-- What a registry makes of a path: it lets it pass, refuses it, or fails over it. -/
def verdict (r : Registry) (path : String) (ref : Option String) : Except Failure Unit :=
  match r.repository with
  | none => .ok ()
  | some repository =>
    match repository.presence (ref.map .ofText) path with
    | .ok true => .ok ()
    | .ok false => .error (.refusal (pathAbsent path ref))
    | .error d => .error (.defect d)

theorem perform_requirePath (r : Registry) (path : String) (ref : Option String)
    (scene : Scene RegistryState) :
    ∃ events, perform (r.requirePath path ref) scene = (r.verdict path ref, ⟨scene.state, events⟩) := by
  unfold requirePath verdict
  cases r.repository with
  | none => exact ⟨scene.events, rfl⟩
  | some repository =>
    obtain ⟨events, h⟩ := repository.perform_hasPath (ref.map .ofText) path scene
    refine ⟨events, ?_⟩
    simp only [perform_bind, h]
    rcases repository.presence (ref.map .ofText) path with d | _ | _ <;> rfl

theorem verdict_eq_ok_iff : r.verdict path ref = .ok () ↔ r.AllowsPath path ref := by
  unfold verdict AllowsPath
  cases r.repository with
  | none => simp
  | some repository =>
    simp only [Option.mem_some_iff, forall_eq']
    rcases repository.presence (ref.map .ofText) path with d | _ | _ <;> simp

theorem verdict_ne_brokenIndex (r : Registry) (path : String) (ref : Option String) :
    r.verdict path ref ≠ .error (.defect .brokenIndex) := by
  unfold verdict
  cases r.repository with
  | none => simp
  | some repository =>
    dsimp only
    cases hpresence : repository.presence (ref.map .ofText) path with
    | ok present => cases present <;> simp
    | error d =>
      rcases Git.Repository.presence_error hpresence with rfl | rfl | rfl | ⟨kind, rfl⟩ <;> simp

/-- Someone without a name makes no lock. -/
theorem perform_create_unnamed (path : String) (ref : Option String) (h : user.getD "" = "")
    (scene : Scene RegistryState) :
    perform (r.create path ref user) scene =
      (.error (.refusal (.unauthorized "Authentication required to create a lock")), scene) := by
  unfold create
  rw [h]
  rfl

theorem perform_create_named (path : String) (ref : Option String) (h : name ≠ "")
    (scene : Scene RegistryState) :
    perform (r.create path ref (some name)) scene =
      perform (do
        r.requirePath path ref
        let s ← Query.state
        match s.table.byPath.get? path with
        | none => r.add path name
        | some id =>
          match s.table.locks.get? id with
          | some lock => Query.refuse (.lockConflict "already created lock" lock)
          | none => Query.defect .brokenIndex) scene := by
  unfold create
  rw [Option.getD_some]
  split
  · contradiction
  · rfl

/-- The lock that is made when an identifier and a time are drawn. -/
def drawnLock (r : Registry) (s : RegistryState) (path owner : String) (time : DateTime) : Lock :=
  ⟨r.newId s.drawn, path, time, some ⟨owner⟩⟩

/-- An identifier is drawn for a lock that is about to be made. The lock is made when the clock gives
a time and neither the identifier nor the path is empty. -/
theorem perform_add (r : Registry) (path owner : String) (scene : Scene RegistryState) :
    (∃ time, r.now scene.state.drawn = some time ∧ r.newId scene.state.drawn ≠ "" ∧ path ≠ "" ∧
      perform (r.add path owner) scene =
        (.ok (r.drawnLock scene.state path owner time),
          ⟨⟨scene.state.table.add (r.drawnLock scene.state path owner time),
            scene.state.drawn + 1⟩, scene.events⟩)) ∨
    ∃ e, (r.now scene.state.drawn = none ∨ r.newId scene.state.drawn = "" ∨ path = "") ∧
      e ≠ .defect .brokenIndex ∧
      perform (r.add path owner) scene =
        (.error e, ⟨⟨scene.state.table, scene.state.drawn + 1⟩, scene.events⟩) := by
  unfold add
  simp only [perform_bind, Query.perform_state, Query.perform_setState]
  cases hnow : r.now scene.state.drawn with
  | none => exact Or.inr ⟨.defect .clockOverrun, Or.inl rfl, by simp, rfl⟩
  | some time =>
    simp only [perform_bind, Query.perform_ofExcept]
    cases hmake : Failure.ofChecked (Lock.make (r.newId scene.state.drawn) path time owner) with
    | error e =>
      refine Or.inr ⟨e, ?_, Lock.make_ne_brokenIndex hmake, rfl⟩
      by_cases hid : r.newId scene.state.drawn = ""
      · exact Or.inr (Or.inl hid)
      · by_cases hp : path = ""
        · exact Or.inr (Or.inr hp)
        · rw [Lock.make_eq_ok_iff.2 ⟨hid, hp, rfl⟩] at hmake
          cases hmake
    | ok l =>
      obtain ⟨hid, hp, rfl⟩ := Lock.make_eq_ok_iff.1 hmake
      exact Or.inl ⟨time, rfl, hid, hp, rfl⟩

theorem kind_of_verdict {e : Refusal} (h : r.verdict path ref = .error (.refusal e)) :
    e.kind = .validation := by
  unfold verdict at h
  split at h
  · cases h
  · split at h <;> cases h
    rfl

theorem add_ne_refusal (path owner : String) (scene : Scene RegistryState) (e : Refusal) :
    (perform (r.add path owner) scene).1 ≠ .error (.refusal e) := by
  unfold add
  simp only [perform_bind, Query.perform_state, Query.perform_setState]
  cases r.now scene.state.drawn with
  | none => simp
  | some time =>
    simp only [perform_bind, Query.perform_ofExcept]
    cases hmake : Lock.make (r.newId scene.state.drawn) path time owner with
    | passed lock => simp [Failure.ofChecked]
    | failed first others => simp [Failure.ofChecked]

/-- Whoever has a name is not told to give one. -/
theorem kind_of_create {scene : Scene RegistryState} {e : Refusal} (hname : name ≠ "")
    (h : (perform (r.create path ref (some name)) scene).1 = .error (.refusal e)) :
    e.kind = .validation ∨ e.kind = .lockConflict := by
  obtain ⟨events, hpath⟩ := r.perform_requirePath path ref scene
  rw [perform_create_named path ref hname, perform_bind, hpath] at h
  cases hverdict : r.verdict path ref with
  | error failure =>
    rw [hverdict] at h
    obtain rfl : failure = .refusal e := Except.error.inj h
    exact Or.inl (kind_of_verdict hverdict)
  | ok passed =>
    rw [hverdict] at h
    simp only [perform_bind, Query.perform_state] at h
    split at h
    · exact absurd h (add_ne_refusal path name _ e)
    · split at h
      · cases h
        exact Or.inr rfl
      · cases h

/-- Those who may make no lock for want of a name are those without one and those with an empty one. -/
theorem create_unauthorized_iff {scene : Scene RegistryState} :
    (perform (r.create path ref user) scene).1 =
        .error (.refusal (.unauthorized "Authentication required to create a lock")) ↔
      user = none ∨ user = some "" := by
  constructor
  · intro h
    cases user with
    | none => exact Or.inl rfl
    | some name =>
      right
      by_contra hne
      have hname : name ≠ "" := fun hempty => hne (congrArg some hempty)
      rcases kind_of_create hname h with hkind | hkind <;> cases hkind
  · intro h
    have hempty : user.getD "" = "" := by
      rcases h with rfl | rfl <;> rfl
    rw [perform_create_unnamed path ref hempty]

theorem perform_answerPage (r : Registry) (locks : List Lock) (cursor : Option String)
    (limit : Int) (scene : Scene RegistryState) :
    perform (r.answerPage locks cursor limit) scene =
      ((Paging.page r.pageSize locks cursor limit).mapError .refusal, scene) := by
  unfold answerPage
  cases Paging.page r.pageSize locks cursor limit <;> rfl

/-- Where a path that is locked leads to its lock, the two go together. -/
theorem perform_delete (id : String) (user : Option String) (force : Bool)
    (scene : Scene RegistryState) (h : scene.state.table.Indexed) :
    perform (delete id user force) scene =
      match scene.state.table.locks.get? id with
      | none => (.error (.refusal (.lockDenied ("Lock " ++ id ++ " does not exist"))), scene)
      | some lock =>
        if force = false ∧ lock.ownerName ≠ user then
          (.error (.refusal (.lockUnauthorized "delete" lock.path)), scene)
        else (.ok lock,
          ⟨{ scene.state with table := scene.state.table.remove lock }, scene.events⟩) := by
  unfold delete
  rw [perform_bind, Query.perform_state]
  dsimp only
  cases hl : scene.state.table.locks.get? id with
  | none => rfl
  | some lock =>
    obtain rfl := h.id_eq id lock hl
    by_cases hf : force = false ∧ lock.ownerName ≠ user
    · simp only [hf, Bool.not_false, and_self, if_true, ne_eq, not_false_eq_true]
      rfl
    · have hf' : ¬ (((!force) = true) ∧ lock.ownerName ≠ user) := by simpa using hf
      simp only [if_neg hf, if_neg hf', if_pos (h.path_mem_keys hl)]
      rfl

/-! ## Answers that are foreseen -/

/-- Someone without a name is told to give one. -/
theorem answer_create_unnamed (s : RegistryState) (path : String) (ref : Option String)
    (hnameless : user.getD "" = "") :
    r.answer (.create path ref user) s =
      (.error (.refusal (.unauthorized "Authentication required to create a lock")), s) := by
  simp only [answer, ask, keeper, perform_map, perform_create_unnamed path ref hnameless]

/-- Whoever has a name and asks for a path that does not pass is told why, and nothing changes. -/
theorem answer_create_turnedAway (s : RegistryState) {e : Failure} (hname : name ≠ "")
    (hverdict : r.verdict path ref = .error e) :
    r.answer (.create path ref (some name)) s = (.error e, s) := by
  obtain ⟨events, hp⟩ := r.perform_requirePath path ref ⟨s, []⟩
  simp only [answer, ask, keeper, perform_map, perform_create_named path ref hname, perform_bind, hp,
    hverdict]

/-- Whoever has a name and asks for a path that the index holds is shown the lock to which it leads. -/
theorem answer_create_indexed {id : String} (hname : name ≠ "") (hallowed : r.AllowsPath path ref)
    (hindex : s.table.byPath.get? path = some id) :
    r.answer (.create path ref (some name)) s =
      (match s.table.locks.get? id with
        | some l => .error (.refusal (.lockConflict "already created lock" l))
        | none => .error (.defect .brokenIndex), s) := by
  obtain ⟨events, hp⟩ := r.perform_requirePath path ref ⟨s, []⟩
  rw [verdict_eq_ok_iff.2 hallowed] at hp
  simp only [answer, ask, keeper, perform_map, perform_create_named path ref hname, perform_bind, hp,
    Query.perform_state, hindex]
  cases s.table.locks.get? id <;> rfl

/-- Whoever has a name and asks for a path that the index does not hold gets a lock when there is a time
for it and neither its identifier nor its path is empty. -/
theorem answer_create_unindexed (hname : name ≠ "") (hallowed : r.AllowsPath path ref)
    (hfree : s.table.byPath.get? path = none) :
    (∃ time, r.now s.drawn = some time ∧ r.newId s.drawn ≠ "" ∧ path ≠ "" ∧
      r.answer (.create path ref (some name)) s =
        (.ok (.created (r.drawnLock s path name time)),
          ⟨s.table.add (r.drawnLock s path name time), s.drawn + 1⟩)) ∨
    ∃ e, (r.now s.drawn = none ∨ r.newId s.drawn = "" ∨ path = "") ∧ e ≠ .defect .brokenIndex ∧
      r.answer (.create path ref (some name)) s = (.error e, { s with drawn := s.drawn + 1 }) := by
  obtain ⟨events, hp⟩ := r.perform_requirePath path ref ⟨s, []⟩
  rw [verdict_eq_ok_iff.2 hallowed] at hp
  simp only [answer, ask, keeper, perform_map, perform_create_named path ref hname, perform_bind, hp,
    Query.perform_state, hfree]
  obtain ⟨time, hnow, hid, hpath, ha⟩ | ⟨e, hbad, he, ha⟩ := r.perform_add path name ⟨s, events⟩
  · exact .inl ⟨time, hnow, hid, hpath, by rw [ha]⟩
  · exact .inr ⟨e, hbad, he, by rw [ha]⟩

/-- Nobody locks a path that is locked; whoever tries is shown the lock. -/
theorem answer_create_held (h : s.table.Consistent) {l : Lock} (hname : name ≠ "")
    (hallowed : r.AllowsPath l.path ref) (hl : l ∈ s.table.active) :
    r.answer (.create l.path ref (some name)) s =
      (.error (.refusal (.lockConflict "already created lock" l)), s) := by
  rw [answer_create_indexed hname hallowed (h.indexed.byPath_eq hl), h.mem_active_iff.1 hl]

/-- Whoever has a name locks a path that is free. -/
theorem answer_create_free (h : s.table.Consistent) {time : DateTime} (hname : name ≠ "")
    (hallowed : r.AllowsPath path ref) (hfree : ∀ l ∈ s.table.active, l.path ≠ path)
    (hpath : path ≠ "") (hid : r.newId s.drawn ≠ "") (hnow : r.now s.drawn = some time) :
    r.answer (.create path ref (some name)) s =
      (.ok (.created (r.drawnLock s path name time)),
        ⟨s.table.add (r.drawnLock s path name time), s.drawn + 1⟩) := by
  obtain ⟨time', hnow', -, -, hanswer⟩ | ⟨e, hbad, -⟩ :=
    answer_create_unindexed hname hallowed (h.byPath_eq_none_iff.2 hfree)
  · obtain rfl : time' = time := Option.some.inj (hnow'.symm.trans hnow)
    exact hanswer
  · rw [hnow] at hbad
    rcases hbad with hbad | hbad | hbad
    · cases hbad
    · exact absurd hbad hid
    · exact absurd hbad hpath

/-- To list locks changes nothing, and brings the page of the locks that are asked for. -/
theorem answer_list (r : Registry) (s : RegistryState) (path id cursor : Option String) (limit : Int)
    (ref : Option String) :
    r.answer (.list path id cursor limit ref) s =
      (((Paging.page r.pageSize (s.table.active.filter fun l => path.all (l.path = ·) &&
        id.all (l.id = ·)) cursor limit).mapError .refusal).map .page, s) := by
  simp only [answer, ask, keeper, list, perform_map, perform_bind, Query.perform_state,
    perform_answerPage]
  cases Paging.page r.pageSize _ cursor limit <;> rfl

/-- So it is to ask for the locks that matter before a push, and these are all. -/
theorem answer_listToVerify (r : Registry) (s : RegistryState) (ref user cursor : Option String)
    (limit : Int) :
    r.answer (.listToVerify ref user cursor limit) s =
      (((Paging.page r.pageSize s.table.active cursor limit).mapError .refusal).map .page, s) := by
  simp only [answer, ask, keeper, listToVerify, perform_map, perform_bind, Query.perform_state,
    perform_answerPage]
  cases Paging.page r.pageSize _ cursor limit <;> rfl

/-- A lock that is there is released by its owner, and by anybody with force. -/
theorem answer_delete (h : s.table.Indexed) (id : String) (ref user : Option String)
    (force : Bool) :
    r.answer (.delete id ref user force) s =
      match s.table.locks.get? id with
      | none => (.error (.refusal (.lockDenied ("Lock " ++ id ++ " does not exist"))), s)
      | some lock =>
        if force = false ∧ lock.ownerName ≠ user then
          (.error (.refusal (.lockUnauthorized "delete" lock.path)), s)
        else (.ok (.released lock), { s with table := s.table.remove lock }) := by
  simp only [answer, ask, keeper, perform_map, perform_delete id user force ⟨s, []⟩ h]
  cases s.table.locks.get? id with
  | none => rfl
  | some lock =>
    by_cases hf : force = false ∧ lock.ownerName ≠ user
    · simp only [if_pos hf]
    · simp only [if_neg hf]

/-- Nobody releases a lock that is not there. -/
theorem answer_delete_absent (h : s.table.Indexed) {id : String} (ref user : Option String)
    (force : Bool) (habsent : ∀ l ∈ s.table.active, l.id ≠ id) :
    r.answer (.delete id ref user force) s =
      (.error (.refusal (.lockDenied ("Lock " ++ id ++ " does not exist"))), s) := by
  rw [answer_delete h, h.get?_eq_none_iff.2 habsent]

/-! ## All that a task to lock a path can do -/

/-- What becomes of a task to lock a path for a user, whatever the table is like. -/
inductive CreateEffect (r : Registry) (s : RegistryState) (path : String) (ref : Option String) :
    Option String → Except Failure Reply → RegistryState → Prop where
  | unnamed {user : Option String} (nameless : user.getD "" = "") :
      CreateEffect r s path ref user
        (.error (.refusal (.unauthorized "Authentication required to create a lock"))) s
  | turnedAway {owner : String} {e : Failure} (named : owner ≠ "")
      (verdict : r.verdict path ref = .error e) :
      CreateEffect r s path ref (some owner) (.error e) s
  | held {owner id : String} {lock : Lock} (named : owner ≠ "") (allowed : r.AllowsPath path ref)
      (index : s.table.byPath.get? path = some id) (held : s.table.locks.get? id = some lock) :
      CreateEffect r s path ref (some owner)
        (.error (.refusal (.lockConflict "already created lock" lock))) s
  | broken {owner id : String} (named : owner ≠ "") (allowed : r.AllowsPath path ref)
      (index : s.table.byPath.get? path = some id) (gone : s.table.locks.get? id = none) :
      CreateEffect r s path ref (some owner) (.error (.defect .brokenIndex)) s
  | undrawn {owner : String} {e : Failure} (named : owner ≠ "") (allowed : r.AllowsPath path ref)
      (free : s.table.byPath.get? path = none)
      (bad : r.now s.drawn = none ∨ r.newId s.drawn = "" ∨ path = "")
      (ne : e ≠ .defect .brokenIndex) :
      CreateEffect r s path ref (some owner) (.error e) { s with drawn := s.drawn + 1 }
  | created {owner : String} {time : DateTime} (named : owner ≠ "")
      (allowed : r.AllowsPath path ref) (free : s.table.byPath.get? path = none)
      (path_ne : path ≠ "") (id_ne : r.newId s.drawn ≠ "") (clock : r.now s.drawn = some time) :
      CreateEffect r s path ref (some owner) (.ok (.created (r.drawnLock s path owner time)))
        ⟨s.table.add (r.drawnLock s path owner time), s.drawn + 1⟩

theorem createEffect_answer (r : Registry) (s : RegistryState) (path : String)
    (ref user : Option String) :
    r.CreateEffect s path ref user (r.answer (.create path ref user) s).1
      (r.answer (.create path ref user) s).2 := by
  by_cases hu : user.getD "" = ""
  · rw [answer_create_unnamed s path ref hu]
    exact .unnamed hu
  · obtain ⟨owner, rfl⟩ : ∃ owner, user = some owner := by
      cases user with
      | none => exact absurd rfl hu
      | some owner => exact ⟨owner, rfl⟩
    have named : owner ≠ "" := hu
    cases hverdict : r.verdict path ref with
    | error e =>
      rw [answer_create_turnedAway s named hverdict]
      exact .turnedAway named hverdict
    | ok passed =>
      have hallowed := verdict_eq_ok_iff.1 hverdict
      cases hi : s.table.byPath.get? path with
      | some id =>
        rw [answer_create_indexed named hallowed hi]
        cases hl : s.table.locks.get? id with
        | some l => exact .held named hallowed hi hl
        | none => exact .broken named hallowed hi hl
      | none =>
        obtain ⟨time, hnow, hid, hpath, ha⟩ | ⟨e, hbad, he, ha⟩ :=
          answer_create_unindexed named hallowed hi
        · rw [ha]
          exact .created named hallowed hi hpath hid hnow
        · rw [ha]
          exact .undrawn named hallowed hi hbad he

/-! ## All that a task can do -/

/-- What a task can do to a registry: the answer and the state behind it. -/
inductive Effect (r : Registry) (s : RegistryState) :
    Task → Except Failure Reply → RegistryState → Prop where
  | created {path : String} {ref : Option String} {owner : String} {time : DateTime}
      (named : owner ≠ "") (allowed : r.AllowsPath path ref)
      (free : s.table.byPath.get? path = none) (path_ne : path ≠ "")
      (id_ne : r.newId s.drawn ≠ "") (clock : r.now s.drawn = some time) :
      Effect r s (.create path ref (some owner)) (.ok (.created (r.drawnLock s path owner time)))
        ⟨s.table.add (r.drawnLock s path owner time), s.drawn + 1⟩
  | released {ref user : Option String} {force : Bool} {lock : Lock}
      (held : s.table.locks.get? lock.id = some lock)
      (entitled : force = true ∨ lock.ownerName = user) :
      Effect r s (.delete lock.id ref user force) (.ok (.released lock))
        { s with table := s.table.remove lock }
  | listed {path id cursor : Option String} {limit : Int} {ref : Option String} {page : LockPage} :
      Effect r s (.list path id cursor limit ref) (.ok (.page page)) s
  | listedToVerify {ref user cursor : Option String} {limit : Int} {page : LockPage} :
      Effect r s (.listToVerify ref user cursor limit) (.ok (.page page)) s
  | failed {task : Task} {e : Failure} {drawn : Nat} (ne : e ≠ .defect .brokenIndex)
      (le : s.drawn ≤ drawn) :
      Effect r s task (.error e) { s with drawn := drawn }

theorem effect_create (r : Registry) (s : RegistryState) (h : s.table.Consistent) (path : String)
    (ref user : Option String) :
    r.Effect s (.create path ref user) (r.answer (.create path ref user) s).1
      (r.answer (.create path ref user) s).2 := by
  have heffect := r.createEffect_answer s path ref user
  generalize (r.answer (.create path ref user) s).1 = outcome at heffect ⊢
  generalize (r.answer (.create path ref user) s).2 = after at heffect ⊢
  cases heffect with
  | unnamed => exact .failed (by simp) (Nat.le_refl _)
  | turnedAway named verdict =>
    refine .failed (fun hbroken => ?_) (Nat.le_refl _)
    exact r.verdict_ne_brokenIndex path ref (hbroken ▸ verdict)
  | held => exact .failed (by simp) (Nat.le_refl _)
  | broken named allowed index gone =>
    obtain ⟨l, hl, -⟩ := (h.2 path _).1 index
    rw [gone] at hl
    cases hl
  | undrawn named allowed free bad ne => exact .failed ne (Nat.le_succ _)
  | created named allowed free path_ne id_ne clock =>
    exact .created named allowed free path_ne id_ne clock

theorem effect_delete (r : Registry) (s : RegistryState) (h : s.table.Consistent) (id : String)
    (ref user : Option String) (force : Bool) :
    r.Effect s (.delete id ref user force) (r.answer (.delete id ref user force) s).1
      (r.answer (.delete id ref user force) s).2 := by
  rw [answer_delete h.indexed]
  cases hl : s.table.locks.get? id with
  | none => exact .failed (by simp [Refusal.lockDenied]) (Nat.le_refl _)
  | some lock =>
    obtain rfl := h.1 id lock hl
    by_cases hf : force = false ∧ lock.ownerName ≠ user
    · simp only [if_pos hf]
      exact .failed (by simp) (Nat.le_refl _)
    · simp only [if_neg hf]
      exact .released hl (by simpa [Classical.or_iff_not_imp_left] using hf)

/-- A task on a registry with a consistent table does nothing that `Effect` does not list. -/
theorem effect_answer (r : Registry) (s : RegistryState) (h : s.table.Consistent) (task : Task) :
    r.Effect s task (r.answer task s).1 (r.answer task s).2 := by
  cases task with
  | create path ref user => exact effect_create r s h path ref user
  | delete id ref user force => exact effect_delete r s h id ref user force
  | list path id cursor limit ref =>
    rw [answer_list]
    cases Paging.page r.pageSize _ cursor limit with
    | ok page => exact .listed
    | error e => exact .failed (by simp) (Nat.le_refl _)
  | listToVerify ref user cursor limit =>
    rw [answer_listToVerify]
    cases Paging.page r.pageSize _ cursor limit with
    | ok page => exact .listedToVerify
    | error e => exact .failed (by simp) (Nat.le_refl _)

end Registry

end GitLfs
