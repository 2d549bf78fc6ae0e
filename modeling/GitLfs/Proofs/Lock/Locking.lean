import GitLfs.Lock.Locking
import GitLfs.Proofs.Access.Gate
import GitLfs.Proofs.Lock.Dealing

/-!
# The locking service over a lock registry

The locking service lets a request in when the gate lets it pass and there is a lock keeper for it.
`step_of_admits` says that a request that is let in does what one task does on the registry behind
the keeper; force counts there for an administrator only. `step_of_not_admits` says that any other
request fails, and leaves the registry alone.
-/

namespace GitLfs.Locking

variable {σ : Type} {s : Locking σ} {r : Registry} {part : σ → RegistryState}
  {update : RegistryState → σ → σ}

/-- The service finds only one lock keeper: a registry, which is a part of the state that the access
policies take no notice of. -/
structure Over (s : Locking σ) (r : Registry) (part : σ → RegistryState)
    (update : RegistryState → σ → σ) : Prop where
  part_update : ∀ x w, part (update x w) = x
  policies : s.policies.Yields part (AccessPolicy.Keeps part) .policyFor
  keepers : s.keepers.Yields part (· = r.keeper.focus part update) .keeperFor

/-! ## Requests -/

/-- A request to the locking service, by a user, about the repository at a path. -/
inductive Task where
  | create (request : CreateRequest) (user path : Option String)
  | list (query : LockQuery) (user path : Option String)
  | verify (request : VerifyRequest) (user path : Option String)
  | release (id : String) (request : ReleaseRequest) (user path : Option String)
  deriving DecidableEq, Repr

/-- What comes of a request that succeeds. -/
inductive Reply where
  | created (lock : Lock)
  | page (page : LockPage)
  | split (page : VerifyPage)
  | released (lock : Lock)
  deriving DecidableEq, Repr

/-- What the service does about a request. -/
def serve (s : Locking σ) : Task → Service σ Reply
  | .create request user path => (fun a => .created a.lock) <$> s.create request user path
  | .list query user path => .page <$> s.list query user path
  | .verify request user path => .split <$> s.listToVerify request user path
  | .release id request user path =>
    (fun a => .released a.lock) <$> s.release id request user path

/-- What comes of a request, and how far the service has come then. -/
def step (s : Locking σ) (task : Task) (p : Progress σ) : Except Failure Reply × Progress σ :=
  perform (s.serve task) p

namespace Task

/-- What a request has a registry do. -/
def onRegistry (r : Registry) : Task → Registry.Task
  | .create request user _ => .create request.path (Ref.name? request.ref) user
  | .list query _ _ => .list query.path query.id query.cursor query.limit query.refspec
  | .verify request user _ => .listToVerify (Ref.name? request.ref) user request.cursor request.limit
  | .release id request user _ =>
    .delete id (Ref.name? request.ref) user (request.force && r.isAdministrator user)

/-- What a request makes of the reply of a registry. -/
def reply : Task → Registry.Reply → Reply
  | _, .created l => .created l
  | .verify _ user _, .page page => .split (Locking.split page user)
  | _, .page page => .page page
  | _, .released l => .released l

theorem reply_created (task : Task) {l : Lock} : task.reply (.created l) = .created l := by
  cases task <;> rfl

theorem reply_released (task : Task) {l : Lock} : task.reply (.released l) = .released l := by
  cases task <;> rfl

end Task

/-! ## Who is let in -/

/-- The way to the lock keeper: through the gate, and on to where the keeper is found. -/
def entrance (s : Locking σ) (path : Option String) (op : Operation) (ref user : Option String) :
    Service σ (LockKeeper σ) := do
  Gate.pass s.policies path op ref user
  s.keeper path

/-- The way that a request takes to the lock keeper. -/
def Task.entrance (s : Locking σ) : Task → Service σ (LockKeeper σ)
  | .create request user path => s.entrance path .createLock (Ref.name? request.ref) user
  | .list query user path => s.entrance path .listLocks query.refspec user
  | .verify request user path => s.entrance path .listLocksToVerify (Ref.name? request.ref) user
  | .release _ request user path => s.entrance path .deleteLock (Ref.name? request.ref) user

/-- A request passes the gate and finds a lock keeper. -/
def Admits (s : Locking σ) (task : Task) (p : Progress σ) : Prop :=
  ∃ keeper, (perform (task.entrance s) p).1 = .ok keeper

theorem keeps_keeper (h : s.Over r part update) (path : Option String) :
    Service.Keeps part (s.keeper path) :=
  h.keepers.bind path (Keeps.throw _) fun keeper _ => Keeps.pure keeper

/-- To go in leaves the registry alone, and leads to it. -/
theorem perform_entrance (h : s.Over r part update) (task : Task) (p : Progress σ) :
    part (perform (task.entrance s) p).2.state = part p.state ∧
      ∀ keeper, (perform (task.entrance s) p).1 = .ok keeper →
        keeper = r.keeper.focus part update := by
  have hgo : ∀ path op ref user,
      part (perform (s.entrance path op ref user) p).2.state = part p.state ∧
        ∀ keeper, (perform (s.entrance path op ref user) p).1 = .ok keeper →
          keeper = r.keeper.focus part update := by
    intro path op ref user
    refine ⟨((Gate.keeps_pass h.policies path op ref user).bind fun _ => keeps_keeper h path) p,
      fun keeper hk => ?_⟩
    obtain ⟨-, q, -, hq⟩ := perform_bind_eq_ok.1 (Prod.ext hk rfl)
    obtain ⟨found, q', hfound, hq'⟩ := perform_bind_eq_ok.1 hq
    cases found with
    | none => cases hq'
    | some k =>
      cases hq'
      exact (h.keepers path).2 q _ _ hfound
  cases task <;> exact hgo _ _ _ _

/-! ## What a request does -/

/-- Whether force counts: it must be asked for, and the keeper must know an administrator. -/
def force (keeper : LockKeeper σ) (request : ReleaseRequest) (user : Option String) :
    Service σ Bool :=
  if request.force then Service.ask (.isAdministrator user) (keeper.isAdministrator user)
  else pure false

/-- What a request has a keeper do once it has found it. -/
def Task.conduct (keeper : LockKeeper σ) : Task → Service σ Reply
  | .create request user _ => do
    let ref := Ref.name? request.ref
    Service.report .debug "locks" (Log.message "locks.create"
      [("path", request.path), ("ref", Log.shown ref), ("user", Log.shown user)])
    let lock ← Service.ask (.createLock request.path ref user) (keeper.create request.path ref user)
    Service.report .info "locks" (Log.message "locks.created"
      [("id", lock.id), ("path", lock.path), ("user", Log.shown user)])
    return .created lock
  | .list q _ _ => do
    Service.report .debug "locks" (Log.message "locks.list"
      [("path", Log.shown q.path), ("id", Log.shown q.id), ("cursor", Log.shown q.cursor),
        ("limit", Log.shownInt q.limit), ("refspec", Log.shown q.refspec)])
    let page ← Service.ask (.listLocks q.path q.id q.cursor q.limit q.refspec)
      (keeper.list q.path q.id q.cursor q.limit q.refspec)
    return .page page
  | .verify request user _ => do
    let ref := Ref.name? request.ref
    Service.report .debug "locks" (Log.message "locks.verify"
      [("cursor", Log.shown request.cursor), ("limit", Log.shownInt request.limit),
        ("ref", Log.shown ref), ("user", Log.shown user)])
    let page ← Service.ask (.locksToVerify ref user request.cursor request.limit)
      (keeper.listToVerify ref user request.cursor request.limit)
    return .split (Locking.split page user)
  | .release id request user _ => do
    let ref := Ref.name? request.ref
    let force ← force keeper request user
    Service.report .debug "locks" (Log.message "locks.delete"
      [("id", id), ("ref", Log.shown ref), ("user", Log.shown user),
        ("force", Log.shownBool force)])
    let lock ← Service.ask (.deleteLock id ref user force) (keeper.delete id ref user force)
    Service.report .info "locks" (Log.message "locks.deleted"
      [("id", lock.id), ("path", lock.path), ("user", Log.shown user),
        ("force", Log.shownBool force)])
    return .released lock

/-- A request goes in, and then has the keeper do something. -/
theorem serve_eq (s : Locking σ) (task : Task) :
    s.serve task = task.entrance s >>= fun keeper => task.conduct keeper := by
  cases task with
  | release id request user path =>
    cases hf : request.force <;>
      simp [serve, release, Task.entrance, Task.conduct, entrance, force, hf]
  | _ => simp [serve, create, list, listToVerify, Task.entrance, Task.conduct, entrance]

/-- Force counts for administrators only. -/
theorem leads_force (hpart : ∀ x w, part (update x w) = x) (request : ReleaseRequest)
    (user : Option String) (b : RegistryState) :
    Service.Leads part b (force (r.keeper.focus part update) request user)
      (.ok (request.force && r.isAdministrator user)) b := by
  unfold force
  cases request.force with
  | false => exact .pure _
  | true =>
    exact Service.Leads.ask_focus hpart (.isAdministrator user) (r.keeper.isAdministrator user) b

/-- What a question to the registry comes to is passed on when it fails, and told otherwise. -/
theorem leads_ask_bind (hpart : ∀ x w, part (update x w) = x) {α : Type} (call : Call)
    (q : Query RegistryState α) (make : α → Registry.Reply) (reply : Registry.Reply → Reply)
    {tell : α → Service σ Reply} (b : RegistryState)
    (htell : ∀ a c, Service.Leads part c (tell a) (.ok (reply (make a))) c) :
    Service.Leads part b (Service.ask call (q.focus part update) >>= tell)
      ((perform (make <$> q) ⟨b, []⟩).1.map reply) (perform (make <$> q) ⟨b, []⟩).2.state := by
  have hask := Service.Leads.ask_focus hpart call q b
  rw [perform_map]
  rcases hq : perform q ⟨b, []⟩ with ⟨e | a, scene⟩ <;> rw [hq] at hask
  · exact hask.bind_error
  · exact hask.bind (htell a scene.state)

/-- Once a request has found the keeper, it does what one task does on the registry. -/
theorem leads_conduct (hpart : ∀ x w, part (update x w) = x) (task : Task) (b : RegistryState) :
    Service.Leads part b (task.conduct (r.keeper.focus part update))
      ((r.answer (task.onRegistry r) b).1.map task.reply)
      (r.answer (task.onRegistry r) b).2 := by
  unfold Registry.answer
  cases task with
  | create request user path =>
    refine (Service.Leads.report _ _ _).bind ?_
    refine leads_ask_bind hpart _ (r.keeper.create _ _ _) .created _ b fun lock c => ?_
    exact (Service.Leads.report _ _ _).bind (.pure _)
  | list q user path =>
    refine (Service.Leads.report _ _ _).bind ?_
    exact leads_ask_bind hpart _ (r.keeper.list _ _ _ _ _) .page _ b fun page c => .pure _
  | verify request user path =>
    refine (Service.Leads.report _ _ _).bind ?_
    exact leads_ask_bind hpart _ (r.keeper.listToVerify _ _ _ _) .page _ b fun page c => .pure _
  | release id request user path =>
    refine (leads_force hpart request user b).bind ((Service.Leads.report _ _ _).bind ?_)
    refine leads_ask_bind hpart _ (r.keeper.delete _ _ _ _) .released _ b fun lock c => ?_
    exact (Service.Leads.report _ _ _).bind (.pure _)

/-- A request that is let in does what one task does on the registry. -/
theorem step_of_admits (h : s.Over r part update) {task : Task} {p : Progress σ}
    (ha : s.Admits task p) :
    (s.step task p).1 = (r.answer (task.onRegistry r) (part p.state)).1.map task.reply ∧
      part (s.step task p).2.state = (r.answer (task.onRegistry r) (part p.state)).2 := by
  obtain ⟨keeper, hk⟩ := ha
  obtain ⟨hpart, hkeeper⟩ := perform_entrance h task p
  obtain rfl := hkeeper keeper hk
  rw [step, serve_eq, perform_bind]
  rcases hp : perform (task.entrance s) p with ⟨x, q⟩
  rw [hp] at hk hpart
  obtain rfl : x = _ := hk
  obtain ⟨q', hq, hstate⟩ := leads_conduct (r := r) h.part_update task (part p.state) q hpart
  simp only [hq]
  exact ⟨trivial, hstate⟩

/-- A request that is not let in fails, and leaves the registry alone. -/
theorem step_of_not_admits (h : s.Over r part update) {task : Task} {p : Progress σ}
    (ha : ¬ s.Admits task p) :
    (∃ e, (s.step task p).1 = .error e) ∧ part (s.step task p).2.state = part p.state := by
  have hpart := (perform_entrance h task p).1
  rw [step, serve_eq, perform_bind]
  rcases hp : perform (task.entrance s) p with ⟨e | keeper, q⟩
  · rw [hp] at hpart
    exact ⟨⟨e, rfl⟩, hpart⟩
  · exact absurd ⟨keeper, by rw [hp]⟩ ha

/-! ## Requests that only look -/

theorem keeps_answerPage (r : Registry) (locks : List Lock) (cursor : Option String)
    (limit : Int) : Query.Keeps id (r.answerPage locks cursor limit) := fun scene => by
  rw [Registry.perform_answerPage]

/-- What is done with the lock keeper leaves the registry alone, if it does so with the registry. -/
theorem keeps_keeper_bind (h : s.Over r part update) (path : Option String)
    {α : Type} {f : LockKeeper σ → Service σ α}
    (hf : Service.Keeps part (f (r.keeper.focus part update))) :
    Service.Keeps part (s.keeper path >>= f) := by
  unfold Locking.keeper
  rw [bind_assoc]
  refine h.keepers.bind path (Keeps.throw _) fun keeper hkeeper => ?_
  rw [hkeeper]
  exact hf

theorem keeps_list (h : s.Over r part update) (q : LockQuery)
    (user path : Option String) : Service.Keeps part (s.list q user path) := by
  unfold Locking.list
  refine (Gate.keeps_pass h.policies _ _ _ _).bind fun _ => keeps_keeper_bind h path ?_
  refine (Service.Keeps.report _ _ _).bind fun _ => Service.Keeps.ask _ ?_
  exact Query.Keeps.focus h.part_update
    (Keeps.bind (fun _ => rfl) fun _ => keeps_answerPage _ _ _ _)

theorem keeps_listToVerify (h : s.Over r part update) (request : VerifyRequest)
    (user path : Option String) : Service.Keeps part (s.listToVerify request user path) := by
  unfold Locking.listToVerify
  refine (Gate.keeps_pass h.policies _ _ _ _).bind fun _ => keeps_keeper_bind h path ?_
  refine (Service.Keeps.report _ _ _).bind fun _ => (Service.Keeps.ask _ ?_).bind fun _ =>
    Keeps.pure _
  exact Query.Keeps.focus h.part_update
    (Keeps.bind (fun _ => rfl) fun _ => keeps_answerPage _ _ _ _)

/-! ## How the table changes -/

theorem effect_step (h : s.Over r part update) {task : Task} {p : Progress σ}
    (hc : (part p.state).table.Consistent) {reply : Reply}
    (hr : (s.step task p).1 = .ok reply) :
    ∃ x, task.reply x = reply ∧
      r.Effect (part p.state) (task.onRegistry r) (.ok x) (part (s.step task p).2.state) := by
  by_cases ha : s.Admits task p
  · obtain ⟨hanswer, hstate⟩ := step_of_admits h ha
    have he := r.effect_answer _ hc (task.onRegistry r)
    rw [hr] at hanswer
    rw [hstate]
    rcases hx : (r.answer (task.onRegistry r) (part p.state)).1 with e | x
    · rw [hx] at hanswer
      cases hanswer
    · rw [hx] at hanswer he
      exact ⟨x, (Except.ok.inj hanswer).symm, he⟩
  · obtain ⟨⟨e, he⟩, -⟩ := step_of_not_admits h ha
    rw [hr] at he
    cases he

/-- A lock is created for someone with a name on a path that is free, and is added to the table. -/
theorem created_step (h : s.Over r part update) {task : Task} {p : Progress σ}
    (hc : (part p.state).table.Consistent) {l : Lock}
    (hl : (s.step task p).1 = .ok (.created l)) :
    ∃ request name path, task = .create request (some name) path ∧ name ≠ "" ∧
      l.path = request.path ∧ l.path ≠ "" ∧ l.ownerName = some name ∧
      l.id = r.newId (part p.state).drawn ∧ (∀ l' ∈ (part p.state).table.active, l'.path ≠ l.path) ∧
      part (s.step task p).2.state = ⟨(part p.state).table.add l, (part p.state).drawn + 1⟩ := by
  obtain ⟨x, hx, he⟩ := effect_step h hc hl
  generalize hafter : part (s.step task p).2.state = after at he
  cases task with
  | create request user path =>
    cases he with
    | created named allowed free path_ne id_ne clock =>
      cases hx
      exact ⟨request, _, path, rfl, named, rfl, path_ne, rfl, rfl, hc.byPath_eq_none_iff.1 free, rfl⟩
  | list query user path => cases he; cases hx
  | verify request user path => cases he; cases hx
  | release id request user path => cases he; cases hx

/-- Whoever made the lock may release it, and an administrator may with force. -/
def Entitled (r : Registry) (owner user : Option String) (request : ReleaseRequest) : Prop :=
  user = owner ∨ request.force = true ∧ ∃ name ∈ r.administrators, user = some name

/-- A lock is released at the request of someone who is entitled to it, and is removed from the
table. -/
theorem released_step (h : s.Over r part update) {task : Task} {p : Progress σ}
    (hc : (part p.state).table.Consistent) {l : Lock}
    (hl : (s.step task p).1 = .ok (.released l)) :
    ∃ request user path, task = .release l.id request user path ∧
      Entitled r l.ownerName user request ∧ l ∈ (part p.state).table.active ∧
      part (s.step task p).2.state =
        { part p.state with table := (part p.state).table.remove l } := by
  obtain ⟨x, hx, he⟩ := effect_step h hc hl
  generalize hafter : part (s.step task p).2.state = after at he
  cases task with
  | create request user path => cases he; cases hx
  | list query user path => cases he; cases hx
  | verify request user path => cases he; cases hx
  | release id request user path =>
    cases he with
    | released held entitled =>
      cases hx
      refine ⟨request, user, path, rfl, ?_, hc.mem_active_iff.2 held, rfl⟩
      rcases entitled with hforce | howner
      · rw [Bool.and_eq_true] at hforce
        refine Or.inr ⟨hforce.1, ?_⟩
        cases user with
        | none => cases hforce.2
        | some name => exact ⟨name, of_decide_eq_true hforce.2, rfl⟩
      · exact Or.inl howner.symm

/-- Nothing else changes the table. -/
theorem table_step (h : s.Over r part update) {task : Task} {p : Progress σ}
    (hc : (part p.state).table.Consistent)
    (hcreated : ∀ l, (s.step task p).1 ≠ .ok (.created l))
    (hreleased : ∀ l, (s.step task p).1 ≠ .ok (.released l)) :
    (part (s.step task p).2.state).table = (part p.state).table := by
  by_cases ha : s.Admits task p
  · obtain ⟨hanswer, hstate⟩ := step_of_admits h ha
    have he := r.effect_answer _ hc (task.onRegistry r)
    rw [hanswer] at hcreated hreleased
    rw [hstate]
    generalize (r.answer (task.onRegistry r) (part p.state)).1 = answer at he hcreated hreleased
    generalize (r.answer (task.onRegistry r) (part p.state)).2 = after at he ⊢
    generalize task.onRegistry r = rtask at he
    cases he with
    | created => exact absurd (congrArg Except.ok task.reply_created) (hcreated _)
    | released => exact absurd (congrArg Except.ok task.reply_released) (hreleased _)
    | _ => rfl
  · rw [(step_of_not_admits h ha).2]

/-- To lock a path adds the lock of the answer, or changes no lock. -/
theorem perform_create (h : s.Over r part update) {p : Progress σ}
    (hc : (part p.state).table.Consistent) (request : CreateRequest) (user path : Option String) :
    (∃ l q, perform (s.create request user path) p = (.ok ⟨l⟩, q) ∧
      l.id = r.newId (part p.state).drawn ∧ (∀ l' ∈ (part p.state).table.active, l'.path ≠ l.path) ∧
      part q.state = ⟨(part p.state).table.add l, (part p.state).drawn + 1⟩) ∨
    ∃ e q, perform (s.create request user path) p = (.error e, q) ∧
      (part q.state).table = (part p.state).table := by
  rcases hp : perform (s.create request user path) p with ⟨e | answer, q⟩
  · have hstep : s.step (.create request user path) p = (.error e, q) := by
      rw [step, serve, perform_map, hp]
    have hcreated : ∀ l, (s.step (.create request user path) p).1 ≠ .ok (.created l) := by
      simp [hstep]
    have htable := table_step h hc hcreated (by simp [hstep])
    rw [hstep] at htable
    exact Or.inr ⟨e, q, rfl, htable⟩
  · obtain ⟨l, rfl⟩ : ∃ l, answer = ⟨l⟩ := ⟨answer.lock, rfl⟩
    have hstep : s.step (.create request user path) p = (.ok (.created l), q) := by
      rw [step, serve, perform_map, hp]
    have hcreated : (s.step (.create request user path) p).1 = .ok (.created l) := by rw [hstep]
    obtain ⟨_, _, _, -, -, -, -, -, hid, hfree, hstate⟩ := created_step h hc hcreated
    rw [hstep] at hstate
    exact Or.inl ⟨l, q, rfl, hid, hfree, hstate⟩

/-- To release a lock removes the lock of the answer, or changes no lock. -/
theorem perform_release (h : s.Over r part update) {p : Progress σ}
    (hc : (part p.state).table.Consistent) (id : String) (request : ReleaseRequest)
    (user path : Option String) :
    (∃ l q, perform (s.release id request user path) p = (.ok ⟨l⟩, q) ∧ l.id = id ∧
      l ∈ (part p.state).table.active ∧
      part q.state = { part p.state with table := (part p.state).table.remove l }) ∨
    ∃ e q, perform (s.release id request user path) p = (.error e, q) ∧
      (part q.state).table = (part p.state).table := by
  rcases hp : perform (s.release id request user path) p with ⟨e | answer, q⟩
  · have hstep : s.step (.release id request user path) p = (.error e, q) := by
      rw [step, serve, perform_map, hp]
    have hreleased : ∀ l, (s.step (.release id request user path) p).1 ≠ .ok (.released l) := by
      simp [hstep]
    have htable := table_step h hc (by simp [hstep]) hreleased
    rw [hstep] at htable
    exact Or.inr ⟨e, q, rfl, htable⟩
  · obtain ⟨l, rfl⟩ : ∃ l, answer = ⟨l⟩ := ⟨answer.lock, rfl⟩
    have hstep : s.step (.release id request user path) p = (.ok (.released l), q) := by
      rw [step, serve, perform_map, hp]
    have hreleased : (s.step (.release id request user path) p).1 = .ok (.released l) := by
      rw [hstep]
    obtain ⟨_, _, _, ht, -, hheld, hstate⟩ := released_step h hc hreleased
    simp only [Task.release.injEq] at ht
    rw [hstep] at hstate
    exact Or.inl ⟨l, q, rfl, ht.1.symm, hheld, hstate⟩

end GitLfs.Locking
