import GitLfs.Proofs.Access.Dialogue
import GitLfs.Proofs.Lock.Locking

/-!
# What the locking service asks

A request to the locking service passes the gate, has a lock keeper looked up where keepers are
looked up, and then asks the keeper for one thing. A release with force asks the keeper first whether
the user is an administrator. `holds_serve` says that the service holds this dialogue, and
`carriesOut_approach` and `carriesOut_deed` that its two parts follow their plans, whatever the
collaborators do; `gate_first` puts that together.
-/

namespace GitLfs.Locking

variable {σ : Type} {s : Locking σ}

/-! ## Requests -/

namespace Task

/-- The repository that a request is about. -/
def path : Task → Option String
  | .create _ _ path | .list _ _ path | .verify _ _ path | .release _ _ _ path => path

/-- Who makes a request. -/
def user : Task → Option String
  | .create _ user _ | .list _ user _ | .verify _ user _ | .release _ _ user _ => user

/-- The ref that a request is about. -/
def ref : Task → Option String
  | .create request _ _ => Ref.name? request.ref
  | .list query _ _ => query.refspec
  | .verify request _ _ => Ref.name? request.ref
  | .release _ request _ _ => Ref.name? request.ref

/-- What the gate is asked about. -/
def operation : Task → Operation
  | .create _ _ _ => .createLock
  | .list _ _ _ => .listLocks
  | .verify _ _ _ => .listLocksToVerify
  | .release _ _ _ _ => .deleteLock

/-- Force is asked for. -/
def forced : Task → Bool
  | .release _ request _ _ => request.force
  | _ => false

/-- The call that asks the keeper for what a request wants. -/
def keeperCall (force : Bool) (task : Task) : Call :=
  match task with
  | .create request _ _ => .createLock request.path task.ref task.user
  | .list query _ _ => .listLocks query.path query.id query.cursor query.limit task.ref
  | .verify request _ _ => .locksToVerify task.ref task.user request.cursor request.limit
  | .release id _ _ _ => .deleteLock id task.ref task.user force

/-- Force counts: it is asked for, and the keeper knows an administrator. -/
def force (keeper : LockKeeper σ) (a : σ) (task : Task) : Bool :=
  task.forced && (perform (keeper.isAdministrator task.user) ⟨a, []⟩).1.toOption.getD false

end Task

/-! ## Dialogues and their plans -/

/-- What is asked on the way to the lock keeper. -/
def approach (s : Locking σ) (task : Task) : Dialogue σ (Option (LockKeeper σ)) :=
  (Gate.dialogue s.policies task.path task.operation task.ref task.user).andThen fun _ =>
    s.keepers.dialogue .keeperFor task.path

/-- The calls on the way to the lock keeper. -/
def approachPlan (s : Locking σ) (task : Task) (a : σ) : List Call :=
  Gate.plan s.policies task.path task.operation task.ref task.user a ++
    s.keepers.calls (.keeperFor task.path)

namespace Task

/-- The one thing that a request asks of a keeper. -/
def errand (keeper : LockKeeper σ) (force : Bool) (task : Task) : Dialogue σ Reply :=
  match task with
  | .create request _ _ =>
    (Dialogue.single (task.keeperCall force) (keeper.create request.path task.ref task.user)).map
      .created
  | .list query _ _ =>
    (Dialogue.single (task.keeperCall force)
      (keeper.list query.path query.id query.cursor query.limit task.ref)).map .page
  | .verify request _ _ =>
    (Dialogue.single (task.keeperCall force)
      (keeper.listToVerify task.ref task.user request.cursor request.limit)).map
        fun page => .split (Locking.split page task.user)
  | .release id _ _ _ =>
    (Dialogue.single (task.keeperCall force) (keeper.delete id task.ref task.user force)).map
      .released

/-- Whether the user is an administrator, where force is asked for. -/
def inquiry (keeper : LockKeeper σ) (task : Task) : Dialogue σ Bool :=
  match task.forced with
  | true => .single (.isAdministrator task.user) (keeper.isAdministrator task.user)
  | false => .close (.ok false)

/-- What a request asks of a keeper. -/
def deed (keeper : LockKeeper σ) (task : Task) : Dialogue σ Reply :=
  (task.inquiry keeper).andThen fun force => task.errand keeper force

/-- The calls of a request on a keeper. -/
def deedPlan (keeper : LockKeeper σ) (a : σ) (task : Task) : List Call :=
  (if task.forced then [.isAdministrator task.user] else []) ++
    [task.keeperCall (task.force keeper a)]

end Task

theorem serviceUnavailable_ne_lockConflict : RefusalKind.serviceUnavailable ≠ .lockConflict := by
  decide

/-- What a client is told when there is no lock keeper; that shows no lock. -/
def unavailable : Failure :=
  .refusal (.plain .serviceUnavailable unavailableMessage serviceUnavailable_ne_lockConflict)

/-- What a request has the service ask. -/
def dialogue (s : Locking σ) (task : Task) : Dialogue σ Reply :=
  (s.approach task).withFound unavailable fun keeper => task.deed keeper

/-- All calls of a request. -/
def plan (s : Locking σ) (task : Task) (a : σ) : List Call :=
  s.approachPlan task a ++
    (s.approach task).foundPlan (fun keeper a => task.deedPlan keeper a) a

/-! ## The service holds its dialogue -/

theorem holds_keeper (s : Locking σ) (path : Option String) :
    (s.keeper path).Holds
      ((s.keepers.dialogue .keeperFor path).withFound unavailable fun keeper =>
        .close (.ok keeper)) := by
  refine (s.keepers.holds_resolve .keeperFor path).bind fun found => ?_
  cases found with
  | some keeper => exact .pure keeper
  | none => exact .refuse _

theorem holds_entrance (s : Locking σ) (task : Task) :
    (task.entrance s).Holds
      ((s.approach task).withFound unavailable fun keeper => .close (.ok keeper)) := by
  have hgo : ∀ path op ref user, (s.entrance path op ref user).Holds
      (((Gate.dialogue s.policies path op ref user).andThen fun _ =>
        s.keepers.dialogue .keeperFor path).withFound unavailable fun keeper =>
          .close (.ok keeper)) := by
    intro path op ref user
    unfold Dialogue.withFound
    rw [Dialogue.andThen_assoc]
    exact (Gate.holds_pass path op ref user).bind fun _ => s.holds_keeper path
  cases task <;> exact hgo _ _ _ _

theorem holds_conduct (keeper : LockKeeper σ) (task : Task) :
    (task.conduct keeper).Holds (task.deed keeper) := by
  cases task with
  | create request user path =>
    exact .report_bind ((Service.Holds.ask _ _).bind fun lock => .report_bind (.pure _))
  | list query user path =>
    exact .report_bind ((Service.Holds.ask _ _).bind fun page => .pure _)
  | verify request user path =>
    exact .report_bind ((Service.Holds.ask _ _).bind fun page => .pure _)
  | release id request user path =>
    have hforce : (force keeper request user).Holds
        ((Task.release id request user path).inquiry keeper) := by
      unfold force Task.inquiry Task.forced
      dsimp only
      cases request.force with
      | true => exact .ask _ _
      | false => exact .pure false
    exact hforce.bind fun force =>
      .report_bind ((Service.Holds.ask _ _).bind fun lock => .report_bind (.pure _))

theorem holds_serve (s : Locking σ) (task : Task) : (s.serve task).Holds (s.dialogue task) := by
  have h := (s.holds_entrance task).bind fun keeper => holds_conduct keeper task
  rw [Dialogue.withFound_andThen] at h
  rw [serve_eq]
  exact h

/-! ## The dialogue follows its plan -/

theorem carriesOut_approach (s : Locking σ) (task : Task) (a : σ) :
    ((s.approach task).hold a).CarriesOut (s.approachPlan task a) :=
  Dialogue.carriesOut_andThen (Gate.carriesOut_dialogue _ _ _ _ a) fun _ _ =>
    s.keepers.carriesOut_dialogue _ _ _

theorem carriesOut_errand (keeper : LockKeeper σ) (force : Bool) (task : Task) (a : σ) :
    ((task.errand keeper force).hold a).CarriesOut [task.keeperCall force] := by
  cases task <;> exact Dialogue.carriesOut_map (Dialogue.carriesOut_single _ _ a) _

/-- Where force is asked for, the keeper is asked about the user. -/
theorem carriesOut_inquiry (keeper : LockKeeper σ) (task : Task) (a : σ) :
    ((task.inquiry keeper).hold a).CarriesOut
      (if task.forced then [.isAdministrator task.user] else []) := by
  unfold Task.inquiry
  cases task.forced with
  | false => exact Dialogue.carriesOut_ok _ a
  | true => exact Dialogue.carriesOut_single _ _ a

theorem force_of_inquiry {keeper : LockKeeper σ} {task : Task} {a : σ} {force : Bool}
    (h : ((task.inquiry keeper).hold a).outcome = .ok force) : force = task.force keeper a := by
  unfold Task.inquiry at h
  unfold Task.force
  cases hforced : task.forced with
  | false =>
    rw [hforced] at h
    cases h
    rfl
  | true =>
    rw [hforced, Dialogue.outcome_single] at h
    rw [h]
    rfl

theorem carriesOut_deed (keeper : LockKeeper σ) (task : Task) (a : σ) :
    ((task.deed keeper).hold a).CarriesOut (task.deedPlan keeper a) := by
  refine Dialogue.carriesOut_andThen (carriesOut_inquiry keeper task a) fun force hforce => ?_
  rw [← force_of_inquiry hforce]
  exact carriesOut_errand keeper force task _

/-- Whatever the collaborators of a locking service do, a request passes the gate first: the policy is
looked up and asked once, for the right to read for a listing and to write otherwise. Then the lock
keeper is looked up. It is asked whether the user is an administrator exactly in a release with
force, and then for one thing, on the ref and for the user that the policy was asked about. The first
call that fails is the last one, and its failure is the outcome. Without a keeper the service is
unavailable, and no keeper is asked. -/
theorem gate_first (s : Locking σ) (task : Task) (p : Progress σ) :
    let course := (s.dialogue task).hold p.state
    let approach := (s.approach task).hold p.state
    (s.step task p).1 = course.outcome ∧ (s.step task p).2.state = course.state ∧
    (s.step task p).2.calls = p.calls ++ course.calls ∧
    course.Follows (s.plan task p.state) ∧
    (approach.outcome = .ok none →
      course.outcome = .error unavailable ∧ course.calls = s.approachPlan task p.state) ∧
    (approach.outcome ≠ .ok none → course.Unfailing → ∃ reply, course.outcome = .ok reply) := by
  intro course approach
  obtain ⟨houtcome, hstate, hcalls⟩ := s.holds_serve task p
  have happroach := s.carriesOut_approach task p.state
  have hdeed := fun (keeper : LockKeeper σ) (a : σ) => carriesOut_deed keeper task a
  refine ⟨houtcome, hstate, hcalls, Dialogue.follows_withFound happroach hdeed,
    Dialogue.hold_withFound_none happroach, fun hfound hun => ?_⟩
  have hcourse : course.CarriesOut (s.plan task p.state) :=
    Dialogue.carriesOut_withFound happroach hdeed hfound
  exact hcourse.ok_of_unfailing hun

end GitLfs.Locking
