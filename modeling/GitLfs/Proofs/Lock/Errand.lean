import GitLfs.Proofs.Lock.Dialogue

/-!
# What a request asks before its errand

Before a request to the locking service asks the lock keeper for what it wants, it passes the gate, has
a keeper found, and, where force is asked for, has the keeper asked whether the user is an
administrator: `ahead`. Nothing of that releases a lock. The errand is the one call behind it, and it
is made whenever all of that went well (`calls_dialogue`).
-/

namespace GitLfs

variable {σ κ α : Type}

/-- The identifier of the lock that a call asks to have released. -/
def Call.released? : Call → Option String
  | deleteLock id _ _ _ => some id
  | _ => none

theorem Source.released?_calls (source : Source σ κ α) {call : Call} (h : call.released? = none) :
    ∀ c ∈ source.calls call, c.released? = none := by
  intro c hc
  cases source with
  | fixed collaborator => exact absurd hc List.not_mem_nil
  | lookup find =>
    rw [List.mem_singleton.1 hc]
    exact h

/-- The gate releases no lock. -/
theorem Gate.released?_plan (policies : PolicySource σ) (path : Option String) (op : Operation)
    (ref user : Option String) (a : σ) :
    ∀ call ∈ Gate.plan policies path op ref user a, call.released? = none := by
  intro call hcall
  rcases List.mem_append.1 hcall with hcall | hcall
  · exact policies.released?_calls rfl call hcall
  · have hcheck : ∀ call ∈ checkCalls op ref user, call.released? = none := by
      cases op <;> simp [checkCalls, Call.released?]
    split at hcall
    · exact hcheck call hcall
    · exact absurd hcall List.not_mem_nil

theorem Dialogue.calls_single (call : Call) (question : Query σ α) (s : σ) :
    ((single call question).hold s).calls = [call] := by
  unfold single
  rcases hq : perform question ⟨s, []⟩ with ⟨e | a, scene⟩
  · rw [hold_ask_error hq]
    rfl
  · rw [hold_ask_ok hq]
    rfl

namespace Locking

/-- What a request asks before its errand, and what it needs for that: the lock keeper, and whether
force counts. -/
def ahead (s : Locking σ) (task : Task) : Dialogue σ (LockKeeper σ × Bool) :=
  (s.approach task).withFound unavailable fun keeper =>
    (task.inquiry keeper).map fun force => (keeper, force)

/-- The call of the errand, when what it needs is there. -/
def Task.errandCalls (task : Task) : Except Failure (LockKeeper σ × Bool) → List Call
  | .ok (_, force) => [task.keeperCall force]
  | .error _ => []

theorem dialogue_eq_ahead (s : Locking σ) (task : Task) :
    s.dialogue task = (s.ahead task).andThen fun x => task.errand x.1 x.2 := by
  unfold dialogue ahead
  rw [Dialogue.withFound_andThen]
  congr 1
  funext keeper
  unfold Task.deed Dialogue.map
  rw [Dialogue.andThen_assoc]
  rfl

theorem calls_errand (keeper : LockKeeper σ) (force : Bool) (task : Task) (a : σ) :
    ((task.errand keeper force).hold a).calls = [task.keeperCall force] := by
  cases task <;> rw [Task.errand, Dialogue.calls_map, Dialogue.calls_single]

/-- The errand is done once everything ahead of it went well. -/
theorem calls_dialogue (s : Locking σ) (task : Task) (a : σ) :
    ((s.dialogue task).hold a).calls =
      ((s.ahead task).hold a).calls ++ task.errandCalls ((s.ahead task).hold a).outcome := by
  rw [dialogue_eq_ahead]
  cases houtcome : ((s.ahead task).hold a).outcome with
  | error e =>
    rw [Dialogue.hold_andThen_error houtcome, Task.errandCalls, List.append_nil]
    rfl
  | ok x =>
    rw [Dialogue.hold_andThen_ok houtcome, Course.calls_after, calls_errand]
    rfl

/-- Nothing that is asked before the errand releases a lock. -/
theorem released?_ahead (s : Locking σ) (task : Task) (a : σ) :
    ∀ call ∈ ((s.ahead task).hold a).calls, call.released? = none := by
  intro call hcall
  have hfollows : ((s.ahead task).hold a).Follows (s.approachPlan task a ++ _) :=
    Dialogue.follows_withFound (s.carriesOut_approach task a) fun keeper b =>
      Dialogue.carriesOut_map (carriesOut_inquiry keeper task b) fun force => (keeper, force)
  rcases List.mem_append.1 (hfollows.isPrefix.subset hcall) with hcall | hcall
  · rcases List.mem_append.1 hcall with hcall | hcall
    · exact Gate.released?_plan _ _ _ _ _ a call hcall
    · exact s.keepers.released?_calls rfl call hcall
  · unfold Dialogue.foundPlan at hcall
    split at hcall
    · split at hcall
      · rw [List.mem_singleton.1 hcall]
        rfl
      · exact absurd hcall List.not_mem_nil
    · exact absurd hcall List.not_mem_nil

end Locking

end GitLfs
