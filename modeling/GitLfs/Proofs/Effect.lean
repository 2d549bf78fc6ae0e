import GitLfs.Service

/-!
# What services and collaborators do

`perform x s` is the outcome of `x` when it is done from the state `s`, and the state behind it.
Each way to put things together has one equation.

`Keeps view x` says that whatever the outcome of `x` is, it leaves a part of the state as it was. The
parts of a service that have no business with that part keep it, and so does what is made of them.
-/

namespace GitLfs

variable {σ τ ν α β : Type}

/-- The outcome of something that is done from a state, and the state behind it. -/
def perform (x : ExceptT Failure (StateM σ) α) (s : σ) : Except Failure α × σ := x.run.run s

@[simp] theorem perform_pure (a : α) (s : σ) :
    perform (pure a : ExceptT Failure (StateM σ) α) s = (.ok a, s) := rfl

@[simp] theorem perform_throw (e : Failure) (s : σ) :
    perform (throw e : ExceptT Failure (StateM σ) α) s = (.error e, s) := rfl

theorem perform_bind (x : ExceptT Failure (StateM σ) α) (f : α → ExceptT Failure (StateM σ) β)
    (s : σ) :
    perform (x >>= f) s =
      match perform x s with
      | (.ok a, t) => perform (f a) t
      | (.error e, t) => (.error e, t) := by
  simp only [perform, ExceptT.run_bind, StateT.run_bind]
  change (match (x.run.run s).1 with | _ => _) = _
  rcases x.run.run s with ⟨a | a, t⟩ <;> rfl

theorem perform_map (f : α → β) (x : ExceptT Failure (StateM σ) α) (s : σ) :
    perform (f <$> x) s =
      match perform x s with
      | (.ok a, t) => (.ok (f a), t)
      | (.error e, t) => (.error e, t) := by
  rw [map_eq_pure_bind, perform_bind]
  rfl

theorem perform_map_eq (f : α → β) (x : ExceptT Failure (StateM σ) α) (s : σ) :
    perform (f <$> x) s = ((perform x s).1.map f, (perform x s).2) := by
  rw [perform_map]
  rcases perform x s with ⟨e | a, t⟩ <;> rfl

/-- Both parts of what is put together succeed when the whole does. -/
theorem perform_bind_eq_ok {x : ExceptT Failure (StateM σ) α}
    {f : α → ExceptT Failure (StateM σ) β} {s u : σ} {b : β} :
    perform (x >>= f) s = (.ok b, u) ↔
      ∃ a t, perform x s = (.ok a, t) ∧ perform (f a) t = (.ok b, u) := by
  rw [perform_bind]
  rcases perform x s with ⟨e | a, t⟩
  · simp
  · constructor
    · intro h; exact ⟨a, t, rfl, h⟩
    · rintro ⟨a', t', h, h'⟩; cases h; exact h'

/-! ## Queries -/

namespace Query

@[simp] theorem perform_state (scene : Scene σ) :
    perform (Query.state : Query σ σ) scene = (.ok scene.state, scene) := rfl

@[simp] theorem perform_setState (s : σ) (scene : Scene σ) :
    perform (Query.setState s) scene = (.ok (), { scene with state := s }) := rfl

@[simp] theorem perform_report (e : Event) (scene : Scene σ) :
    perform (Query.report e) scene = (.ok (), { scene with events := scene.events ++ [e] }) := rfl

@[simp] theorem perform_refuse (r : Refusal) (scene : Scene σ) :
    perform (Query.refuse r : Query σ α) scene = (.error (.refusal r), scene) := rfl

@[simp] theorem perform_defect (d : Defect) (scene : Scene σ) :
    perform (Query.defect d : Query σ α) scene = (.error (.defect d), scene) := rfl

@[simp] theorem perform_ofExcept (x : Except Failure α) (scene : Scene σ) :
    perform (Query.ofExcept x : Query σ α) scene = (x, scene) := by
  cases x <;> rfl

theorem perform_focus (part : σ → τ) (update : τ → σ → σ) (q : Query τ α) (scene : Scene σ) :
    perform (q.focus part update) scene =
      ((perform q ⟨part scene.state, scene.events⟩).1,
        ⟨update (perform q ⟨part scene.state, scene.events⟩).2.state scene.state,
          (perform q ⟨part scene.state, scene.events⟩).2.events⟩) := rfl

end Query

/-! ## Services -/

/-- The records of events during a request, those that a level lets through. -/
def Log.entries (level : Level) (id : Option String) (events : List Event) : List Record :=
  (events.filter fun e => level.admits e.level).map fun e => { e with requestId := Log.stamp id }

namespace Progress

@[simp] theorem state_add (r : Record) (p : Progress σ) : (p.add r).state = p.state := by
  unfold add
  split <;> rfl

@[simp] theorem calls_add (r : Record) (p : Progress σ) : (p.add r).calls = p.calls := by
  unfold add
  split <;> rfl

@[simp] theorem requestId_add (r : Record) (p : Progress σ) :
    (p.add r).requestId = p.requestId := by
  unfold add
  split <;> rfl

@[simp] theorem level_add (r : Record) (p : Progress σ) : (p.add r).level = p.level := by
  unfold add
  split <;> rfl

/-- By induction on the events: each is added for the same request and at the same level. -/
theorem report_eq (events : List Event) (p : Progress σ) :
    p.report events = { p with records := p.records ++ Log.entries p.level p.requestId events } := by
  unfold report
  induction events generalizing p with
  | nil => rw [List.foldl_nil, Log.entries, List.filter_nil, List.map_nil, List.append_nil]
  | cons e events ih =>
    rw [List.foldl_cons, ih, requestId_add, level_add]
    unfold add Log.entries
    rw [List.filter_cons]
    by_cases h : p.level.admits e.level = true
    · rw [if_pos h, if_pos h, List.map_cons]
      dsimp only
      rw [List.append_assoc, List.singleton_append]
    · rw [if_neg h, if_neg h]

@[simp] theorem state_report (events : List Event) (p : Progress σ) :
    (p.report events).state = p.state := by
  rw [report_eq]

@[simp] theorem calls_report (events : List Event) (p : Progress σ) :
    (p.report events).calls = p.calls := by
  rw [report_eq]

end Progress

namespace Service

@[simp] theorem perform_record (r : Record) (p : Progress σ) :
    perform (Service.record r) p = (.ok (), p.add r) := rfl

@[simp] theorem perform_report (level : Level) (logger message : String) (p : Progress σ) :
    perform (Service.report level logger message) p =
      (.ok (), p.report [⟨level, Log.logger logger, message⟩]) := rfl

@[simp] theorem perform_elapsed (p : Progress σ) :
    perform (Service.elapsed : Service σ Nat) p =
      (.ok (p.delays 0), { p with delays := fun n => p.delays (n + 1) }) := rfl

@[simp] theorem perform_refuse (r : Refusal) (p : Progress σ) :
    perform (Service.refuse r : Service σ α) p = (.error (.refusal r), p) := rfl

@[simp] theorem perform_ofExcept (x : Except Failure α) (p : Progress σ) :
    perform (Service.ofExcept x : Service σ α) p = (x, p) := by
  cases x <;> rfl

theorem perform_attempt (x : Service σ α) (p : Progress σ) :
    perform (Service.attempt x) p = (.ok (perform x p).1, (perform x p).2) := rfl

theorem perform_ask (call : Call) (q : Query σ α) (p : Progress σ) :
    perform (Service.ask call q) p =
      ((perform q ⟨p.state, []⟩).1,
        Progress.report (perform q ⟨p.state, []⟩).2.events
          { p with state := (perform q ⟨p.state, []⟩).2.state, calls := p.calls ++ [call] }) := rfl

end Service

/-! ## Parts of the state that are left alone -/

/-- Whatever its outcome is, it leaves a part of the state as it was. -/
def Keeps (view : σ → ν) (x : ExceptT Failure (StateM σ) α) : Prop :=
  ∀ s, view (perform x s).2 = view s

namespace Keeps

variable {view : σ → ν}

theorem pure (a : α) : Keeps view (pure a : ExceptT Failure (StateM σ) α) := fun _ => rfl

theorem throw (e : Failure) : Keeps view (throw e : ExceptT Failure (StateM σ) α) := fun _ => rfl

theorem bind {x : ExceptT Failure (StateM σ) α} {f : α → ExceptT Failure (StateM σ) β}
    (hx : Keeps view x) (hf : ∀ a, Keeps view (f a)) : Keeps view (x >>= f) := by
  intro s
  have hs := hx s
  rw [perform_bind]
  rcases hp : perform x s with ⟨e | a, t⟩ <;> rw [hp] at hs
  · exact hs
  · exact (hf a t).trans hs

end Keeps

/-- What a collaborator does leaves a part of its state as it was. -/
abbrev Query.Keeps (part : σ → ν) (q : Query σ α) : Prop :=
  GitLfs.Keeps (fun scene : Scene σ => part scene.state) q

/-- What is asked about a part of the state leaves the part alone, if it does so with the part as it
is. -/
theorem Query.Keeps.focus {part : σ → τ} {update : τ → σ → σ}
    (hpart : ∀ x w, part (update x w) = x) {q : Query τ α} (hq : Query.Keeps id q) :
    Query.Keeps part (q.focus part update) := fun scene => by
  rw [Query.perform_focus]
  exact (hpart _ _).trans (hq _)

/-- What a service does leaves a part of the collaborators' state as it was. -/
abbrev Service.Keeps (part : σ → ν) (x : Service σ α) : Prop :=
  GitLfs.Keeps (fun p : Progress σ => part p.state) x

namespace Service.Keeps

variable {part : σ → ν}

theorem report (level : Level) (logger message : String) :
    Service.Keeps part (Service.report level logger message) := fun p => by
  simp

theorem elapsed : Service.Keeps part (Service.elapsed : Service σ Nat) := fun _ => rfl

theorem ofExcept (x : Except Failure α) : Service.Keeps part (Service.ofExcept x) := fun p => by
  simp

theorem ask (call : Call) {q : Query σ α} (hq : Query.Keeps part q) :
    Service.Keeps part (Service.ask call q) := fun p => by
  rw [perform_ask]
  simpa using hq ⟨p.state, []⟩

end Service.Keeps

/-! ## Where collaborators are found -/

variable {κ : Type} {part : σ → ν}

/-- To find a collaborator leaves a part of the state alone, and what is found has a property. -/
def Source.Yields (part : σ → ν) (P : α → Prop) (call : κ → Call) (source : Source σ κ α) : Prop :=
  ∀ key, Service.Keeps part (source.resolve call key) ∧
    ∀ p a q, perform (source.resolve call key) p = (.ok (some a), q) → P a

namespace Source.Yields

variable {P : α → Prop} {call : κ → Call}

theorem fixed {collaborator : Option α} (h : ∀ a ∈ collaborator, P a) :
    Source.Yields part P call (.fixed collaborator) := by
  refine fun key => ⟨Keeps.pure collaborator, fun p a q hp => h a ?_⟩
  simp only [resolve, perform_pure, Prod.mk.injEq, Except.ok.injEq] at hp
  exact hp.1

/-- Whatever is done with what is found leaves the part alone, if it does so with anything that has
the property. -/
theorem bind {source : Source σ κ α} (h : source.Yields part P call) (key : κ)
    {f : Option α → Service σ β} (hnone : Service.Keeps part (f none))
    (hsome : ∀ a, P a → Service.Keeps part (f (some a))) :
    Service.Keeps part (source.resolve call key >>= f) := by
  intro p
  have hp := (h key).1 p
  rw [perform_bind]
  rcases hr : perform (source.resolve call key) p with ⟨e | found, q⟩ <;> rw [hr] at hp
  · exact hp
  · cases found with
    | none => exact (hnone q).trans hp
    | some a => exact (hsome a ((h key).2 p a q hr) q).trans hp

end Source.Yields

/-! ## What becomes of a part of the state -/

/-- From a part of the collaborators' state a service comes to an outcome and to another such part.
-/
def Service.Leads (part : σ → ν) (b : ν) (x : Service σ α) (outcome : Except Failure α) (c : ν) :
    Prop :=
  ∀ p, part p.state = b → ∃ q, perform x p = (outcome, q) ∧ part q.state = c

namespace Service.Leads

variable {part : σ → ν} {b c d : ν}

theorem pure (a : α) : Service.Leads part b (pure a) (.ok a) b := fun p hp => ⟨p, rfl, hp⟩

theorem report (level : Level) (logger message : String) :
    Service.Leads part b (Service.report level logger message) (.ok ()) b := fun p hp =>
  ⟨_, Service.perform_report level logger message p, by rw [Progress.state_report, hp]⟩

theorem bind {x : Service σ α} {f : α → Service σ β} {a : α} {outcome : Except Failure β}
    (hx : Service.Leads part b x (.ok a) c) (hf : Service.Leads part c (f a) outcome d) :
    Service.Leads part b (x >>= f) outcome d := by
  intro p hp
  obtain ⟨q, hq, hc⟩ := hx p hp
  rw [perform_bind, hq]
  exact hf q hc

theorem bind_error {x : Service σ α} {f : α → Service σ β} {e : Failure}
    (hx : Service.Leads part b x (.error e) c) :
    Service.Leads part b (x >>= f) (.error e) c := by
  intro p hp
  obtain ⟨q, hq, hc⟩ := hx p hp
  rw [perform_bind, hq]
  exact ⟨q, rfl, hc⟩

/-- To ask a collaborator whose state is a part of a larger one is to ask it about that part. -/
theorem ask_focus {part : σ → τ} {update : τ → σ → σ} (hpart : ∀ x w, part (update x w) = x)
    (call : Call) (q : Query τ α) (b : τ) :
    Service.Leads part b (Service.ask call (q.focus part update)) (perform q ⟨b, []⟩).1
      (perform q ⟨b, []⟩).2.state := by
  rintro p rfl
  rw [Service.perform_ask, Query.perform_focus]
  exact ⟨_, rfl, by simp [hpart]⟩

end Service.Leads

end GitLfs
