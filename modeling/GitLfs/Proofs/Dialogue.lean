import GitLfs.Proofs.Effect

/-!
# Dialogues

A dialogue is what a service says to its collaborators: calls with the questions that they put, where
each may depend on the answers to those before it. The first call that fails ends the dialogue, and
its failure is what comes of it: `Dialogue.stops`.

`Course.Follows` says that the course of a dialogue follows a plan of calls: it makes all of them,
unless one of them fails. `Service.Holds` says that a service holds a dialogue; whatever else it does
is no call, such as to write records.
-/

namespace GitLfs

variable {σ κ α β γ : Type}

/-- Questions to collaborators with state `σ`, one after the other, and what comes of them. -/
inductive Dialogue (σ α : Type) : Type 1 where
  /-- There is nothing to ask any more. -/
  | close (outcome : Except Failure α)
  /-- A call and the question that it puts, and how the dialogue goes on after an answer. -/
  | ask {β : Type} (call : Call) (question : Query σ β) (next : β → Dialogue σ α)

/-- A call that was made, and its failure if it failed. -/
structure Heard where
  call : Call
  failure : Option Failure

/-- How a dialogue went: the calls, what came of them, and the collaborators' state behind them. -/
structure Course (σ α : Type) where
  heard : List Heard
  outcome : Except Failure α
  state : σ

namespace Course

/-- The calls that were made. -/
def calls (c : Course σ α) : List Call := c.heard.map Heard.call

/-- None of the calls failed. -/
def Unfailing (c : Course σ α) : Prop := ∀ h ∈ c.heard, h.failure = none

/-- A course with other calls in front of it. -/
def after (heard : List Heard) (c : Course σ α) : Course σ α := { c with heard := heard ++ c.heard }

/-- The calls are those of a plan, all of them unless one failed. One that failed is the last, and its
failure is what comes of it. -/
structure Follows (c : Course σ α) (plan : List Call) : Prop where
  isPrefix : c.calls <+: plan
  complete : c.Unfailing → c.calls = plan
  stops : ∀ front h back e, c.heard = front ++ h :: back → h.failure = some e →
    back = [] ∧ c.outcome = .error e

/-- The calls are those of a plan, and nothing but a call that fails stands in the way of the rest. -/
structure CarriesOut (c : Course σ α) (plan : List Call) : Prop extends c.Follows plan where
  blames : ∀ e, c.outcome = .error e → ∃ h ∈ c.heard, h.failure = some e

/-- The calls are the first ones of a plan, and all of them when there is an answer. -/
structure Heeds (c : Course σ α) (plan : List Call) : Prop where
  isPrefix : c.calls <+: plan
  complete : ∀ a, c.outcome = .ok a → c.calls = plan

theorem CarriesOut.ok_of_unfailing {c : Course σ α} {plan : List Call} (h : c.CarriesOut plan)
    (hun : c.Unfailing) : ∃ a, c.outcome = .ok a := by
  cases ho : c.outcome with
  | ok a => exact ⟨a, rfl⟩
  | error e =>
    obtain ⟨x, hx, he⟩ := h.blames e ho
    exact absurd (hun x hx) (by simp [he])

theorem calls_after (heard : List Heard) (c : Course σ α) :
    (c.after heard).calls = heard.map Heard.call ++ c.calls := List.map_append

end Course

namespace Dialogue

/-- Holds a dialogue with collaborators in a state. -/
def hold : Dialogue σ α → σ → Course σ α
  | close outcome, s => ⟨[], outcome, s⟩
  | ask call question next, s =>
    match perform question ⟨s, []⟩ with
    | (.ok a, scene) => ((next a).hold scene.state).after [⟨call, none⟩]
    | (.error e, scene) => ⟨[⟨call, some e⟩], .error e, scene.state⟩

/-- One dialogue, and another one from what came of it. -/
def andThen : Dialogue σ α → (α → Dialogue σ β) → Dialogue σ β
  | close (.ok a), f => f a
  | close (.error e), _ => close (.error e)
  | ask call question next, f => ask call question fun b => (next b).andThen f

/-- A dialogue from whose answer something is made. -/
def map (f : α → β) (d : Dialogue σ α) : Dialogue σ β := d.andThen fun a => close (.ok (f a))

/-- One dialogue, and another one with what it finds; when it finds nothing, that is a failure. -/
def withFound (d : Dialogue σ (Option κ)) (missing : Failure) (f : κ → Dialogue σ α) :
    Dialogue σ α :=
  d.andThen fun found =>
    match found with
    | some k => f k
    | none => close (.error missing)

/-- A single question. -/
def single (call : Call) (question : Query σ α) : Dialogue σ α :=
  ask call question fun a => close (.ok a)

theorem hold_ask_ok {call : Call} {question : Query σ β} {next : β → Dialogue σ α} {s : σ} {b : β}
    {scene : Scene σ} (h : perform question ⟨s, []⟩ = (.ok b, scene)) :
    (ask call question next).hold s = ((next b).hold scene.state).after [⟨call, none⟩] := by
  rw [hold, h]

theorem hold_ask_error {call : Call} {question : Query σ β} {next : β → Dialogue σ α} {s : σ}
    {e : Failure} {scene : Scene σ} (h : perform question ⟨s, []⟩ = (.error e, scene)) :
    (ask call question next).hold s = ⟨[⟨call, some e⟩], .error e, scene.state⟩ := by
  rw [hold, h]

theorem andThen_assoc (d : Dialogue σ α) (f : α → Dialogue σ β) (g : β → Dialogue σ γ) :
    (d.andThen f).andThen g = d.andThen fun a => (f a).andThen g := by
  induction d with
  | close outcome => cases outcome <;> rfl
  | ask call question next ih =>
    simp only [andThen]
    congr 1
    funext b
    exact ih b

theorem withFound_andThen (d : Dialogue σ (Option κ)) (missing : Failure) (f : κ → Dialogue σ α)
    (g : α → Dialogue σ β) :
    (d.withFound missing f).andThen g = d.withFound missing fun k => (f k).andThen g := by
  unfold withFound
  rw [andThen_assoc]
  congr 1
  funext found
  cases found <;> rfl

theorem hold_andThen (d : Dialogue σ α) (f : α → Dialogue σ β) (s : σ) :
    (d.andThen f).hold s =
      match (d.hold s).outcome with
      | .ok a => ((f a).hold (d.hold s).state).after (d.hold s).heard
      | .error e => ⟨(d.hold s).heard, .error e, (d.hold s).state⟩ := by
  induction d generalizing s with
  | close outcome => cases outcome <;> rfl
  | ask call question next ih =>
    simp only [andThen, hold]
    rcases perform question ⟨s, []⟩ with ⟨e | b, scene⟩
    · rfl
    · dsimp only
      rw [ih b scene.state]
      simp only [Course.after]
      cases ((next b).hold scene.state).outcome <;> rfl

theorem hold_andThen_ok {d : Dialogue σ α} {s : σ} {a : α} (h : (d.hold s).outcome = .ok a)
    (f : α → Dialogue σ β) :
    (d.andThen f).hold s = ((f a).hold (d.hold s).state).after (d.hold s).heard := by
  rw [hold_andThen, h]

theorem hold_andThen_error {d : Dialogue σ α} {s : σ} {e : Failure}
    (h : (d.hold s).outcome = .error e) (f : α → Dialogue σ β) :
    (d.andThen f).hold s = ⟨(d.hold s).heard, .error e, (d.hold s).state⟩ := by
  rw [hold_andThen, h]

theorem outcome_single (call : Call) (question : Query σ α) (s : σ) :
    ((single call question).hold s).outcome = (perform question ⟨s, []⟩).1 := by
  unfold single
  rcases hq : perform question ⟨s, []⟩ with ⟨e | a, scene⟩
  · rw [hold_ask_error hq]
  · rw [hold_ask_ok hq]
    rfl

/-- To make something of an answer, or to fail to, is no call. -/
theorem calls_andThen_close (f : α → Except Failure β) (d : Dialogue σ α) (s : σ) :
    ((d.andThen fun a => close (f a)).hold s).calls = (d.hold s).calls := by
  cases houtcome : (d.hold s).outcome with
  | error e =>
    rw [hold_andThen_error houtcome]
    rfl
  | ok a =>
    rw [hold_andThen_ok houtcome, Course.calls_after]
    exact List.append_nil _

theorem calls_map (f : α → β) (d : Dialogue σ α) (s : σ) :
    ((d.map f).hold s).calls = (d.hold s).calls := calls_andThen_close _ d s

/-- What follows does not come first. -/
theorem head?_andThen {d : Dialogue σ α} {s : σ} {call : Call}
    (h : (d.hold s).calls.head? = some call) (f : α → Dialogue σ β) :
    ((d.andThen f).hold s).calls.head? = some call := by
  cases houtcome : (d.hold s).outcome with
  | error e => rwa [hold_andThen_error houtcome]
  | ok a =>
    have hcalls : (d.hold s).heard.map Heard.call = (d.hold s).calls := rfl
    rw [hold_andThen_ok houtcome, Course.calls_after, List.head?_append, hcalls, h]
    rfl

/-- A call that fails is the last one, and its failure is what comes of the dialogue. -/
theorem stops (d : Dialogue σ α) (s : σ) (front : List Heard) (h : Heard) (back : List Heard)
    (e : Failure) (hheard : (d.hold s).heard = front ++ h :: back) (he : h.failure = some e) :
    back = [] ∧ (d.hold s).outcome = .error e := by
  induction d generalizing s front with
  | close outcome => exact absurd hheard (by simp [hold])
  | ask call question next ih =>
    rcases hq : perform question ⟨s, []⟩ with ⟨e' | b, scene⟩
    · rw [hold_ask_error hq] at hheard ⊢
      cases front with
      | nil =>
        obtain ⟨rfl, rfl⟩ := List.cons.inj hheard
        exact ⟨rfl, congrArg Except.error (Option.some.inj he)⟩
      | cons h' front => exact absurd hheard (by simp)
    · rw [hold_ask_ok hq] at hheard ⊢
      cases front with
      | nil =>
        obtain ⟨rfl, -⟩ := List.cons.inj hheard
        cases he
      | cons h' front => exact ih b scene.state front (List.cons.inj hheard).2

theorem unfailing_of_ok {d : Dialogue σ α} {s : σ} {a : α} (h : (d.hold s).outcome = .ok a) :
    (d.hold s).Unfailing := by
  intro x hx
  obtain ⟨front, back, hheard⟩ := List.append_of_mem hx
  cases he : x.failure with
  | none => rfl
  | some e =>
    rw [(d.stops s front x back e hheard he).2] at h
    cases h

/-! ## Plans -/

theorem follows_close (outcome : Except Failure α) (s : σ) :
    ((close outcome : Dialogue σ α).hold s).Follows [] where
  isPrefix := List.nil_prefix
  complete _ := rfl
  stops := stops _ s

theorem carriesOut_ok (a : α) (s : σ) : ((close (.ok a) : Dialogue σ α).hold s).CarriesOut [] where
  toFollows := follows_close _ s
  blames := by rintro _ ⟨⟩

theorem carriesOut_single (call : Call) (question : Query σ α) (s : σ) :
    ((single call question).hold s).CarriesOut [call] := by
  rcases hq : perform question ⟨s, []⟩ with ⟨e | a, scene⟩
  · have hhold : (single call question).hold s = ⟨[⟨call, some e⟩], .error e, scene.state⟩ :=
      hold_ask_error hq
    refine ⟨⟨?_, fun _ => ?_, stops _ s⟩, fun e' he => ?_⟩ <;> rw [hhold] at *
    · exact List.prefix_rfl
    · rfl
    · cases he
      exact ⟨_, List.mem_singleton.2 rfl, rfl⟩
  · have hhold : (single call question).hold s = ⟨[⟨call, none⟩], .ok a, scene.state⟩ :=
      hold_ask_ok hq
    refine ⟨⟨?_, fun _ => ?_, stops _ s⟩, fun e he => ?_⟩ <;> rw [hhold] at *
    · exact List.prefix_rfl
    · rfl
    · cases he

section andThen

variable {d : Dialogue σ α} {f : α → Dialogue σ β} {s : σ} {plan plan' : List Call}

/-- Two dialogues follow one plan after the other, if nothing but a call that fails stands in the way
of the second one. -/
theorem follows_andThen (hd : (d.hold s).CarriesOut plan)
    (hf : ∀ a, (d.hold s).outcome = .ok a → ((f a).hold (d.hold s).state).Follows plan') :
    ((d.andThen f).hold s).Follows (plan ++ plan') := by
  refine ⟨?_, fun hun => ?_, stops _ s⟩
  · cases ho : (d.hold s).outcome with
    | error e =>
      rw [hold_andThen_error ho]
      exact hd.isPrefix.trans (List.prefix_append _ _)
    | ok a =>
      have hcalls : (d.hold s).heard.map Heard.call = plan := hd.complete (unfailing_of_ok ho)
      rw [hold_andThen_ok ho, Course.calls_after, hcalls]
      exact (List.prefix_append_right_inj plan).2 (hf a ho).isPrefix
  · cases ho : (d.hold s).outcome with
    | error e =>
      rw [hold_andThen_error ho] at hun
      obtain ⟨h, hh, he⟩ := hd.blames e ho
      exact absurd (hun h hh) (by simp [he])
    | ok a =>
      have hcalls : (d.hold s).heard.map Heard.call = plan := hd.complete (unfailing_of_ok ho)
      rw [hold_andThen_ok ho] at hun ⊢
      rw [Course.calls_after, hcalls,
        (hf a ho).complete fun h hh => hun h (List.mem_append_right _ hh)]

theorem carriesOut_andThen (hd : (d.hold s).CarriesOut plan)
    (hf : ∀ a, (d.hold s).outcome = .ok a → ((f a).hold (d.hold s).state).CarriesOut plan') :
    ((d.andThen f).hold s).CarriesOut (plan ++ plan') := by
  refine ⟨follows_andThen hd fun a ha => (hf a ha).toFollows, fun e he => ?_⟩
  cases ho : (d.hold s).outcome with
  | error e' =>
    rw [hold_andThen_error ho] at he ⊢
    cases he
    exact hd.blames e ho
  | ok a =>
    rw [hold_andThen_ok ho] at he ⊢
    obtain ⟨h, hh, hfail⟩ := (hf a ho).blames e he
    exact ⟨h, List.mem_append_right _ hh, hfail⟩

theorem carriesOut_map (hd : (d.hold s).CarriesOut plan) (f : α → β) :
    ((d.map f).hold s).CarriesOut plan := by
  have h := carriesOut_andThen (f := fun a => close (.ok (f a))) hd fun a _ => carriesOut_ok (f a) _
  rwa [List.append_nil] at h

theorem heeds_of_carriesOut (hd : (d.hold s).CarriesOut plan) : (d.hold s).Heeds plan where
  isPrefix := hd.isPrefix
  complete _ h := hd.complete (unfailing_of_ok h)

theorem heeds_close (outcome : Except Failure α) (s : σ) :
    ((close outcome : Dialogue σ α).hold s).Heeds [] where
  isPrefix := List.nil_prefix
  complete _ _ := rfl

/-- Whatever stands in the way of the second one, two dialogues heed one plan after the other. -/
theorem heeds_andThen (hd : (d.hold s).Heeds plan)
    (hf : ∀ a, (d.hold s).outcome = .ok a → ((f a).hold (d.hold s).state).Heeds plan') :
    ((d.andThen f).hold s).Heeds (plan ++ plan') := by
  cases ho : (d.hold s).outcome with
  | error e =>
    rw [hold_andThen_error ho]
    exact ⟨hd.isPrefix.trans (List.prefix_append _ _), nofun⟩
  | ok a =>
    have hcalls : (d.hold s).heard.map Heard.call = plan := hd.complete a ho
    rw [hold_andThen_ok ho]
    refine ⟨?_, fun b hb => ?_⟩
    · rw [Course.calls_after, hcalls]
      exact (List.prefix_append_right_inj plan).2 (hf a ho).isPrefix
    · rw [Course.calls_after, hcalls, (hf a ho).complete b hb]

theorem heeds_map (hd : (d.hold s).Heeds plan) (f : α → β) : ((d.map f).hold s).Heeds plan := by
  have h := heeds_andThen (f := fun a => close (.ok (f a))) hd fun a _ => heeds_close _ _
  rwa [List.append_nil] at h

end andThen

section withFound

variable {d : Dialogue σ (Option κ)} {missing : Failure} {f : κ → Dialogue σ α} {s : σ}
  {plan : List Call} {next : κ → σ → List Call}

/-- The calls that follow on something that was found. -/
def foundPlan (d : Dialogue σ (Option κ)) (next : κ → σ → List Call) (s : σ) : List Call :=
  match (d.hold s).outcome with
  | .ok (some k) => next k (d.hold s).state
  | _ => []

/-- When something is found, nothing but a call that fails stands in the way of the plan. -/
theorem carriesOut_withFound (hd : (d.hold s).CarriesOut plan)
    (hf : ∀ k a, ((f k).hold a).CarriesOut (next k a)) (hfound : (d.hold s).outcome ≠ .ok none) :
    ((d.withFound missing f).hold s).CarriesOut (plan ++ d.foundPlan next s) := by
  refine carriesOut_andThen hd fun found ho => ?_
  unfold foundPlan
  rw [ho]
  cases found with
  | some k => exact hf k _
  | none => exact absurd ho hfound

theorem follows_withFound (hd : (d.hold s).CarriesOut plan)
    (hf : ∀ k a, ((f k).hold a).CarriesOut (next k a)) :
    ((d.withFound missing f).hold s).Follows (plan ++ d.foundPlan next s) := by
  refine follows_andThen hd fun found ho => ?_
  unfold foundPlan
  rw [ho]
  cases found with
  | some k => exact (hf k _).toFollows
  | none => exact follows_close _ _

theorem heeds_withFound (hd : (d.hold s).CarriesOut plan)
    (hf : ∀ k a, ((f k).hold a).Heeds (next k a)) :
    ((d.withFound missing f).hold s).Heeds (plan ++ d.foundPlan next s) := by
  refine heeds_andThen (heeds_of_carriesOut hd) fun found ho => ?_
  unfold foundPlan
  rw [ho]
  cases found with
  | some k => exact hf k _
  | none => exact heeds_close _ _

/-- When nothing is found, that is the end, after all calls that it took to find that out. -/
theorem hold_withFound_none (hd : (d.hold s).CarriesOut plan)
    (hnone : (d.hold s).outcome = .ok none) :
    ((d.withFound missing f).hold s).outcome = .error missing ∧
      ((d.withFound missing f).hold s).calls = plan := by
  unfold withFound
  rw [hold_andThen_ok hnone]
  refine ⟨rfl, ?_⟩
  rw [Course.calls_after]
  exact (List.append_nil _).trans (hd.complete (unfailing_of_ok hnone))

end withFound

end Dialogue

/-! ## Services -/

/-- Wherever a service starts, it makes the calls of a dialogue, comes to what comes of it, and leaves
the collaborators in the state behind it. -/
def Service.Holds (x : Service σ α) (d : Dialogue σ α) : Prop :=
  ∀ p, (perform x p).1 = (d.hold p.state).outcome ∧
    (perform x p).2.state = (d.hold p.state).state ∧
    (perform x p).2.calls = p.calls ++ (d.hold p.state).calls

namespace Service.Holds

theorem pure (a : α) : Service.Holds (pure a : Service σ α) (.close (.ok a)) := fun p =>
  ⟨rfl, rfl, (List.append_nil p.calls).symm⟩

theorem refuse (r : Refusal) :
    Service.Holds (Service.refuse r : Service σ α) (.close (.error (.refusal r))) := fun p =>
  ⟨rfl, rfl, (List.append_nil p.calls).symm⟩

theorem ofExcept (outcome : Except Failure α) :
    Service.Holds (Service.ofExcept outcome : Service σ α) (.close outcome) := fun p => by
  rw [perform_ofExcept]
  exact ⟨rfl, rfl, (List.append_nil p.calls).symm⟩

theorem report (level : Level) (logger message : String) :
    Service.Holds (Service.report level logger message : Service σ Unit) (.close (.ok ())) :=
  fun p => by
    rw [perform_report]
    exact ⟨rfl, Progress.state_report _ p, by
      rw [Progress.calls_report]; exact (List.append_nil p.calls).symm⟩

theorem ask (call : Call) (question : Query σ α) :
    Service.Holds (Service.ask call question) (.single call question) := fun p => by
  rw [perform_ask]
  simp only [Progress.state_report, Progress.calls_report, Dialogue.single, Dialogue.hold]
  rcases perform question ⟨p.state, []⟩ with ⟨e | a, scene⟩ <;> exact ⟨rfl, rfl, rfl⟩

theorem bind {x : Service σ α} {f : α → Service σ β} {d : Dialogue σ α} {g : α → Dialogue σ β}
    (hx : x.Holds d) (hf : ∀ a, (f a).Holds (g a)) : (x >>= f).Holds (d.andThen g) := by
  intro p
  obtain ⟨houtcome, hstate, hcalls⟩ := hx p
  rw [perform_bind]
  rcases hp : perform x p with ⟨e | a, q⟩ <;> rw [hp] at houtcome hstate hcalls
  · rw [Dialogue.hold_andThen_error houtcome.symm]
    exact ⟨rfl, hstate, hcalls⟩
  · obtain ⟨houtcome', hstate', hcalls'⟩ := hf a q
    rw [Dialogue.hold_andThen_ok houtcome.symm]
    dsimp only at hstate hcalls ⊢
    rw [hstate] at houtcome' hstate' hcalls'
    refine ⟨houtcome', hstate', ?_⟩
    rw [hcalls', hcalls, Course.calls_after, List.append_assoc]
    rfl

/-- To report something is no call. -/
theorem report_bind {level : Level} {logger message : String} {f : Unit → Service σ α}
    {d : Dialogue σ α} (h : (f ()).Holds d) :
    (Service.report level logger message >>= f).Holds d :=
  (report level logger message).bind (g := fun _ => d) fun _ => h

/-- To look at the clock is no call. -/
theorem elapsed_bind {f : Nat → Service σ α} {d : Dialogue σ α} (h : ∀ n, (f n).Holds d) :
    (Service.elapsed >>= f).Holds d := fun p => h (p.delays 0) _

end Service.Holds

/-! ## Where collaborators are found -/

namespace Source

/-- To find a collaborator is to ask for it, unless it is always the same. -/
def dialogue (source : Source σ κ α) (call : κ → Call) (key : κ) : Dialogue σ (Option α) :=
  match source with
  | .fixed collaborator => .close (.ok collaborator)
  | .lookup find => .single (call key) (find key)

/-- The call by which a collaborator is found, if it is not always the same. -/
def calls (source : Source σ κ α) (call : Call) : List Call :=
  match source with
  | .fixed _ => []
  | .lookup _ => [call]

theorem holds_resolve (source : Source σ κ α) (call : κ → Call) (key : κ) :
    (source.resolve call key).Holds (source.dialogue call key) := by
  cases source with
  | fixed collaborator => exact .pure collaborator
  | lookup find => exact .ask (call key) (find key)

theorem carriesOut_dialogue (source : Source σ κ α) (call : κ → Call) (key : κ) (s : σ) :
    ((source.dialogue call key).hold s).CarriesOut (source.calls (call key)) := by
  cases source with
  | fixed collaborator => exact Dialogue.carriesOut_ok _ s
  | lookup find => exact Dialogue.carriesOut_single _ _ s

end Source

end GitLfs
