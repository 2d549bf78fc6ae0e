import GitLfs.Proofs.Effect

/-!
# What is added to the log

Whatever a service does, it adds records to the log, all of them at the end and all of them of the
request that is being answered. `Progress.Logged P p q` says so of two points of a run, and that the
records are of events with the property `P`; `Service.Logs P x` says so of all runs of `x`. What a
collaborator reports becomes records too: `Query.Reports P`.
-/

namespace GitLfs

variable {σ τ κ α β : Type} {P : Event → Prop}

theorem Log.entries_append (level : Level) (id : Option String) (events more : List Event) :
    Log.entries level id (events ++ more) =
      Log.entries level id events ++ Log.entries level id more := by
  unfold Log.entries
  rw [List.filter_append, List.map_append]

/-- What a level lets through of the records of all events. -/
theorem Log.entries_eq (level : Level) (id : Option String) (events : List Event) :
    Log.entries level id events =
      (events.map fun e => { e with requestId := Log.stamp id }).filter
        fun r : Record => level.admits r.level := by
  unfold Log.entries
  rw [List.filter_map]
  rfl

namespace Progress

variable {p q s : Progress σ}

/-! ## From one point of a run to another -/

/-- Between two points of a run nothing but events with a property has been logged, as records of the
request that is being answered. -/
structure Logged (P : Event → Prop) (p q : Progress σ) : Prop where
  requestId : q.requestId = p.requestId
  level : q.level = p.level
  records : ∃ events, (∀ e ∈ events, P e) ∧
    q.records = p.records ++ Log.entries p.level p.requestId events

namespace Logged

theorem refl (p : Progress σ) : p.Logged P p :=
  ⟨rfl, rfl, [], fun _ h => (List.not_mem_nil h).elim, (List.append_nil _).symm⟩

theorem trans (h : p.Logged P q) (h' : q.Logged P s) : p.Logged P s := by
  obtain ⟨events, hevents, hrecords⟩ := h.records
  obtain ⟨more, hmore, hrecords'⟩ := h'.records
  refine ⟨h'.requestId.trans h.requestId, h'.level.trans h.level, events ++ more, ?_, ?_⟩
  · intro e he
    exact (List.mem_append.1 he).elim (hevents e) (hmore e)
  · rw [hrecords', hrecords, h.level, h.requestId, Log.entries_append, List.append_assoc]

theorem report {events : List Event} (h : ∀ e ∈ events, P e) (p : Progress σ) :
    p.Logged P (p.report events) := by
  rw [report_eq]
  exact ⟨rfl, rfl, events, h, rfl⟩

end Logged

end Progress

/-! ## Collaborators -/

/-- Whatever comes of a question, the events that are reported meanwhile have a property. -/
def Query.Reports (P : Event → Prop) (q : Query σ α) : Prop :=
  ∀ scene : Scene σ, (∀ e ∈ scene.events, P e) → ∀ e ∈ (perform q scene).2.events, P e

namespace Query.Reports

theorem pure (a : α) : Query.Reports P (pure a : Query σ α) := fun _ h => h

theorem throw (e : Failure) : Query.Reports P (throw e : Query σ α) := fun _ h => h

theorem state : Query.Reports P (Query.state : Query σ σ) := fun _ h => h

theorem setState (s : σ) : Query.Reports P (Query.setState s) := fun _ h => h

theorem ofExcept (x : Except Failure α) : Query.Reports P (Query.ofExcept x : Query σ α) := by
  cases x with
  | ok a => exact .pure a
  | error e => exact .throw e

theorem report {e : Event} (h : P e) : Query.Reports P (Query.report e : Query σ Unit) := by
  intro scene hscene e' he'
  rw [perform_report] at he'
  rcases List.mem_append.1 he' with he' | he'
  · exact hscene e' he'
  · rw [List.mem_singleton.1 he']
    exact h

theorem bind {q : Query σ α} {f : α → Query σ β} (hq : Query.Reports P q)
    (hf : ∀ a, Query.Reports P (f a)) : Query.Reports P (q >>= f) := by
  intro scene hscene
  have hevents := hq scene hscene
  rw [perform_bind]
  rcases hperform : perform q scene with ⟨e | a, scene'⟩ <;> rw [hperform] at hevents
  · exact hevents
  · exact hf a scene' hevents

/-- To ask about a part of the state is to report the same. -/
theorem focus {part : σ → τ} {update : τ → σ → σ} {q : Query τ α} (hq : Query.Reports P q) :
    Query.Reports P (q.focus part update) := by
  intro scene hscene
  rw [perform_focus]
  exact hq ⟨part scene.state, scene.events⟩ hscene

end Query.Reports

/-- Whatever is reported is something. -/
theorem Query.reports_true (q : Query σ α) : q.Reports fun _ => True := fun _ _ _ _ => trivial

/-- Nothing but events with a property is reported when a collaborator is looked up, and what is found
has a property. -/
def Source.Reports (P : Event → Prop) (Q : α → Prop) : Source σ κ α → Prop
  | .fixed collaborator => ∀ a ∈ collaborator, Q a
  | .lookup find => ∀ key, (find key).Reports P ∧
      ∀ s a, (perform (find key) ⟨s, []⟩).1 = .ok (some a) → Q a

theorem Source.reports_true {Q : α → Prop} (source : Source σ κ α) (hQ : ∀ a, Q a) :
    source.Reports (fun _ => True) Q := by
  cases source with
  | fixed collaborator => exact fun a _ => hQ a
  | lookup find => exact fun key => ⟨(find key).reports_true, fun _ a _ => hQ a⟩

/-! ## Services -/

/-- Whatever comes of what a service does, it logs nothing but events with a property. -/
def Service.Logs (P : Event → Prop) (x : Service σ α) : Prop :=
  ∀ p : Progress σ, p.Logged P (perform x p).2

namespace Service.Logs

theorem pure (a : α) : Service.Logs P (pure a : Service σ α) := fun p => .refl p

theorem throw (e : Failure) : Service.Logs P (throw e : Service σ α) := fun p => .refl p

/-- What comes after a failure is not done. -/
theorem throw_bind (e : Failure) (f : α → Service σ β) :
    Service.Logs P ((MonadExcept.throw e : Service σ α) >>= f) := fun p => by
  rw [perform_bind, perform_throw]
  exact .refl p

theorem ofExcept (x : Except Failure α) : Service.Logs P (Service.ofExcept x : Service σ α) := by
  cases x with
  | ok a => exact .pure a
  | error e => exact .throw e

/-- To look at the clock is to log nothing. -/
theorem elapsed : Service.Logs P (Service.elapsed : Service σ Nat) := fun p =>
  ⟨rfl, rfl, [], fun _ h => (List.not_mem_nil h).elim, (List.append_nil p.records).symm⟩

theorem report {level : Level} {name message : String}
    (h : P ⟨level, Log.logger name, message⟩) :
    Service.Logs P (Service.report level name message : Service σ Unit) := fun p => by
  rw [perform_report]
  exact .report (List.forall_mem_singleton.2 h) p

theorem ask (call : Call) {q : Query σ α} (hq : q.Reports P) :
    Service.Logs P (Service.ask call q) := fun p => by
  rw [perform_ask, Progress.report_eq]
  exact ⟨rfl, rfl, _, hq _ fun _ h => (List.not_mem_nil h).elim, rfl⟩

theorem bind {x : Service σ α} {f : α → Service σ β} (hx : Service.Logs P x)
    (hf : ∀ a, Service.Logs P (f a)) : Service.Logs P (x >>= f) := by
  intro p
  have hp := hx p
  rw [perform_bind]
  rcases hperform : perform x p with ⟨e | a, q⟩ <;> rw [hperform] at hp
  · exact hp
  · exact hp.trans (hf a q)

theorem map {x : Service σ α} (hx : Service.Logs P x) (f : α → β) : Service.Logs P (f <$> x) := by
  rw [map_eq_pure_bind]
  exact hx.bind fun a => .pure (f a)

/-- What is done with a collaborator that is found, or without one. -/
theorem resolve_bind {Q : α → Prop} {source : Source σ κ α} (h : source.Reports P Q)
    (call : κ → Call) (key : κ) {f : Option α → Service σ β} (hnone : Service.Logs P (f none))
    (hsome : ∀ a, Q a → Service.Logs P (f (some a))) :
    Service.Logs P (source.resolve call key >>= f) := by
  cases source with
  | fixed collaborator =>
    cases collaborator with
    | none => exact hnone
    | some a => exact hsome a (h a rfl)
  | lookup find =>
    obtain ⟨hreports, hfound⟩ := h key
    intro p
    have hp := Service.Logs.ask (call key) hreports p
    have hanswer : (perform (Service.ask (call key) (find key)) p).1 =
      (perform (find key) ⟨p.state, []⟩).1 := rfl
    rw [Source.resolve, perform_bind]
    rcases hperform : perform (Service.ask (call key) (find key)) p with ⟨e | found, q⟩ <;>
      rw [hperform] at hp hanswer
    · exact hp
    · cases found with
      | none => exact hp.trans (hnone q)
      | some a => exact hp.trans (hsome a (hfound _ a hanswer.symm) q)

end Service.Logs

end GitLfs
