import GitLfs.Proofs.Dialogue

/-!
# Dialogues that differ in defects only

A client may tell refusals apart, but not defects. Two runs are alike when they end with results that
are related, with the same refusal, or with defects of any kind, and leave states that are related.
Collaborators that do so about every question can be exchanged for one another: `Dialogue.Alike.andThen`
carries the relation on from what was answered, and a defect ends both dialogues at the same call.

The two runs have states of their own, and any relation of states will do.
-/

namespace GitLfs

variable {σ τ κ α β γ δ : Type} {S : σ → τ → Prop} {R : α → β → Prop} {Q : γ → δ → Prop}

/-- Failures that are the same refusal, or defects of any kind. -/
inductive Failure.Alike : Failure → Failure → Prop where
  | refusal (r : Refusal) : Alike (.refusal r) (.refusal r)
  | defect (d d' : Defect) : Alike (.defect d) (.defect d')

theorem Failure.Alike.refl (e : Failure) : e.Alike e := by
  cases e with
  | refusal r => exact .refusal r
  | defect d => exact .defect d d

/-- Related results, or failures that are alike. -/
inductive OutcomesAlike (R : α → β → Prop) : Except Failure α → Except Failure β → Prop where
  | ok {a : α} {b : β} (h : R a b) : OutcomesAlike R (.ok a) (.ok b)
  | error {e e' : Failure} (h : e.Alike e') : OutcomesAlike R (.error e) (.error e')

theorem OutcomesAlike.refl (outcome : Except Failure α) : OutcomesAlike Eq outcome outcome := by
  cases outcome with
  | ok a => exact .ok rfl
  | error e => exact .error (.refl e)

/-- Asked in states that are related, two questions have outcomes that are alike, and leave states that
are related. What they report does not matter. -/
def Query.Alike (S : σ → τ → Prop) (R : α → β → Prop) (q : Query σ α) (q' : Query τ β) : Prop :=
  ∀ s t, S s t →
    OutcomesAlike R (perform q ⟨s, []⟩).1 (perform q' ⟨t, []⟩).1 ∧
      S (perform q ⟨s, []⟩).2.state (perform q' ⟨t, []⟩).2.state

/-- The outcomes of two courses are alike, and the states behind them are related. -/
structure Course.Alike (S : σ → τ → Prop) (R : α → β → Prop) (c : Course σ α) (c' : Course τ β) :
    Prop where
  outcome : OutcomesAlike R c.outcome c'.outcome
  state : S c.state c'.state

/-- Held in states that are related, two dialogues take courses that are alike. -/
def Dialogue.Alike (S : σ → τ → Prop) (R : α → β → Prop) (d : Dialogue σ α) (d' : Dialogue τ β) :
    Prop :=
  ∀ s t, S s t → Course.Alike S R (d.hold s) (d'.hold t)

namespace Dialogue

theorem hold_single (call : Call) (question : Query σ α) (s : σ) :
    ((single call question).hold s).outcome = (perform question ⟨s, []⟩).1 ∧
      ((single call question).hold s).state = (perform question ⟨s, []⟩).2.state := by
  refine ⟨outcome_single call question s, ?_⟩
  unfold single
  rcases hq : perform question ⟨s, []⟩ with ⟨e | a, scene⟩
  · rw [hold_ask_error hq]
  · rw [hold_ask_ok hq]
    rfl

namespace Alike

theorem close {outcome : Except Failure α} {outcome' : Except Failure β}
    (h : OutcomesAlike R outcome outcome') :
    Alike S R (Dialogue.close outcome : Dialogue σ α) (Dialogue.close outcome' : Dialogue τ β) :=
  fun _ _ hst => ⟨h, hst⟩

/-- Nothing more is asked, and both come to one result. -/
theorem done (a : α) : Alike S Eq (Dialogue.close (.ok a) : Dialogue σ α)
    (Dialogue.close (.ok a) : Dialogue τ α) := close (.ok rfl)

theorem single {q : Query σ α} {q' : Query τ β} (h : Query.Alike S R q q') (call : Call) :
    Alike S R (Dialogue.single call q) (Dialogue.single call q') := by
  intro s t hst
  obtain ⟨houtcome, hstate⟩ := h s t hst
  obtain ⟨ho, hs⟩ := hold_single call q s
  obtain ⟨ho', hs'⟩ := hold_single call q' t
  rw [← ho, ← ho'] at houtcome
  rw [← hs, ← hs'] at hstate
  exact ⟨houtcome, hstate⟩

/-- Dialogues that are alike go on alike, whatever was answered. -/
theorem andThen {d : Dialogue σ α} {d' : Dialogue τ β} {f : α → Dialogue σ γ}
    {f' : β → Dialogue τ δ} (hd : Alike S R d d') (hf : ∀ a b, R a b → Alike S Q (f a) (f' b)) :
    Alike S Q (d.andThen f) (d'.andThen f') := by
  intro s t hst
  obtain ⟨houtcome, hstate⟩ := hd s t hst
  rw [hold_andThen, hold_andThen]
  generalize (d.hold s).outcome = outcome at houtcome ⊢
  generalize (d'.hold t).outcome = outcome' at houtcome ⊢
  cases houtcome with
  | ok hab =>
    obtain ⟨houtcome', hstate'⟩ := hf _ _ hab _ _ hstate
    exact ⟨houtcome', hstate'⟩
  | error he => exact ⟨.error he, hstate⟩

theorem map {d : Dialogue σ α} {d' : Dialogue τ β} {f : α → γ} {f' : β → δ} (hd : Alike S R d d')
    (hf : ∀ a b, R a b → Q (f a) (f' b)) : Alike S Q (d.map f) (d'.map f') :=
  hd.andThen fun a b hab => close (.ok (hf a b hab))

/-- One result is made into one result. -/
theorem map_eq {d : Dialogue σ α} {d' : Dialogue τ α} (hd : Alike S Eq d d') (f : α → γ) :
    Alike S Eq (d.map f) (d'.map f) := hd.map fun _ _ hab => congrArg f hab

theorem withFound {d : Dialogue σ (Option α)} {d' : Dialogue τ (Option β)} {missing : Failure}
    {f : α → Dialogue σ γ} {f' : β → Dialogue τ δ} (hd : Alike S (Option.Rel R) d d')
    (hf : ∀ a b, R a b → Alike S Q (f a) (f' b)) :
    Alike S Q (d.withFound missing f) (d'.withFound missing f') := by
  refine hd.andThen fun found found' hfound => ?_
  cases hfound with
  | some hab => exact hf _ _ hab
  | none => exact close (.error (.refl missing))

end Alike

end Dialogue

/-! ## Where collaborators are found -/

/-- Collaborators that are found in the same way and are related. -/
inductive Source.Alike (S : σ → τ → Prop) (R : α → β → Prop) : Source σ κ α → Source τ κ β → Prop where
  | fixed {collaborator : Option α} {collaborator' : Option β}
      (h : Option.Rel R collaborator collaborator') :
      Alike S R (.fixed collaborator) (.fixed collaborator')
  | lookup {find : κ → Query σ (Option α)} {find' : κ → Query τ (Option β)}
      (h : ∀ key, Query.Alike S (Option.Rel R) (find key) (find' key)) :
      Alike S R (.lookup find) (.lookup find')

theorem Source.Alike.dialogue {source : Source σ κ α} {source' : Source τ κ β}
    (h : source.Alike S R source') (call : κ → Call) (key : κ) :
    Dialogue.Alike S (Option.Rel R) (source.dialogue call key) (source'.dialogue call key) := by
  cases h with
  | fixed h => exact .close (.ok h)
  | lookup h => exact .single (h key) (call key)

/-! ## Defects in other words -/

section reword

variable (f : Defect → Defect)

/-- A failure whose defect is told in other words. -/
def Failure.reword : Failure → Failure
  | .refusal r => .refusal r
  | .defect d => .defect (f d)

theorem Failure.alike_reword (e : Failure) : e.Alike (e.reword f) := by
  cases e with
  | refusal r => exact .refusal r
  | defect d => exact .defect d (f d)

/-- A question whose defects are told in other words. -/
def Query.reword (q : Query σ α) : Query σ α := fun scene =>
  let (outcome, scene) := q.run.run scene
  (outcome.mapError (Failure.reword f), scene)

theorem Query.perform_reword (q : Query σ α) (scene : Scene σ) :
    perform (q.reword f) scene =
      ((perform q scene).1.mapError (Failure.reword f), (perform q scene).2) := rfl

theorem Query.alike_reword (q : Query σ α) : Query.Alike Eq Eq q (q.reword f) := by
  rintro s _ rfl
  rw [perform_reword]
  refine ⟨?_, rfl⟩
  rcases perform q ⟨s, []⟩ with ⟨e | a, scene⟩
  · exact .error (e.alike_reword f)
  · exact .ok rfl

/-- A source that finds a collaborator made from the one that it would have found, and whose defects
are told in other words. -/
def Source.reword (g : α → α) : Source σ κ α → Source σ κ α
  | .fixed collaborator => .fixed (collaborator.map g)
  | .lookup find => .lookup fun key => (Option.map g <$> find key : Query σ (Option α)).reword f

theorem Source.alike_reword {g : α → α} {R : α → α → Prop} (h : ∀ a, R a (g a))
    (source : Source σ κ α) : source.Alike Eq R (source.reword f g) := by
  have hmap : ∀ found : Option α, Option.Rel R found (found.map g) := by
    intro found
    cases found with
    | none => exact .none
    | some a => exact .some (h a)
  cases source with
  | fixed collaborator => exact .fixed (hmap collaborator)
  | lookup find =>
    refine .lookup fun key => ?_
    rintro s _ rfl
    rw [Query.perform_reword, perform_map]
    rcases perform (find key) ⟨s, []⟩ with ⟨e | found, scene⟩
    · exact ⟨.error (e.alike_reword f), rfl⟩
    · exact ⟨.ok (hmap found), rfl⟩

end reword

end GitLfs
