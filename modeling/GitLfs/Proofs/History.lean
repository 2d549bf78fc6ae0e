/-!
# Histories

A machine answers one input after the other and changes its state on the way. Its history says for
each input what the answer was, and what the state was before and after.

`history_invariant`: what holds at the start, and is kept by each turn of a history in front of which
it holds, holds in front of each turn and at the end.
-/

namespace GitLfs

/-- An input, the answer to it, and the states before and after. -/
structure Turn (σ ι ρ : Type) where
  before : σ
  input : ι
  answer : ρ
  after : σ

variable {σ ι ρ : Type} (step : ι → σ → ρ × σ)

/-- The turn in which a machine answers an input. -/
def turn (s : σ) (i : ι) : Turn σ ι ρ := ⟨s, i, (step i s).1, (step i s).2⟩

/-- The turns in which a machine answers its inputs. -/
def history (s : σ) : List ι → List (Turn σ ι ρ)
  | [] => []
  | i :: inputs => turn step s i :: history (step i s).2 inputs

/-- The state of a machine when it has answered its inputs. -/
def final (s : σ) : List ι → σ
  | [] => s
  | i :: inputs => final (step i s).2 inputs

theorem history_append (s : σ) (inputs more : List ι) :
    history step s (inputs ++ more) =
      history step s inputs ++ history step (final step s inputs) more := by
  induction inputs generalizing s with
  | nil => rfl
  | cons i inputs ih => simp only [List.cons_append, history, final, ih]

theorem final_append (s : σ) (inputs more : List ι) :
    final step s (inputs ++ more) = final step (final step s inputs) more := by
  induction inputs generalizing s with
  | nil => rfl
  | cons i inputs ih => exact ih (step i s).2

variable {step}

/-- Each turn of a history answers one of the inputs, in the state that those before it led to. -/
theorem exists_of_mem_history {s : σ} {inputs : List ι} {t : Turn σ ι ρ}
    (ht : t ∈ history step s inputs) :
    ∃ front back, inputs = front ++ t.input :: back ∧
      t = turn step (final step s front) t.input := by
  induction inputs generalizing s with
  | nil => cases ht
  | cons i inputs ih =>
    rcases List.mem_cons.1 ht with rfl | ht
    · exact ⟨[], inputs, rfl, rfl⟩
    · obtain ⟨front, back, hi, he⟩ := ih ht
      exact ⟨i :: front, back, by rw [hi]; rfl, he⟩

theorem eq_turn_of_mem_history {s : σ} {inputs : List ι} {t : Turn σ ι ρ}
    (ht : t ∈ history step s inputs) : t = turn step t.before t.input := by
  obtain ⟨front, back, -, he⟩ := exists_of_mem_history ht
  rw [he]
  rfl

theorem history_invariant {I : σ → Prop} {s : σ} {inputs : List ι} (hs : I s)
    (hstep : ∀ t ∈ history step s inputs, I t.before → I t.after) :
    (∀ t ∈ history step s inputs, I t.before) ∧ I (final step s inputs) := by
  induction inputs generalizing s with
  | nil => exact ⟨fun t ht => (List.not_mem_nil ht).elim, hs⟩
  | cons i inputs ih =>
    have hnext : I (step i s).2 := hstep _ List.mem_cons_self hs
    have h := ih hnext fun t ht => hstep t (List.mem_cons_of_mem _ ht)
    refine ⟨fun t ht => ?_, h.2⟩
    rcases List.mem_cons.1 ht with rfl | ht
    · exact hs
    · exact h.1 t ht

end GitLfs
