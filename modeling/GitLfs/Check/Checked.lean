import GitLfs.Check.Fault

/-!
# Checks that find every fault

A checked value is the value, or all its faults in the order in which its parts are declared. Checks
of several parts are put together so that each part is looked at, whatever the others say.

`faults_seq`: the faults of two checks together are those of the first and then those of the second.
-/

namespace GitLfs

/-- The outcome of a check. -/
inductive Checked (α : Type) where
  | passed (value : α)
  | failed (first : Fault) (others : List Fault)
  deriving DecidableEq, Repr

namespace Checked

variable {α β : Type}

/-- A check that fails at the value itself. -/
def fail (cause : Cause) : Checked α := .failed ⟨[], cause⟩ []

/-- The faults that were found. -/
def faults : Checked α → List Fault
  | .passed _ => []
  | .failed first others => first :: others

/-- The value, when no fault was found. -/
def value? : Checked α → Option α
  | .passed a => some a
  | .failed _ _ => none

/-- A function on the value that passed. -/
def map (f : α → β) : Checked α → Checked β
  | .passed a => .passed (f a)
  | .failed first others => .failed first others

/-- Two checks, each made whatever the other says. -/
def seq (f : Checked (α → β)) (x : Unit → Checked α) : Checked β :=
  match f, x () with
  | .passed f, .passed a => .passed (f a)
  | .passed _, .failed first others => .failed first others
  | .failed first others, .passed _ => .failed first others
  | .failed first others, .failed first' others' => .failed first (others ++ first' :: others')

instance : Applicative Checked where
  pure := .passed
  map := map
  seq := seq

/-- A further check of a value that passed. -/
def andThen (x : Checked α) (next : α → Checked β) : Checked β :=
  match x with
  | .passed a => next a
  | .failed first others => .failed first others

/-- The check of a part, with its faults seen from the whole. -/
def under (step : Step) : Checked α → Checked α
  | .passed a => .passed a
  | .failed first others => .failed (first.under step) (others.map (Fault.under step))

/-- The checks of the items of a list, counted from `index`. -/
def items (check : α → Checked β) (index : Nat) : List α → Checked (List β)
  | [] => .passed []
  | a :: rest => List.cons <$> (check a).under (.item index) <*> items check (index + 1) rest

theorem faults_map (f : α → β) (x : Checked α) : (f <$> x).faults = x.faults := by
  cases x <;> rfl

theorem faults_seq (f : Checked (α → β)) (x : Checked α) :
    (f <*> x).faults = f.faults ++ x.faults := by
  cases f <;> cases x <;> simp [Seq.seq, seq, faults]

theorem value?_seq (f : Checked (α → β)) (x : Checked α) :
    (f <*> x).value? = f.value?.bind fun g => x.value?.map g := by
  cases f <;> cases x <;> rfl

theorem faults_under (step : Step) (x : Checked α) :
    (x.under step).faults = x.faults.map (Fault.under step) := by
  cases x <;> rfl

theorem faults_eq_nil_iff {x : Checked α} : x.faults = [] ↔ ∃ a, x = .passed a := by
  cases x <;> simp [faults]

end Checked

end GitLfs
