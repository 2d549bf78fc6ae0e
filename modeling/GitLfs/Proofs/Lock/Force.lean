import GitLfs.Proofs.Lock.Custody

/-!
# Force is for administrators

A request to release a lock may ask for force. Whether it does makes no difference on the way to the
lock keeper (`step_eq_of_not_admits`), nor does it for someone who is no administrator once the request
is let in (`step_of_stranger`). `force_is_for_administrators` adds what force does for those who are.
All this holds whatever identifiers the registry has drawn.
-/

namespace GitLfs.Locking

variable {σ : Type} {s : Locking σ} {r : Registry} {part : σ → RegistryState}
  {update : RegistryState → σ → σ} {p : Progress σ} {lockId : String} {ref : Option Ref}
  {user path : Option String}

/-- The user is one of those who may release any lock. -/
def Administers (r : Registry) (user : Option String) : Prop :=
  ∃ name ∈ r.administrators, user = some name

theorem isAdministrator_eq_true_iff : r.isAdministrator user = true ↔ Administers r user := by
  unfold Registry.isAdministrator Administers
  cases user with
  | none => simp
  | some name => simp

/-- A request that is not let in fails in the same way with force and without. -/
theorem step_eq_of_not_admits {force : Bool}
    (ha : ¬ s.Admits (.release lockId ⟨force, ref⟩ user path) p) (force' : Bool) :
    s.step (.release lockId ⟨force', ref⟩ user path) p =
      s.step (.release lockId ⟨force, ref⟩ user path) p := by
  have hentrance : (Task.release lockId ⟨force', ref⟩ user path).entrance s =
      (Task.release lockId ⟨force, ref⟩ user path).entrance s := rfl
  rw [step, step, serve_eq, serve_eq, perform_bind, perform_bind, hentrance]
  rcases hp : perform ((Task.release lockId ⟨force, ref⟩ user path).entrance s) p with ⟨e | keeper, q⟩
  · rfl
  · exact absurd ⟨keeper, by rw [hp]⟩ ha

/-- Someone who is no administrator gets with force what there is without. -/
theorem step_of_stranger (h : s.Over r part update) (huser : ¬ Administers r user) :
    (s.step (.release lockId ⟨true, ref⟩ user path) p).1 =
        (s.step (.release lockId ⟨false, ref⟩ user path) p).1 ∧
      part (s.step (.release lockId ⟨true, ref⟩ user path) p).2.state =
        part (s.step (.release lockId ⟨false, ref⟩ user path) p).2.state := by
  by_cases ha : s.Admits (.release lockId ⟨false, ref⟩ user path) p
  · have hadmits : s.Admits (.release lockId ⟨true, ref⟩ user path) p := ha
    have hno : r.isAdministrator user = false :=
      Bool.eq_false_iff.2 fun hyes => huser (isAdministrator_eq_true_iff.1 hyes)
    have htask : (Task.release lockId ⟨true, ref⟩ user path).onRegistry r =
        (Task.release lockId ⟨false, ref⟩ user path).onRegistry r := by
      simp only [Task.onRegistry, hno, Bool.and_false]
    have hreply : (Task.release lockId ⟨true, ref⟩ user path).reply =
        (Task.release lockId ⟨false, ref⟩ user path).reply := by
      funext x
      cases x <;> rfl
    obtain ⟨hforced, hforced'⟩ := step_of_admits h hadmits
    obtain ⟨hplain, hplain'⟩ := step_of_admits h ha
    rw [hforced, hforced', hplain, hplain', htask, hreply]
    exact ⟨rfl, rfl⟩
  · rw [step_eq_of_not_admits ha true]
    exact ⟨rfl, rfl⟩

/-- A request that is let in releases the lock with its identifier, if this is the user's or the user is
an administrator and asks for force. -/
theorem releases_iff (h : s.Over r part update) (hs : (part p.state).table.Indexed) {force : Bool}
    (ha : s.Admits (.release lockId ⟨force, ref⟩ user path) p) {reply : Reply} {after : RegistryState} :
    ((s.step (.release lockId ⟨force, ref⟩ user path) p).1 = .ok reply ∧
        part (s.step (.release lockId ⟨force, ref⟩ user path) p).2.state = after) ↔
      ∃ l ∈ activeIn part p, l.id = lockId ∧
        ((force = true ∧ Administers r user) ∨ l.ownerName = user) ∧ reply = .released l ∧
        after = { part p.state with table := (part p.state).table.remove l } := by
  obtain ⟨hanswer, hstate⟩ := step_of_admits h ha
  have hcounts : (force && r.isAdministrator user) = true ↔ force = true ∧ Administers r user := by
    rw [Bool.and_eq_true, isAdministrator_eq_true_iff]
  unfold activeIn
  rw [hanswer, hstate, Task.onRegistry, Registry.answer_delete hs]
  dsimp only
  generalize (force && r.isAdministrator user) = counts at hcounts ⊢
  constructor
  · rintro ⟨hok, rfl⟩
    cases hl : (part p.state).table.locks.get? lockId with
    | none =>
      rw [hl] at hok
      cases hok
    | some lock =>
      rw [hl] at hok
      dsimp only at hok
      split at hok
      · cases hok
      · next hf =>
        cases hok
        obtain rfl := hs.id_eq lockId lock hl
        refine ⟨lock, hs.mem_active_iff.2 hl, rfl, ?_, rfl, ?_⟩
        · rw [← hcounts]
          by_cases hforce : counts = true
          · exact .inl hforce
          · exact .inr (by simpa [hforce] using hf)
        · dsimp only
          rw [if_neg hf]
  · rintro ⟨l, hl, rfl, hentitled, rfl, rfl⟩
    have hf : ¬ (counts = false ∧ l.ownerName ≠ user) := by
      rintro ⟨hcounts', howner⟩
      rcases hentitled with hforce | hown
      · rw [hcounts.2 hforce] at hcounts'
        cases hcounts'
      · exact howner hown
    rw [hs.mem_active_iff.1 hl]
    dsimp only
    rw [if_neg hf]
    exact ⟨rfl, rfl⟩

/-- What force does to a request to release a lock, in a registry after any tasks.

Whoever is no administrator gets with force the answer that there is without, and leaves the registry as
without, so force tells nothing about the locks of others. An administrator who is let in releases with
force what is active and nothing else; what an administrator releases without force is released with
force as well, and leaves the same registry. -/
theorem force_is_for_administrators (s : Locking σ) (r : Registry) (part : σ → RegistryState)
    (update : RegistryState → σ → σ) (h : s.Over r part update) (earlier : List Registry.Task)
    (p : Progress σ) (hstate : part p.state = final r.answer .empty earlier) (id : String)
    (ref : Option Ref) (user path : Option String) :
    let bid := fun force => s.step (.release id ⟨force, ref⟩ user path) p
    (¬ Administers r user →
      (bid true).1 = (bid false).1 ∧ part (bid true).2.state = part (bid false).2.state) ∧
    (Administers r user →
      (s.Admits (.release id ⟨true, ref⟩ user path) p → ∀ reply, (bid true).1 = .ok reply ↔
        ∃ l ∈ activeIn part p, l.id = id ∧ reply = .released l) ∧
      ∀ reply, (bid false).1 = .ok reply →
        (bid true).1 = .ok reply ∧ part (bid true).2.state = part (bid false).2.state) := by
  intro bid
  have hs : (part p.state).table.Indexed := by
    rw [hstate]
    exact (Registry.orderly_final r earlier).indexed
  refine ⟨step_of_stranger h, fun huser => ⟨fun ha reply => ?_, fun reply hplain => ?_⟩⟩
  · constructor
    · intro hok
      obtain ⟨l, hl, hid, -, hreply, -⟩ := (releases_iff h hs ha).1 ⟨hok, rfl⟩
      exact ⟨l, hl, hid, hreply⟩
    · rintro ⟨l, hl, hid, hreply⟩
      exact ((releases_iff h hs ha).2 ⟨l, hl, hid, .inl ⟨rfl, huser⟩, hreply, rfl⟩).1
  · have ha : s.Admits (.release id ⟨false, ref⟩ user path) p := by
      by_contra hout
      obtain ⟨⟨e, he⟩, -⟩ := step_of_not_admits h hout
      rw [hplain] at he
      cases he
    have hadmits : s.Admits (.release id ⟨true, ref⟩ user path) p := ha
    obtain ⟨l, hl, hid, -, hreply, hafter⟩ := (releases_iff h hs ha).1 ⟨hplain, rfl⟩
    exact (releases_iff h hs hadmits).2 ⟨l, hl, hid, .inl ⟨rfl, huser⟩, hreply, hafter⟩

/-- A registry in which an administrator and someone else have a lock each. -/
def neighbours : List Registry.Task :=
  [.create "a" none (some "root"), .create "b" none (some "ann")]

/-- The service in front of this registry. -/
def shared : Progress RegistryState := .start (final Registry.sample.answer .empty neighbours) .debug

theorem force_is_for_administrators_desk :
    desk.Over .sample id (fun x _ => x) ∧
      shared.state = final Registry.sample.answer .empty neighbours ∧
      ¬ Administers .sample (some "ann") ∧ Administers .sample (some "root") ∧
      desk.Admits (.release "ii" ⟨true, none⟩ (some "root") none) shared ∧
      (desk.step (.release "i" ⟨true, none⟩ (some "ann") none) shared).1 =
        (desk.step (.release "i" ⟨false, none⟩ (some "ann") none) shared).1 ∧
      ∃ l, (desk.step (.release "ii" ⟨true, none⟩ (some "root") none) shared).1 =
        .ok (.released l) := by
  have hann : ¬ Administers .sample (some "ann") := by
    rintro ⟨name, hname, he⟩
    obtain rfl := Option.some.inj he
    revert hname
    decide
  have hroot : Administers .sample (some "root") := ⟨"root", by decide, rfl⟩
  have hadmits : desk.Admits (.release "ii" ⟨true, none⟩ (some "root") none) shared := ⟨_, rfl⟩
  have hforce := fun id user => force_is_for_administrators desk .sample _ _ over_desk neighbours
    shared rfl id none user none
  have hlock : ∃ l ∈ activeIn id shared, l.id = "ii" := by decide
  obtain ⟨l, hl, hid⟩ := hlock
  exact ⟨over_desk, rfl, hann, hroot, hadmits, ((hforce "i" (some "ann")).1 hann).1, l,
    (((hforce "ii" (some "root")).2 hroot).1 hadmits _).2 ⟨l, hl, hid, rfl⟩⟩

end GitLfs.Locking
