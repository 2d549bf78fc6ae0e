import GitLfs.Proofs.Lock.Locking

/-!
# Who may lock and who may release

Any number of users put requests to a locking service over a registry that starts without locks and
never issues an identifier twice. `custody` follows one lock through whatever they ask for: from its
creation on nobody else gets its path, until someone who is entitled to it releases it; from then on
it is gone for good, and its path is free.
-/

namespace GitLfs.Locking

variable {σ : Type} {s : Locking σ} {r : Registry} {part : σ → RegistryState}
  {update : RegistryState → σ → σ} {p : Progress σ}

/-- The active locks. -/
def activeIn (part : σ → RegistryState) (p : Progress σ) : List Lock := (part p.state).table.active

/-- A request released the lock with an identifier. -/
def Releases (id : String) (t : Turn (Progress σ) Task (Except Failure Reply)) : Prop :=
  (∃ request user path, t.input = .release id request user path) ∧
    ∃ l, t.answer = .ok (.released l)

/-! ## One request -/

/-- What is true of a registry, and is so after any task, is so after a request. -/
theorem step_keeps (h : s.Over r part update) {I : RegistryState → Prop} (task : Task)
    (hI : I (part p.state)) (htask : ∀ rtask, I (r.answer rtask (part p.state)).2) :
    I (part (s.step task p).2.state) := by
  by_cases ha : s.Admits task p
  · rw [(step_of_admits h ha).2]
    exact htask (task.onRegistry r)
  · rw [(step_of_not_admits h ha).2]
    exact hI

theorem sound_step (h : s.Over r part update) (hinj : Function.Injective r.newId)
    (hs : r.Sound (part p.state)) (task : Task) : r.Sound (part (s.step task p).2.state) :=
  step_keeps h task hs fun rtask => (hs.does rtask).sound hinj hs

theorem spent_step (h : s.Over r part update) (hinj : Function.Injective r.newId)
    (hs : r.Sound (part p.state)) {id : String} (hid : r.Spent (part p.state) id) (task : Task) :
    r.Spent (part (s.step task p).2.state) id :=
  step_keeps h (I := fun b => r.Spent b id) task hid fun rtask => (hs.does rtask).spent hinj hs hid

/-- The lock that a request creates is active when it is answered. -/
theorem mem_active_of_created (h : s.Over r part update) (hinj : Function.Injective r.newId)
    (hs : r.Sound (part p.state)) {task : Task} {l : Lock}
    (hl : (s.step task p).1 = .ok (.created l)) : l ∈ activeIn part (s.step task p).2 := by
  obtain ⟨request, name, path, -, -, -, -, -, hid, -, hstate⟩ := created_step h hs.consistent hl
  unfold activeIn
  rw [hstate, LockTable.mem_active_add (hid ▸ hs.newId_notMem_keys hinj)]
  exact Or.inr rfl

/-- A lock stays active, unless it is released at the request of someone who is entitled to it. -/
theorem active_step (h : s.Over r part update) (hinj : Function.Injective r.newId)
    (hs : r.Sound (part p.state)) {l : Lock} (hl : l ∈ activeIn part p) (task : Task) :
    l ∈ activeIn part (s.step task p).2 ∨
      ∃ request user path, task = .release l.id request user path ∧
        (s.step task p).1 = .ok (.released l) ∧ Entitled r l.ownerName user request := by
  unfold activeIn at hl ⊢
  by_cases hcreated : ∃ l', (s.step task p).1 = .ok (.created l')
  · obtain ⟨l', hl'⟩ := hcreated
    obtain ⟨request, name, path, -, -, -, -, -, hid, -, hstate⟩ := created_step h hs.consistent hl'
    rw [hstate, LockTable.mem_active_add (hid ▸ hs.newId_notMem_keys hinj)]
    exact Or.inl (Or.inl hl)
  · by_cases hreleased : ∃ l', (s.step task p).1 = .ok (.released l')
    · obtain ⟨l', hl'⟩ := hreleased
      obtain ⟨request, user, path, rfl, hentitled, hheld, hstate⟩ :=
        released_step h hs.consistent hl'
      by_cases he : l = l'
      · subst he
        exact Or.inr ⟨request, user, path, rfl, hl', hentitled⟩
      · rw [hstate]
        exact Or.inl ((LockTable.mem_active_remove hs.consistent hheld).2 ⟨hl, he⟩)
    · rw [not_exists] at hcreated hreleased
      rw [table_step h hs.consistent hcreated hreleased]
      exact Or.inl hl

/-- A lock that is released is gone, and its path is free. -/
theorem spent_of_released (h : s.Over r part update) (hs : r.Sound (part p.state)) {task : Task}
    {l : Lock} (hl : (s.step task p).1 = .ok (.released l)) :
    r.Spent (part (s.step task p).2.state) l.id ∧
      ∀ l' ∈ activeIn part (s.step task p).2, l'.path ≠ l.path := by
  obtain ⟨request, user, path, -, -, hheld, hstate⟩ := released_step h hs.consistent hl
  unfold activeIn
  rw [hstate]
  refine ⟨⟨(hs.issued l hheld).2, fun l' hl' he => ?_⟩, fun l' hl' he => ?_⟩ <;>
    obtain ⟨hactive, hne⟩ := (LockTable.mem_active_remove hs.consistent hheld).1 hl'
  · exact hne (hs.consistent.eq_of_id hactive hheld he)
  · exact hne (hs.consistent.eq_of_path hactive hheld he)

/-- Nobody gets a path that a lock is on. -/
theorem not_created_of_held (h : s.Over r part update) (hs : r.Sound (part p.state)) {l : Lock}
    (hl : l ∈ activeIn part p) {request : CreateRequest} (hpath : request.path = l.path)
    (user path : Option String) (l' : Lock) :
    (s.step (.create request user path) p).1 ≠ .ok (.created l') := by
  intro hcreated
  obtain ⟨_, _, _, ht, -, hp, -, -, -, hfree, -⟩ := created_step h hs.consistent hcreated
  cases ht
  exact hfree l hl (hpath.symm.trans hp.symm)

/-- Nobody releases a lock that is gone. -/
theorem release_of_spent (h : s.Over r part update) (hs : r.Sound (part p.state)) {id : String}
    (hid : r.Spent (part p.state) id) {request : ReleaseRequest} {user path : Option String}
    (ha : s.Admits (.release id request user path) p) :
    (s.step (.release id request user path) p).1 =
      .error (.refusal (.lockDenied ("Lock " ++ id ++ " does not exist"))) := by
  rw [(step_of_admits h ha).1, Task.onRegistry,
    Registry.answer_delete_absent hs.consistent.indexed _ _ _ hid.2]
  rfl

theorem not_releases_of_spent (h : s.Over r part update) (hs : r.Sound (part p.state))
    {id : String} (hid : r.Spent (part p.state) id) (task : Task) :
    ¬ Releases id (turn s.step p task) := by
  rintro ⟨⟨request, user, path, hi⟩, l, ho⟩
  obtain ⟨_, _, _, he, -, hheld, -⟩ := released_step h hs.consistent ho
  cases hi.symm.trans he
  exact hid.2 l hheld rfl

/-- Whoever is let in and has a name gets a path that is free. -/
theorem create_of_free (h : s.Over r part update) (hs : r.Sound (part p.state))
    {request : CreateRequest} {name : String} {path : Option String} (hname : name ≠ "")
    (hpath : request.path ≠ "") (hfree : ∀ l ∈ activeIn part p, l.path ≠ request.path)
    (ha : s.Admits (.create request (some name) path) p)
    (hallowed : r.AllowsPath request.path (Ref.name? request.ref))
    (hid : r.newId (part p.state).drawn ≠ "") (hnow : (r.now (part p.state).drawn).isSome) :
    ∃ l, (s.step (.create request (some name) path) p).1 = .ok (.created l) ∧
      l.path = request.path ∧ l.ownerName = some name := by
  obtain ⟨time, hnow⟩ := Option.isSome_iff_exists.1 hnow
  rw [(step_of_admits h ha).1, Task.onRegistry,
    Registry.answer_create_free hs.consistent hname hallowed hfree hpath hid hnow]
  exact ⟨_, rfl, rfl, rfl⟩

/-! ## Many requests -/

theorem sound_run (h : s.Over r part update) (hinj : Function.Injective r.newId)
    (hs : r.Sound (part p.state)) (tasks : List Task) :
    (∀ t ∈ history s.step p tasks, r.Sound (part t.before.state)) ∧
      r.Sound (part (final s.step p tasks).state) := by
  refine history_invariant (I := fun p : Progress σ => r.Sound (part p.state)) hs fun t ht hb => ?_
  rw [eq_turn_of_mem_history ht]
  exact sound_step h hinj hb t.input

/-- A lock stays active as long as nobody releases it. -/
theorem active_run (h : s.Over r part update) (hinj : Function.Injective r.newId)
    (hs : r.Sound (part p.state)) {l : Lock} (hl : l ∈ activeIn part p) {tasks : List Task}
    (hkept : ∀ t ∈ history s.step p tasks, ¬ Releases l.id t) :
    l ∈ activeIn part (final s.step p tasks) := by
  obtain ⟨hsound, -⟩ := sound_run h hinj hs tasks
  refine (history_invariant (I := fun p => l ∈ activeIn part p) hl fun t ht hb => ?_).2
  have hturn := eq_turn_of_mem_history ht
  rcases active_step h hinj (hsound t ht) hb t.input with hstay | ⟨request, user, path, hi, ho, -⟩
  · rw [hturn]
    exact hstay
  · exact absurd ⟨⟨request, user, path, hi⟩, l, by rw [hturn]; exact ho⟩ (hkept t ht)

/-- A lock that was released stays gone. -/
theorem spent_run (h : s.Over r part update) (hinj : Function.Injective r.newId)
    (hs : r.Sound (part p.state)) {id : String} (hid : r.Spent (part p.state) id)
    (tasks : List Task) : r.Spent (part (final s.step p tasks).state) id := by
  obtain ⟨hsound, -⟩ := sound_run h hinj hs tasks
  refine (history_invariant (I := fun p : Progress σ => r.Spent (part p.state) id) hid
    fun t ht hb => ?_).2
  rw [eq_turn_of_mem_history ht]
  exact spent_step h hinj (hsound t ht) hb t.input

theorem spent_of_releases (h : s.Over r part update) (hinj : Function.Injective r.newId)
    (hs : r.Sound (part p.state)) {id : String} {tasks : List Task}
    {t : Turn (Progress σ) Task (Except Failure Reply)} (ht : t ∈ history s.step p tasks)
    (hid : Releases id t) : r.Spent (part (final s.step p tasks).state) id := by
  obtain ⟨⟨request, user, path, hi⟩, l, ho⟩ := hid
  obtain ⟨front, back, hsplit, hturn⟩ := exists_of_mem_history ht
  obtain ⟨-, hfront⟩ := sound_run h hinj hs front
  have ho' : (s.step t.input (final s.step p front)).1 = .ok (.released l) := by
    rw [hturn] at ho
    exact ho
  obtain ⟨_, _, _, he, -⟩ := released_step h hfront.consistent ho'
  obtain rfl : id = l.id := by rw [hi] at he; cases he; rfl
  rw [hsplit, final_append]
  exact spent_run h hinj (sound_step h hinj hfront t.input) (spent_of_released h hfront ho').1 back

/-- What becomes of a lock, and of its path, after it was created for someone.

Nobody gets its path, and it stays as it is, until it is released. Only its owner can release it, or
an administrator with force. Then its identifier is that of no lock any more, whoever tries to
release it again is told so, and whoever has a name can lock the path while it is free. Nobody
without a name owns a lock, and none of them releases one without being an administrator. -/
theorem custody (s : Locking σ) (r : Registry) (part : σ → RegistryState)
    (update : RegistryState → σ → σ) (h : s.Over r part update)
    (hinj : Function.Injective r.newId) (start : Progress σ) (hstart : part start.state = .empty)
    (earlier : List Task) (request : CreateRequest) (user path : Option String) (l : Lock)
    (made : Progress σ)
    (hmade : s.step (.create request user path) (final s.step start earlier) =
      (.ok (.created l), made)) (later : List Task) :
    let turns := history s.step made later
    let now := final s.step made later
    let next := fun task => (s.step task now).2
    l.path = request.path ∧ l.ownerName = user ∧
    ((∀ t ∈ turns, ¬ Releases l.id t) → l ∈ activeIn part now ∧
      ∀ request' user' path' l', request'.path = l.path →
        (s.step (.create request' user' path') now).1 ≠ .ok (.created l')) ∧
    (∀ task, l ∈ activeIn part now → l ∉ activeIn part (next task) →
      ∃ request' user' path', task = .release l.id request' user' path' ∧
        (s.step task now).1 = .ok (.released l) ∧ Entitled r user user' request') ∧
    ((∃ t ∈ turns, Releases l.id t) → (∀ l' ∈ activeIn part now, l'.id ≠ l.id) ∧
      ∀ request' user' path', s.Admits (.release l.id request' user' path') now →
        (s.step (.release l.id request' user' path') now).1 =
          .error (.refusal (.lockDenied ("Lock " ++ l.id ++ " does not exist")))) ∧
    (∀ task, Releases l.id (turn s.step now task) →
      ∀ l' ∈ activeIn part (next task), l'.path ≠ l.path) ∧
    ((∀ l' ∈ activeIn part now, l'.path ≠ l.path) → ∀ request' name path',
      request'.path = l.path → name ≠ "" → s.Admits (.create request' (some name) path') now →
        r.AllowsPath l.path (Ref.name? request'.ref) → r.newId (part now.state).drawn ≠ "" →
        (r.now (part now.state).drawn).isSome →
          ∃ l', (s.step (.create request' (some name) path') now).1 = .ok (.created l') ∧
            l'.path = l.path ∧ l'.ownerName = some name) ∧
    (∀ l' ∈ activeIn part now, ∃ name, name ≠ "" ∧ l'.ownerName = some name) ∧
    ∀ id request' user' path' l', user'.getD "" = "" →
      (s.step (.release id request' user' path') now).1 = .ok (.released l') →
        request'.force = true ∧ ∃ name ∈ r.administrators, user' = some name := by
  intro turns now next
  have hbefore : r.Sound (part (final s.step start earlier).state) :=
    (sound_run h hinj (hstart ▸ Registry.sound_empty r) earlier).2
  have hcreated : (s.step (.create request user path) (final s.step start earlier)).1 =
      .ok (.created l) := by rw [hmade]
  have hsound : r.Sound (part made.state) := by
    have := sound_step h hinj hbefore (.create request user path)
    rwa [hmade] at this
  have hactive : l ∈ activeIn part made := by
    have := mem_active_of_created h hinj hbefore hcreated
    rwa [hmade] at this
  have hnow : r.Sound (part now.state) := (sound_run h hinj hsound later).2
  obtain ⟨_, name, _, he, -, hpath, hpath_ne, howner, -⟩ :=
    created_step h hbefore.consistent hcreated
  cases he
  refine ⟨hpath, howner, fun hkept => ?_, fun task hl hgone => ?_, fun ⟨t, ht, hid⟩ => ?_,
    fun task hid l' hl' => ?_, fun hfree request' name' path' hp hn ha hallowed hne htime => ?_,
    hnow.named, fun id request' user' path' l' hu hreleased => ?_⟩
  · have hl := active_run h hinj hsound hactive hkept
    exact ⟨hl, fun request' user' path' l' hp => not_created_of_held h hnow hl hp user' path' l'⟩
  · obtain hstay | ⟨request', user', path', ht, ho, hentitled⟩ := active_step h hinj hnow hl task
    · exact absurd hstay hgone
    · exact ⟨request', user', path', ht, ho, howner ▸ hentitled⟩
  · have hspent := spent_of_releases h hinj hsound ht hid
    exact ⟨hspent.2, fun request' user' path' ha => release_of_spent h hnow hspent ha⟩
  · have hl : l ∈ activeIn part now := active_run h hinj hsound hactive fun t ht hid' =>
      not_releases_of_spent h hnow (spent_of_releases h hinj hsound ht hid') task hid
    obtain ⟨⟨request', user', path', hi⟩, l₀, ho⟩ := hid
    obtain ⟨_, _, _, he, -, hheld, -⟩ := released_step h hnow.consistent ho
    obtain rfl : l = l₀ := by
      have heq := hi.symm.trans he
      simp only [Task.release.injEq] at heq
      exact hnow.consistent.eq_of_id hl hheld heq.1
    exact (spent_of_released h hnow ho).2 l' hl'
  · rw [← hp] at hallowed hfree ⊢
    exact create_of_free h hnow hn (hp ▸ hpath_ne) hfree ha hallowed hne htime
  · obtain ⟨_, _, _, he, hentitled, hheld, -⟩ := released_step h hnow.consistent hreleased
    cases he
    obtain hu' | hforce := hentitled
    · obtain ⟨owner, hne, howner'⟩ := hnow.named l' hheld
      rw [hu', howner'] at hu
      exact absurd hu hne
    · exact hforce

/-- A service for two writers, one of whom is an administrator of its registry. -/
def desk : Locking RegistryState where
  policies := .fixed (some (Roster.policy ⟨["ann", "root"], none, true⟩))
  keepers := .fixed (some (Registry.sample.keeper.focus id fun x _ => x))

theorem over_desk : desk.Over .sample id fun x _ => x where
  part_update _ _ := rfl
  policies := .fixed fun x hx => by
    obtain rfl := Option.some.inj hx
    exact Roster.keeps_policy _
  keepers := .fixed fun x hx => (Option.some.inj hx).symm

/-- The service before anybody has asked for anything. -/
def opening : Progress RegistryState := .start .empty .debug

/-- The first lock that the service makes. -/
def firstLock : Lock := Registry.sample.drawnLock .empty "a" "ann" Registry.newYear

/-- Somebody locks a path. -/
def claimed : Turn (Progress RegistryState) Task (Except Failure Reply) :=
  turn desk.step opening (.create ⟨"a", none⟩ (some "ann") none)

/-- An administrator takes the lock away with force. -/
def seizure : Task := .release "i" ⟨true, none⟩ (some "root") none

theorem custody_desk :
    desk.Over .sample id (fun x _ => x) ∧ Function.Injective Registry.sample.newId ∧
      opening.state = .empty ∧
      desk.step (.create ⟨"a", none⟩ (some "ann") none) (final desk.step opening []) =
        (.ok (.created firstLock), claimed.after) ∧
      (∃ t ∈ history desk.step claimed.after [seizure], Releases firstLock.id t) ∧
      ∀ l ∈ activeIn id (final desk.step claimed.after [seizure]), l.id ≠ firstLock.id := by
  have hmade : desk.step (.create ⟨"a", none⟩ (some "ann") none) (final desk.step opening []) =
      (.ok (.created firstLock), claimed.after) := rfl
  have hreleased : ∃ t ∈ history desk.step claimed.after [seizure], Releases firstLock.id t :=
    ⟨_, List.mem_cons_self, ⟨_, _, _, rfl⟩, firstLock, rfl⟩
  have h := custody desk .sample id (fun x _ => x) over_desk Registry.sample_newId_injective
    opening rfl [] ⟨"a", none⟩ (some "ann") none firstLock claimed.after hmade [seizure]
  exact ⟨over_desk, Registry.sample_newId_injective, rfl, hmade, hreleased,
    (h.2.2.2.2.1 hreleased).1⟩

end GitLfs.Locking
