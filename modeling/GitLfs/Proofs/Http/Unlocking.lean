import GitLfs.Proofs.Http.Mounting
import GitLfs.Proofs.Lock.Errand

/-!
# Which paths lead to which lock

A text of the mount, the path of all locks and what names a lock make a path at which that lock is
released: `found_unlockTail_iff`. For this one has to know where the rest of a path begins, as a mount
with parameters may stand for more than one part of it; the mount takes as much as it can, and the path
of all locks stands further back in such a path only when a lock is called `locks`.

`unlock_paths_exact` adds what is done then: the lock that is named is released, once everything that is
asked ahead of that went well, and where none is named nothing is called.
-/

namespace GitLfs

variable {σ : Type}

namespace Http

/-! ## Where the rest of a path begins -/

/-- What fits a mount and the paths below that of all locks falls into a text of the mount, the path
of all locks and the rest, which a line break may follow. No text of the mount that the path of all
locks follows leaves a shorter rest. -/
theorem exists_of_fit?_belowLocks {mount : String} {s : List Char} {found : List (String × String)}
    (hmount : (Pattern.ofText (mount ++ belowLocksPath)).repeatedNames = [])
    (h : (Pattern.ofText mount ++ Pattern.ofText belowLocksPath).fit? s = some found) :
    ∃ front tail more, s = front ++ ("/locks/".toList ++ (tail ++ more)) ∧
      (more = [] ∨ more = ['\n']) ∧ (Pattern.ofText mount).Spells front ∧
      found.lookup Route.tailName = some (String.ofList tail) ∧
      ∀ front' tail', s = front' ++ ("/locks/".toList ++ tail') → '\n' ∉ tail' →
        (Pattern.ofText mount).Spells front' → (tail ++ more).length ≤ tail'.length := by
  obtain ⟨front, back, found₁, found₂, rfl, hfront, hback, rfl, hnames, hleast⟩ :=
    Pattern.fit?_greedy h
  rw [ofText_belowLocksPath] at hback
  obtain ⟨rest, rfl, hrest⟩ := Pattern.exists_of_fit?_chars_append hback
  obtain ⟨tail, more, rfl, hmore, rfl⟩ := Pattern.exists_of_fit?_rest hrest
  have hnone : found₁.lookup Route.tailName = none := by
    refine List.lookup_eq_none_iff.2 fun e he => ?_
    have hmem : e.1 ∈ found₁.map Prod.fst := List.mem_map_of_mem he
    rw [hnames] at hmem
    rw [bne_iff_ne]
    intro hname
    exact tailName_notMem hmount (hname ▸ hmem)
  refine ⟨front, tail, more, rfl, hmore, hfront, ?_, fun front' tail' hs hline hfront' => ?_⟩
  · rw [List.lookup_append, hnone]
    simp
  · have hfits : ((Pattern.ofText belowLocksPath).fit? ("/locks/".toList ++ tail')).isSome := by
      rw [ofText_belowLocksPath, Pattern.fit?_chars_append, Pattern.fit?_rest _ hline]
      rfl
    have hlength := hleast front' _ hs hfront' hfits
    simp only [List.length_append] at hlength ⊢
    omega

/-- The path of all locks stands in the path at which a lock is released at the start, and nowhere
else unless the identifier is the same word. -/
theorem eq_nil_or_of_append_locks {id before rest : List Char} {n : Nat} (hslash : '/' ∉ id)
    (h : "/locks/".toList ++ (id ++ "/unlock".toList ++ List.replicate n '/') =
      before ++ ("/locks/".toList ++ rest)) :
    before = [] ∨ before = "/locks".toList ∧ id = "locks".toList := by
  -- both sides are cut at slashes; the word stands among the pieces of the left side
  have hleft : Text.pieces '/'
      ("/locks/".toList ++ (id ++ "/unlock".toList ++ List.replicate n '/')) =
        [] :: "locks".toList :: id :: "unlock".toList :: List.replicate n [] := by
    have hshape : "/locks/".toList ++ (id ++ "/unlock".toList ++ List.replicate n '/') =
        [] ++ '/' :: ("locks".toList ++ '/' :: (id ++ '/' ::
          ("unlock".toList ++ List.replicate n '/'))) := by
      simp
    rw [hshape, Text.pieces_append (by decide), Text.pieces_append (by decide),
      Text.pieces_append hslash, Text.pieces_append_replicate (by decide)]
  have hright : Text.pieces '/' (before ++ ("/locks/".toList ++ rest)) =
      Text.pieces '/' before ++ "locks".toList :: Text.pieces '/' rest := by
    have hshape : before ++ ("/locks/".toList ++ rest) =
        before ++ '/' :: ("locks".toList ++ '/' :: rest) := by
      simp
    rw [hshape, Text.pieces_append_cons, Text.pieces_append (by decide)]
  have hcut := hleft.symm.trans ((congrArg (Text.pieces '/') h).trans hright)
  have hjoin := Text.join_pieces '/' before
  generalize Text.pieces '/' before = cut at hcut hjoin
  rcases cut with _ | ⟨a, _ | ⟨b, _ | ⟨c, _ | ⟨d, more⟩⟩⟩⟩
  · exact absurd (List.cons.inj hcut).1 (by decide)
  · left
    rw [← hjoin, ← (List.cons.inj hcut).1]
    rfl
  · simp only [List.cons_append, List.nil_append, List.cons.injEq] at hcut
    obtain ⟨rfl, rfl, hid, -⟩ := hcut
    exact Or.inr ⟨hjoin.symm, hid⟩
  · simp only [List.cons_append, List.nil_append, List.cons.injEq] at hcut
    exact absurd hcut.2.2.2.1 (by decide)
  · simp only [List.cons_append, List.cons.injEq] at hcut
    have hmem : "locks".toList ∈ List.replicate n ([] : List Char) := by
      rw [hcut.2.2.2.2]
      exact List.mem_append_right _ List.mem_cons_self
    exact absurd (List.eq_of_mem_replicate hmem) (by decide)

/-! ## Which paths lead to a lock -/

section

variable {batchMount mount method path tail id front : String}

/-- What follows the path of all locks in a path that fits is the rest that the route tells. -/
theorem exists_front_of_tail?
    (hmount : (Pattern.ofText (mount ++ belowLocksPath)).repeatedNames = []) {rt : Route}
    (hpattern : rt.pattern = Pattern.ofText mount ++ Pattern.ofText belowLocksPath)
    (h : rt.tail? path = some tail) :
    ∃ front more, path.toList = front ++ ("/locks/".toList ++ (tail.toList ++ more)) ∧
      (more = [] ∨ more = ['\n']) ∧ (Pattern.ofText mount).Spells front ∧
      ∀ front' tail', path.toList = front' ++ ("/locks/".toList ++ tail') → '\n' ∉ tail' →
        (Pattern.ofText mount).Spells front' → (tail.toList ++ more).length ≤ tail'.length := by
  obtain ⟨found, hfit, htext⟩ := Option.map_eq_some_iff.1 h
  rw [hpattern] at hfit
  obtain ⟨front, rest, more, hpath, hmore, hfront, hlookup, hleast⟩ :=
    exists_of_fit?_belowLocks hmount hfit
  rw [hlookup, Option.getD_some] at htext
  have hrest : tail.toList = rest := by rw [← htext, String.toList_ofList]
  rw [hrest]
  exact ⟨front, more, hpath, hmore, hfront, hleast⟩

/-- So it is for each request to release a lock. -/
theorem exists_front_of_found
    (hmount : (Pattern.ofText (mount ++ belowLocksPath)).repeatedNames = [])
    (h : route (routes (Pattern.ofText batchMount) (Pattern.ofText mount)) method path =
      .found .releaseLock tail) :
    ∃ front more, path.toList = front ++ ("/locks/".toList ++ (tail.toList ++ more)) ∧
      (more = [] ∨ more = ['\n']) ∧ (Pattern.ofText mount).Spells front ∧
      ∀ front' tail', path.toList = front' ++ ("/locks/".toList ++ tail') → '\n' ∉ tail' →
        (Pattern.ofText mount).Spells front' → (tail.toList ++ more).length ≤ tail'.length := by
  obtain ⟨rt, hrt, hendpoint, -, htail⟩ := exists_of_route_found h
  obtain rfl := (mem_routes_change hrt).2 hendpoint
  exact exists_front_of_tail? hmount rfl htail

/-- The rest of the path at which a lock is released, with slashes behind it. -/
def unlockTail (id : String) (n : Nat) : String :=
  id ++ "/unlock" ++ String.ofList (List.replicate n '/')

theorem toList_unlockTail (id : String) (n : Nat) :
    (unlockTail id n).toList = id.toList ++ "/unlock".toList ++ List.replicate n '/' := by
  simp only [unlockTail, String.toList_append, String.toList_ofList]

theorem newline_notMem_unlockTail (hline : '\n' ∉ id.toList) (n : Nat) :
    '\n' ∉ (unlockTail id n).toList := by
  rw [toList_unlockTail, List.mem_append, List.mem_append, not_or, not_or]
  exact ⟨⟨hline, by decide⟩, fun h => absurd (List.eq_of_mem_replicate h) (by decide)⟩

theorem toList_lockPath (front id : String) (n : Nat) :
    (front ++ "/locks/" ++ unlockTail id n).toList =
      front.toList ++ ("/locks/".toList ++ (unlockTail id n).toList) := by
  rw [String.toList_append, String.toList_append, List.append_assoc]

/-- The second of two texts that make the same as two others ends as the shorter one of those. -/
theorem exists_append_of_length_le {α : Type} {a b c d : List α} (h : a ++ b = c ++ d)
    (hle : d.length ≤ b.length) : ∃ m, c = a ++ m ∧ b = m ++ d := by
  rcases List.append_eq_append_iff.1 h with ⟨m, hc, hb⟩ | ⟨m, ha, hd⟩
  · exact ⟨m, hc, hb⟩
  · have hlength := congrArg List.length hd
    rw [List.length_append] at hlength
    obtain rfl : m = [] := List.eq_nil_of_length_eq_zero (by omega)
    rw [List.append_nil] at ha
    rw [List.nil_append] at hd
    exact ⟨[], by rw [ha, List.append_nil], hd.symm⟩

/-- A text of the mount, the path of all locks and what names a lock make a path whose rest is just
what names the lock, if it cannot be cut elsewhere. -/
theorem exists_fit?_unlockTail
    (hmount : (Pattern.ofText (mount ++ belowLocksPath)).repeatedNames = [])
    (hfront : (Pattern.ofText mount).Spells front.toList) (hslash : '/' ∉ id.toList)
    (hline : '\n' ∉ id.toList) (n : Nat)
    (honly : id = "locks" → ¬ (Pattern.ofText mount).Spells (front ++ locksPath).toList) :
    ∃ found, (Pattern.ofText mount ++ Pattern.ofText belowLocksPath).fit?
        (front ++ "/locks/" ++ unlockTail id n).toList = some found ∧
      found.lookup Route.tailName = some (unlockTail id n) := by
  have hnewline := newline_notMem_unlockTail hline n
  rw [toList_lockPath]
  have hrest : ((Pattern.ofText belowLocksPath).fit?
      ("/locks/".toList ++ (unlockTail id n).toList)).isSome := by
    rw [ofText_belowLocksPath, Pattern.fit?_chars_append, Pattern.fit?_rest _ hnewline]
    rfl
  obtain ⟨found, hfit⟩ := Option.isSome_iff_exists.1 (Pattern.isSome_fit?_append hfront hrest)
  obtain ⟨front', tail, more, hcut, hmore, hfront', hlookup, hleast⟩ :=
    exists_of_fit?_belowLocks hmount hfit
  -- the rest that is told is no longer than what names the lock, so that ends as the rest does
  have hlength : ("/locks/".toList ++ (tail ++ more)).length ≤
      ("/locks/".toList ++ (unlockTail id n).toList).length := by
    have hrest := hleast _ _ rfl hnewline hfront
    simp only [List.length_append] at hrest ⊢
    omega
  obtain ⟨before, hbefore, hends⟩ := exists_append_of_length_le hcut hlength
  have htail : (unlockTail id n).toList = tail ++ more := by
    rw [toList_unlockTail] at hends ⊢
    rcases eq_nil_or_of_append_locks hslash hends with rfl | ⟨rfl, hid⟩
    · exact List.append_cancel_left hends
    · refine absurd ?_ (honly (String.toList_inj.1 hid))
      rw [String.toList_append]
      exact hbefore ▸ hfront'
  have hnone : more = [] := by
    rcases hmore with rfl | rfl
    · rfl
    · rw [htail] at hnewline
      exact absurd (List.mem_append_right _ (List.mem_singleton.2 rfl)) hnewline
  have htold : String.ofList tail = unlockTail id n := by
    rw [← String.toList_inj, htail, hnone, List.append_nil, String.toList_ofList]
  exact ⟨found, hfit, htold ▸ hlookup⟩

/-- Such a path leads to that lock. Only where the identifier is the word that stands in the path of
all locks can the path be cut elsewhere: when the mount stands for that path, too, it takes it. -/
theorem found_unlockTail_iff
    (hmount : (Pattern.ofText (mount ++ belowLocksPath)).repeatedNames = [])
    (hfront : (Pattern.ofText mount).Spells front.toList) (hne : id ≠ "") (hslash : '/' ∉ id.toList)
    (hline : '\n' ∉ id.toList) (n : Nat) :
    route (routes (Pattern.ofText batchMount) (Pattern.ofText mount)) "POST"
        (front ++ "/locks/" ++ unlockTail id n) = .found .releaseLock (unlockTail id n) ↔
      (id = "locks" → ¬ (Pattern.ofText mount).Spells (front ++ locksPath).toList) := by
  constructor
  · rintro h rfl hspells
    obtain ⟨front', more, -, -, -, hleast⟩ := exists_front_of_found hmount h
    have hcut : (front ++ "/locks/" ++ unlockTail "locks" n).toList = (front ++ locksPath).toList ++
        ("/locks/".toList ++ ("unlock".toList ++ List.replicate n '/')) := by
      rw [toList_lockPath, toList_unlockTail, String.toList_append, List.append_assoc,
        List.append_assoc]
      rfl
    have hline' : '\n' ∉ "unlock".toList ++ List.replicate n '/' := by
      rw [List.mem_append, not_or]
      exact ⟨by decide, fun h => absurd (List.eq_of_mem_replicate h) (by decide)⟩
    have hlength := hleast _ _ hcut hline' hspells
    rw [toList_unlockTail] at hlength
    simp at hlength
    omega
  · intro honly
    obtain ⟨found, hfit, hlookup⟩ := exists_fit?_unlockTail hmount hfront hslash hline n honly
    have hunlock : IsUnlockPath mount (front ++ "/locks/" ++ unlockTail id n) id := by
      refine ⟨found, unlockTail id n, ?_, hlookup, ?_⟩
      · rw [ofText_mount_belowLocksPath]
        exact hfit
      · exact Lock.idOfUnlockPath_eq_ok_iff.2 (.of_append hne hslash n)
    obtain ⟨endpoint, tail, hfound⟩ := hunlock.exists_found batchMount
    obtain ⟨rfl, -⟩ := hunlock.found hmount hfound
    obtain ⟨rt, hrt, hendpoint, -, htail⟩ := exists_of_route_found hfound
    obtain rfl := (mem_routes_change hrt).2 hendpoint
    rw [Route.tail?, hfit, Option.map_some, hlookup, Option.getD_some] at htail
    rw [hfound, Option.some.inj htail]

/-- The path of the locks that matter before a push, behind a text of the mount. -/
theorem IsVerifyPath.of_spells (hfront : (Pattern.ofText mount).Spells front.toList) :
    IsVerifyPath mount (front ++ verifyPath) := by
  unfold IsVerifyPath
  rw [String.toList_append]
  exact Pattern.isSome_fit?_append hfront (by decide)

/-- A mount in which no parameter is for a path does not stand for a text and the path of all locks
behind that text, too. -/
theorem not_spells_append_locksPath {p : Pattern} (hpath : ∀ name, Part.parameter name .path ∉ p)
    (hfront : p.Spells front.toList) : ¬ p.Spells (front ++ locksPath).toList := by
  intro hspells
  have hcount := hfront.count_slash hspells hpath
  have hone : locksPath.toList.count '/' = 1 := by decide
  rw [String.toList_append, List.count_append, hone] at hcount
  omega

end

/-! ## What is done about a lock that is named -/

namespace Gateway

variable {g : Gateway σ} {r : Request} {tail id : String} {user : Option String}
  {body : ReleaseRequest}

/-- What a request asks for that names a lock. -/
def releaseTask (r : Request) (tail id : String) (user : Option String) (body : ReleaseRequest) :
    Locking.Task :=
  .release id body user (repository r (locksPath ++ "/" ++ tail))

/-- A lock that is named is released once everything ahead of that went well, and no other lock is. -/
theorem calls_of_namedBy (hrouted : g.routing r = .found .releaseLock tail)
    (hid : Lock.NamedBy tail id) (hwho : r.principal = .ok user)
    (hbody : parseBody ReleaseRequest.decode true r.body = .ok body) (fresh : String)
    (p : Progress σ) :
    let task := releaseTask r tail id user body
    let ahead := (g.locking.ahead task).hold p.state
    (perform (g.serve fresh r) p).2.calls =
      p.calls ++ (ahead.calls ++ task.errandCalls ahead.outcome) := by
  intro task ahead
  have hasks : Asks r .releaseLock tail (.locks task) :=
    .release hwho (Lock.idOfUnlockPath_eq_ok_iff.2 hid) hbody
  rw [calls_of_asks hrouted hasks fresh p, dialogue, Dialogue.calls_map, Locking.calls_dialogue]

/-- Where no lock is named, nothing is called; whoever may ask is told what stands there instead. -/
theorem serve_of_nameless (hrouted : g.routing r = .found .releaseLock tail)
    (hnone : ∀ id, ¬ Lock.NamedBy tail id) (fresh : String) (p : Progress σ) :
    ∃ (response : Response) (q : Progress σ), perform (g.serve fresh r) p =
        (.ok (response.withHeader requestIdHeader (requestIdOf r fresh)), q) ∧
      q.state = p.state ∧ q.calls = p.calls ∧
      ∀ user, r.principal = .ok user →
        response = .message 500 ("Invalid delete-lock endpoint: /" ++ tail) [] := by
  have hpath := Lock.idOfUnlockPath_eq_error_iff.2 ⟨hnone, rfl⟩
  have hfault : ∃ e, firstFault? r .releaseLock tail = some e ∧ ∀ user, r.principal = .ok user →
      e = .refusal (.internal ("Invalid delete-lock endpoint: /" ++ tail)) := by
    rw [firstFault?_eq, Stage.fault?, Stage.fault?, hpath]
    cases r.principal with
    | error e => exact ⟨_, rfl, fun user h => by cases h⟩
    | ok user => exact ⟨_, rfl, fun _ _ => rfl⟩
  obtain ⟨e, he, hwords⟩ := hfault
  obtain ⟨response, q, hresponse, hq, hstate, hcalls⟩ := serve_of_fault hrouted he fresh p
  refine ⟨response, q, hq, hstate, hcalls, fun user hwho => ?_⟩
  rw [hwords user hwho, ofFailure_of_message rfl] at hresponse
  exact (Except.ok.inj hresponse).symm

/-- A request for the locks that matter before a push releases none. -/
theorem released?_of_verify (hrouted : g.routing r = .found .verifyLocks tail) (fresh : String)
    (p : Progress σ) :
    ∃ calls, (perform (g.serve fresh r) p).2.calls = p.calls ++ calls ∧
      ∀ call ∈ calls, call.released? = none := by
  cases hfault : firstFault? r .verifyLocks tail with
  | some e =>
    obtain ⟨_, q, -, hq, -, hcalls⟩ := serve_of_fault hrouted hfault fresh p
    exact ⟨[], by rw [hq, hcalls, List.append_nil], fun call h => absurd h List.not_mem_nil⟩
  | none =>
    obtain ⟨demand, hasks⟩ := exists_asks (by decide) hfault
    refine ⟨_, calls_of_asks hrouted hasks fresh p, fun call hcall => ?_⟩
    cases hasks with
    | @verify _ user request who body =>
      rw [dialogue, Dialogue.calls_map, Locking.calls_dialogue] at hcall
      rcases List.mem_append.1 hcall with hcall | hcall
      · exact g.locking.released?_ahead _ p.state call hcall
      · unfold Locking.Task.errandCalls at hcall
        split at hcall
        · rw [List.mem_singleton.1 hcall]
          rfl
        · exact absurd hcall List.not_mem_nil

/-- Something is called for a request to release a lock only when it names one, its user is known and
its body can be read. -/
theorem calls_eq_of_not_release (hrouted : g.routing r = .found .releaseLock tail)
    (hnot : ¬ ∃ id user body, Lock.NamedBy tail id ∧ r.principal = .ok user ∧
      parseBody ReleaseRequest.decode true r.body = .ok body) (fresh : String) (p : Progress σ) :
    (perform (g.serve fresh r) p).2.calls = p.calls ∧
      (perform (g.serve fresh r) p).2.state = p.state := by
  cases hfault : firstFault? r .releaseLock tail with
  | some e =>
    obtain ⟨_, q, -, hq, hstate, hcalls⟩ := serve_of_fault hrouted hfault fresh p
    rw [hq]
    exact ⟨hcalls, hstate⟩
  | none =>
    obtain ⟨demand, hasks⟩ := exists_asks (by decide) hfault
    cases hasks with
    | release who path body =>
      exact absurd ⟨_, _, _, Lock.idOfUnlockPath_eq_ok_iff.1 path, who, body⟩ hnot

/-- Each lock whose identifier is a segment of a path without a line break has a path of its own for
each text of the mount, at which it is released, apart from slashes at the end. Only when the mount has
a parameter for a path can that parameter take the path of all locks itself, and then the identifier
`locks` is not read there. The rest of such a path names a lock exactly when it is the identifier,
`/unlock` and slashes, and then it names that one only. What is called is what the gate, the look-up of
the lock keeper and the question about force take, and, once they went well, the release of the lock
that is named; when none is named nothing is called at all, and the answer says what stands there
instead. The locks that matter before a push are told at a path of theirs, and none is released. -/
theorem unlock_paths_exact (g : Gateway σ) {batchMount mount : String}
    (hbatch : mountOf batchMount [batchPath] = .ok g.batchMount)
    (hlocks : mountOf mount [locksPath, belowLocksPath] = .ok g.lockMount)
    (r : Request) (fresh : String) (p : Progress σ) :
    let outcome := perform (g.serve fresh r) p
    (∀ front id n, r.method = "POST" → r.path = front ++ "/locks/" ++ unlockTail id n →
      g.lockMount.Spells front.toList → id ≠ "" → '/' ∉ id.toList → '\n' ∉ id.toList →
      (g.routing r = .found .releaseLock (unlockTail id n) ↔
        (id = "locks" → ¬ g.lockMount.Spells (front ++ locksPath).toList)) ∧
      ((∀ name, Part.parameter name .path ∉ g.lockMount) →
        ¬ g.lockMount.Spells (front ++ locksPath).toList) ∧
      Lock.NamedBy (unlockTail id n) id) ∧
    (∀ tail, g.routing r = .found .releaseLock tail →
      (∃ front more, r.path.toList = front ++ ("/locks/".toList ++ (tail.toList ++ more)) ∧
        (more = [] ∨ more = ['\n']) ∧ g.lockMount.Spells front) ∧
      (∀ id, Lock.idOfUnlockPath tail = .ok id ↔ Lock.NamedBy tail id) ∧
      (∀ id id', Lock.NamedBy tail id → Lock.NamedBy tail id' → id = id') ∧
      (∀ id user body, Lock.NamedBy tail id → r.principal = .ok user →
        parseBody ReleaseRequest.decode true r.body = .ok body →
        let task := releaseTask r tail id user body
        let ahead := (g.locking.ahead task).hold p.state
        outcome.2.calls = p.calls ++ (ahead.calls ++ task.errandCalls ahead.outcome) ∧
        (∀ call ∈ ahead.calls, call.released? = none) ∧
        ∀ force, task.keeperCall force = .deleteLock id (Ref.name? body.ref) user force) ∧
      ((¬ ∃ id user body, Lock.NamedBy tail id ∧ r.principal = .ok user ∧
          parseBody ReleaseRequest.decode true r.body = .ok body) →
        outcome.2.calls = p.calls ∧ outcome.2.state = p.state) ∧
      ((∀ id, ¬ Lock.NamedBy tail id) → ∀ user, r.principal = .ok user →
        outcome.1 = .ok ((Response.message 500 ("Invalid delete-lock endpoint: /" ++ tail)
          []).withHeader requestIdHeader (requestIdOf r fresh)))) ∧
    ((∃ front, g.lockMount.Spells front.toList ∧ r.path = front ++ verifyPath) →
      IsVerifyPath mount r.path) ∧
    (r.method = "POST" → IsVerifyPath mount r.path →
      (∃ tail, g.routing r = .found .verifyLocks tail) ∧
      ∃ calls, outcome.2.calls = p.calls ++ calls ∧ ∀ call ∈ calls, call.released? = none) := by
  intro outcome
  have hmount : (Pattern.ofText (mount ++ belowLocksPath)).repeatedNames = [] :=
    (mountOf_eq_ok hlocks).2 _ (by simp)
  have hrouting := routing_eq (mountOf_eq_ok hbatch).1 (mountOf_eq_ok hlocks).1 r
  rw [(mountOf_eq_ok hlocks).1]
  refine ⟨fun front id n hpost hpath hfront hne hslash hline => ?_, fun tail hrouted => ?_, ?_,
    fun hpost hpath => ?_⟩
  · rw [hrouting, hpost, hpath]
    exact ⟨found_unlockTail_iff hmount hfront hne hslash hline n,
      fun hparameters => not_spells_append_locksPath hparameters hfront, .of_append hne hslash n⟩
  · obtain ⟨front, more, hpath, hmore, hfront, -⟩ :=
      exists_front_of_found hmount (hrouting.symm.trans hrouted)
    refine ⟨⟨front, more, hpath, hmore, hfront⟩, fun id => Lock.idOfUnlockPath_eq_ok_iff,
      fun id id' => Lock.NamedBy.unique, fun id user body hid hwho hbody => ?_,
      fun hnot => calls_eq_of_not_release hrouted hnot fresh p, fun hnone user hwho => ?_⟩
    · exact ⟨calls_of_namedBy hrouted hid hwho hbody fresh p,
        g.locking.released?_ahead _ p.state, fun force => rfl⟩
    · obtain ⟨response, q, hq, -, -, hwords⟩ := serve_of_nameless hrouted hnone fresh p
      have houtcome : outcome = _ := hq
      rw [houtcome, hwords user hwho]
  · rintro ⟨front, hfront, hpath⟩
    rw [hpath]
    exact .of_spells hfront
  · obtain ⟨tail, hrouted⟩ : ∃ tail, g.routing r = .found .verifyLocks tail := by
      rw [hrouting, hpost]
      exact hpath.found
    exact ⟨⟨tail, hrouted⟩, released?_of_verify hrouted fresh p⟩

/-- Locks that are called like a word of the paths themselves, or have blanks and points in their names,
are released where the others are. -/
theorem unlock_paths_exact_lodge :
    mountOf "/info/lfs" [batchPath] = .ok lodge.batchMount ∧
      mountOf "/info/lfs" [locksPath, belowLocksPath] = .ok lodge.lockMount ∧
      ∀ id ∈ ["verify", "unlock", "locks", "a b.c"], ∀ n,
        let request : Request :=
          ⟨"POST", "/info/lfs" ++ "/locks/" ++ unlockTail id n, "", [], [], none⟩
        lodge.routing request = .found .releaseLock (unlockTail id n) ∧
          (perform (lodge.serve "visit" request) (.start World.empty .debug)).2.calls =
            [.deleteLock id none none false] := by
  have hbatch : mountOf "/info/lfs" [batchPath] = .ok lodge.batchMount := batchMount_settings
  have hlocks : mountOf "/info/lfs" [locksPath, belowLocksPath] = .ok lodge.lockMount :=
    locksMount_settings
  refine ⟨hbatch, hlocks, fun id hid n => ?_⟩
  intro request
  have hsegments : ∀ id ∈ ["verify", "unlock", "locks", "a b.c"],
      id ≠ "" ∧ '/' ∉ id.toList ∧ '\n' ∉ id.toList := by decide
  obtain ⟨hne, hslash, hline⟩ := hsegments id hid
  have hmount : lodge.lockMount = "/info/lfs".toList.map .char :=
    Pattern.ofText_of_notMem (by decide)
  have hspells : lodge.lockMount.Spells "/info/lfs".toList := hmount ▸ Pattern.spells_chars _
  have hparameters : ∀ name, Part.parameter name .path ∉ lodge.lockMount := by
    rw [hmount]
    simp
  obtain ⟨hpaths, hcalls, -⟩ :=
    unlock_paths_exact lodge hbatch hlocks request "visit" (.start World.empty .debug)
  obtain ⟨hfound, hnot, hnamed⟩ := hpaths "/info/lfs" id n rfl rfl hspells hne hslash hline
  have hrouted := hfound.2 fun _ => hnot hparameters
  obtain ⟨-, -, -, hrelease, -⟩ := hcalls _ hrouted
  have hbody : parseBody ReleaseRequest.decode true [] = .ok ⟨false, none⟩ := by decide +kernel
  obtain ⟨hmade, -⟩ := hrelease id none ⟨false, none⟩ hnamed rfl hbody
  exact ⟨hrouted, hmade⟩

end Gateway

end Http
end GitLfs
