import GitLfs.Proofs.Http.Address
import GitLfs.Proofs.Http.Admission
import GitLfs.Proofs.Http.Discretion

/-!
# Which repository collaborators are looked up for

Collaborators that are looked up are looked up for the part of the path in front of an endpoint. The
endpoint is cut off from the path as it is shown, and some characters are shown as others or not at
all; so the endpoint is not found at the end when such a character stands in it, and the whole path is
left. `repositoryPath_eq` says when that happens, and `path_of_found` that each endpoint is found where
its mount says. `mounted_repository` says which repository the look-ups of a request are told.
-/

namespace GitLfs

variable {σ : Type}

/-! ## Calls that look something up -/

/-- The repository for which a call has a collaborator looked up. -/
def Call.repository? : Call → Option (Option String)
  | policyFor path => some path
  | storeFor _ path _ => some path
  | keeperFor path => some path
  | _ => none

/-- A call looks nothing up but what belongs to the repository at a path. -/
def Call.Concerns (path : Option String) (call : Call) : Prop :=
  ∀ told, call.repository? = some told → told = path

theorem Call.Concerns.of_none {path : Option String} {call : Call} (h : call.repository? = none) :
    call.Concerns path := by
  intro told htold
  rw [h] at htold
  cases htold

theorem Call.Concerns.of_some {path : Option String} {call : Call}
    (h : call.repository? = some path) : call.Concerns path := by
  intro told htold
  rw [h] at htold
  exact (Option.some.inj htold).symm

theorem Source.concerns_calls {κ α : Type} (source : Source σ κ α) {path : Option String}
    {call : Call} (h : call.repository? = some path) :
    ∀ c ∈ source.calls call, c.Concerns path := by
  intro c hc
  cases source with
  | fixed collaborator => cases hc
  | lookup find =>
    obtain rfl := List.mem_singleton.1 hc
    exact .of_some h

/-- The gate has a policy looked up for the repository that it is asked about. -/
theorem Gate.concerns_plan (policies : PolicySource σ) (path : Option String) (op : Operation)
    (ref user : Option String) (a : σ) :
    ∀ call ∈ Gate.plan policies path op ref user a, call.Concerns path := by
  intro call hcall
  rcases List.mem_append.1 hcall with hcall | hcall
  · exact policies.concerns_calls rfl call hcall
  · have hnone : ∀ call ∈ checkCalls op ref user, call.repository? = none := by
      cases op <;> simp [checkCalls, Call.repository?]
    split at hcall
    · exact .of_none (hnone call hcall)
    · cases hcall

/-- A request to the locking service has everything looked up for its repository. -/
theorem Locking.concerns_plan (s : Locking σ) (task : Task) (a : σ) :
    ∀ call ∈ s.plan task a, call.Concerns task.path := by
  intro call hcall
  rcases List.mem_append.1 hcall with hcall | hcall
  · rcases List.mem_append.1 hcall with hcall | hcall
    · exact Gate.concerns_plan _ _ _ _ _ _ call hcall
    · exact s.keepers.concerns_calls rfl call hcall
  · have hnone : ∀ (keeper : LockKeeper σ) (b : σ), ∀ call ∈ task.deedPlan keeper b,
        call.repository? = none := by
      intro keeper b
      unfold Task.deedPlan Task.keeperCall
      cases task.forced <;> cases task <;> simp [Call.repository?]
    unfold Dialogue.foundPlan at hcall
    split at hcall
    · exact .of_none (hnone _ _ call hcall)
    · cases hcall

/-- Nothing is looked up about an object. -/
theorem ObjectStore.repository?_rowPlan (s : ObjectStore σ) (op : BatchOperation)
    (objects : List RequestedObject) (a : σ) :
    ∀ call ∈ s.rowPlan op objects a, call.repository? = none := by
  have hobject : ∀ o b, ∀ call ∈ s.objectPlan op o b, call.repository? = none := by
    intro o b call hcall
    rcases List.mem_cons.1 hcall with rfl | hcall
    · rfl
    · have hoffer : ∀ absent, ∀ call ∈ offerCalls op o absent, call.repository? = none := by
        intro absent
        cases op <;> cases absent <;> simp [offerCalls, Call.repository?]
      split at hcall
      · exact hoffer _ call hcall
      · cases hcall
  induction objects generalizing a with
  | nil =>
    intro call hcall
    cases hcall
  | cons o rest ih =>
    intro call hcall
    rcases List.mem_append.1 hcall with hcall | hcall
    · exact hobject o a call hcall
    · exact ih _ call hcall

/-- A request to the batch service has everything looked up for its repository. -/
theorem Exchange.concerns_plan (x : Exchange σ) (task : Task) (a : σ) :
    ∀ call ∈ x.plan task a, call.Concerns task.path := by
  intro call hcall
  rcases List.mem_append.1 hcall with hcall | hcall
  · rcases List.mem_append.1 hcall with hcall | hcall
    · exact Gate.concerns_plan _ _ _ _ _ _ call hcall
    · exact x.stores.concerns_calls rfl call hcall
  · unfold Dialogue.foundPlan at hcall
    split at hcall
    · exact .of_none (ObjectStore.repository?_rowPlan _ _ _ _ call hcall)
    · cases hcall

namespace Http

/-! ## How paths are shown -/

/-- The character stands for itself in a path that is shown. -/
def isVerbatim (c : Char) : Bool := !(['?', '#', '\\', '\t', '\n', '\r'].contains c)

/-- What a character of a path is shown as. -/
def shownAs (c : Char) : List Char :=
  (if c = '?' then "%3F".toList
    else if c = '#' then "%23".toList
    else if c = '\\' then "%5C".toList
    else [c]).filter fun c => c ≠ '\t' ∧ c ≠ '\n' ∧ c ≠ '\r'

theorem shownAs_of_isVerbatim {c : Char} (h : isVerbatim c) : shownAs c = [c] := by
  simp only [isVerbatim, Bool.not_eq_true', List.contains_eq_mem, decide_eq_false_iff_not,
    List.mem_cons, List.not_mem_nil, or_false, not_or] at h
  obtain ⟨hquery, hfragment, hback, htab, hline, hreturn⟩ := h
  simp [shownAs, hquery, hfragment, hback, htab, hline, hreturn]

/-- Nothing that would have to be shown as something else is left in what is shown. -/
theorem isVerbatim_of_mem_shownAs {c d : Char} (h : d ∈ shownAs c) : isVerbatim d := by
  have hescapes : ∀ d ∈ "%3F".toList ++ "%23".toList ++ "%5C".toList, isVerbatim d :=
    List.all_eq_true.1 (by decide)
  obtain ⟨hd, hkept⟩ := List.mem_filter.1 h
  split at hd
  · exact hescapes d (List.mem_append_left _ (List.mem_append_left _ hd))
  · split at hd
    · exact hescapes d (List.mem_append_left _ (List.mem_append_right _ hd))
    · split at hd
      · exact hescapes d (List.mem_append_right _ hd)
      · obtain rfl := List.mem_singleton.1 hd
        simp_all [isVerbatim]

theorem flatMap_shownAs {s : List Char} (h : ∀ c ∈ s, isVerbatim c) : s.flatMap shownAs = s := by
  induction s with
  | nil => rfl
  | cons c s ih =>
    rw [List.flatMap_cons, shownAs_of_isVerbatim (h c List.mem_cons_self),
      ih fun d hd => h d (List.mem_cons_of_mem _ hd)]
    rfl

/-- There is no text, or it starts with a slash. -/
def IsRooted (s : List Char) : Prop := s = [] ∨ s.head? = some '/'

theorem IsRooted.append {s t : List Char} (hs : IsRooted s) (ht : t.head? = some '/') :
    IsRooted (s ++ t) := by
  right
  rcases hs with rfl | hs
  · exact ht
  · rw [List.head?_append, hs]
    rfl

/-- A path that has the slash in front is shown character by character. -/
theorem toList_shownPath {path : String} (h : IsRooted path.toList) :
    (shownPath path).toList = path.toList.flatMap shownAs := by
  unfold shownPath addressPath
  rw [String.toList_ofList, String.toList_ofList]
  generalize path.toList = s at h ⊢
  rcases s with _ | ⟨c, s⟩
  · rfl
  · obtain rfl : c = '/' := by simpa [IsRooted] using h
    rw [List.flatMap_cons, List.flatMap_cons]
    exact congrArg ('/' :: ·) List.filter_flatMap

/-- In front of an endpoint whose characters are shown as they are stands its mount. Any other endpoint
is not found in the path as it is shown, and the whole path is left. -/
theorem repositoryPath_eq {path mount endpoint : String} {more : List Char}
    (hpath : path.toList = (mount ++ endpoint).toList ++ more)
    (hmore : more = [] ∨ more = ['\n']) (hrooted : IsRooted mount.toList)
    (hmount : ∀ c ∈ mount.toList, isVerbatim c) (hendpoint : endpoint.toList.head? = some '/') :
    ((∀ c ∈ endpoint.toList, isVerbatim c) → repositoryPath path endpoint = mount) ∧
      ((∃ c ∈ endpoint.toList, isVerbatim c = false) →
        repositoryPath path endpoint = shownPath path ∧ shownPath path ≠ mount) := by
  rw [String.toList_append, List.append_assoc] at hpath
  have hslash : (endpoint.toList ++ more).head? = some '/' := by
    rw [List.head?_append, hendpoint]
    rfl
  have hmore' : more.flatMap shownAs = [] := by
    rcases hmore with rfl | rfl <;> rfl
  have hshown : (shownPath path).toList = mount.toList ++ endpoint.toList.flatMap shownAs := by
    have hpathRooted : IsRooted path.toList := hpath ▸ hrooted.append hslash
    rw [toList_shownPath hpathRooted, hpath, List.flatMap_append, List.flatMap_append,
      flatMap_shownAs hmount, hmore', List.append_nil]
  unfold repositoryPath
  dsimp only
  refine ⟨fun hplain => ?_, fun ⟨c, hc, hcv⟩ => ⟨if_neg fun hsuffix => ?_, fun hsame => ?_⟩⟩
  · rw [flatMap_shownAs hplain] at hshown
    rw [hshown, if_pos (List.isSuffixOf_iff_suffix.2 (List.suffix_append _ _)), List.length_append,
      Nat.add_sub_cancel, List.take_left, String.ofList_toList]
  · -- what is shown has no such character, so it does not end in one
    have hmem : c ∈ (shownPath path).toList := (List.isSuffixOf_iff_suffix.1 hsuffix).subset hc
    have hverbatim : isVerbatim c = true := by
      rw [hshown, List.mem_append] at hmem
      rcases hmem with hmem | hmem
      · exact hmount c hmem
      · obtain ⟨d, -, hd⟩ := List.mem_flatMap.1 hmem
        exact isVerbatim_of_mem_shownAs hd
    exact absurd hverbatim (by rw [hcv]; decide)
  · -- the slash in front of the endpoint is shown
    rw [hsame] at hshown
    have hnil : endpoint.toList.flatMap shownAs = [] := List.self_eq_append_right.1 hshown
    have hmem : '/' ∈ endpoint.toList := List.mem_of_head? hendpoint
    have hshowing : shownAs '/' = [] := List.flatMap_eq_nil_iff.1 hnil '/' hmem
    cases hshowing

/-! ## Where endpoints are -/

namespace Endpoint

/-- The mount below which an endpoint lies; the health endpoint lies below none. -/
def mountIn (batchMount lockMount : String) : Endpoint → String
  | batch => batchMount
  | listLocks | listBelow | createLock | verifyLocks | releaseLock => lockMount
  | health => ""

/-- The path of an endpoint below its mount; `tail` is the rest of a path below that of all locks. -/
def path (tail : String) : Endpoint → String
  | batch => batchPath
  | listLocks | createLock => locksPath
  | verifyLocks => verifyPath
  | listBelow | releaseLock => locksPath ++ "/" ++ tail
  | health => healthPath

end Endpoint

/-- The mount that is made of a path lacks no slash in front. -/
theorem isRooted_of_mountOf {path : String} {endpoints : List String} {mount : Mount}
    (h : Gateway.mountOf path endpoints = .ok mount) : IsRooted path.toList := by
  unfold Gateway.mountOf at h
  dsimp only at h
  split at h
  · cases h
  · next hpath =>
    rcases hchars : path.toList with _ | ⟨c, rest⟩
    · exact Or.inl rfl
    · right
      have hslash : '/' = c := by
        simp [hchars] at hpath
        exact hpath.1.1
      rw [hslash, List.head?_cons]

section

variable {batchMount lockMount method path tail : String} {endpoint : Endpoint}

/-- A path that fits an endpoint without parameters is the mount and the endpoint. -/
theorem path_of_fit?_fixed (mount fixed : String) {found : List (String × String)}
    (hmount : '\x7b' ∉ mount.toList) (hfixed : '\x7b' ∉ fixed.toList)
    (h : (Pattern.ofText mount ++ Pattern.ofText fixed).fit? path.toList = some found) :
    ∃ more, (more = [] ∨ more = ['\n']) ∧ path.toList = (mount ++ fixed).toList ++ more := by
  rw [Pattern.ofText_of_notMem hmount, Pattern.ofText_of_notMem hfixed, ← List.map_append,
    Pattern.fit?_chars] at h
  by_cases hpath : path.toList = mount.toList ++ fixed.toList ∨
      path.toList = mount.toList ++ fixed.toList ++ ['\n']
  · rw [String.toList_append]
    rcases hpath with hpath | hpath
    · exact ⟨[], Or.inl rfl, by rw [hpath, List.append_nil]⟩
    · exact ⟨['\n'], Or.inr rfl, hpath⟩
  · rw [if_neg hpath] at h
    cases h

/-- A path that fits below all locks is the mount, the path of all locks and what the parameter is. -/
theorem path_of_fit?_below {mount : String} {found : List (String × String)}
    (hmount : '\x7b' ∉ mount.toList)
    (h : (Pattern.ofText mount ++ Pattern.ofText belowLocksPath).fit? path.toList = some found) :
    ∃ more, (more = [] ∨ more = ['\n']) ∧ path.toList =
      (mount ++ (locksPath ++ "/" ++ (found.lookup Route.tailName).getD "")).toList ++ more := by
  rw [Pattern.ofText_of_notMem hmount, ofText_belowLocksPath] at h
  obtain ⟨rest, hrest, hfit⟩ := Pattern.exists_of_fit?_chars_append h
  obtain ⟨last, rfl, hfit⟩ := Pattern.exists_of_fit?_chars_append hfit
  obtain ⟨text, more, rfl, hmore, rfl⟩ := Pattern.exists_of_fit?_rest hfit
  have hlookup : (List.lookup Route.tailName [(Route.tailName, String.ofList text)]).getD "" =
      String.ofList text := by
    simp
  refine ⟨more, hmore, ?_⟩
  rw [hrest, hlookup]
  simp [locksPath]

/-- Below mounts without parameters, a request comes to an endpoint at the path of the endpoint, behind
which a line break may stand. -/
theorem path_of_found (hbatch : '\x7b' ∉ batchMount.toList) (hlock : '\x7b' ∉ lockMount.toList)
    (h : route (routes (Pattern.ofText batchMount) (Pattern.ofText lockMount)) method path =
      .found endpoint tail) :
    ∃ more, (more = [] ∨ more = ['\n']) ∧
      path.toList = (endpoint.mountIn batchMount lockMount ++ endpoint.path tail).toList ++ more := by
  obtain ⟨rt, hrt, rfl, -, htail⟩ := exists_of_route_found h
  obtain ⟨found, hfit, rfl⟩ := Option.map_eq_some_iff.1 htail
  simp only [routes, List.mem_cons, List.not_mem_nil, or_false] at hrt
  rcases hrt with rfl | rfl | rfl | rfl | rfl | rfl | rfl
  · exact path_of_fit?_fixed batchMount batchPath hbatch (by decide) hfit
  · exact path_of_fit?_fixed lockMount locksPath hlock (by decide) hfit
  · exact path_of_fit?_below hlock hfit
  · exact path_of_fit?_fixed lockMount locksPath hlock (by decide) hfit
  · exact path_of_fit?_fixed lockMount verifyPath hlock (by decide) hfit
  · exact path_of_fit?_below hlock hfit
  · exact path_of_fit?_fixed "" healthPath (by decide) (by decide) hfit

end

/-! ## Which repository a request is about -/

/-- The repository that a demand is about. -/
def Demand.path : Demand → Option String
  | .batch task => task.path
  | .locks task => task.path

/-- A request is about the repository at the part of its path in front of the endpoint. -/
theorem Asks.path_eq {r : Request} {endpoint : Endpoint} {tail : String} {demand : Demand}
    (h : Asks r endpoint tail demand) :
    demand.path = some (repositoryPath r.path (endpoint.path tail)) := by
  cases h <;> rfl

namespace Gateway

variable {g : Gateway σ} {r : Request} {endpoint : Endpoint} {tail : String} {demand : Demand}

/-- Where the policy for a demand is found. -/
def policies (g : Gateway σ) : Demand → PolicySource σ
  | .batch _ => g.exchange.policies
  | .locks _ => g.locking.policies

/-- Everything is looked up for the repository that a demand is about. -/
theorem concerns_calls (g : Gateway σ) (demand : Demand) (a : σ) :
    ∀ call ∈ ((g.dialogue demand).hold a).calls, call.Concerns demand.path := by
  intro call hcall
  cases demand with
  | batch task =>
    rw [dialogue, Dialogue.calls_andThen_close] at hcall
    exact g.exchange.concerns_plan task a call
      ((g.exchange.heeds_dialogue task a).isPrefix.subset hcall)
  | locks task =>
    have hfollows : ((g.locking.dialogue task).hold a).Follows (g.locking.plan task a) :=
      Dialogue.follows_withFound (g.locking.carriesOut_approach task a) fun keeper b =>
        Locking.carriesOut_deed keeper task b
    rw [dialogue, Dialogue.calls_map] at hcall
    exact g.locking.concerns_plan task a call (hfollows.isPrefix.subset hcall)

/-- Where policies are looked up, that is the first call. -/
theorem head?_calls {find : Option String → Query σ (Option (AccessPolicy σ))}
    (h : g.policies demand = .lookup find) (a : σ) :
    ((g.dialogue demand).hold a).calls.head? = some (.policyFor demand.path) := by
  have hgate : ∀ (policies : PolicySource σ) (path : Option String) (op : Operation)
      (ref user : Option String), policies = .lookup find →
        ((Gate.dialogue policies path op ref user).hold a).calls.head? =
          some (.policyFor path) := by
    rintro policies path op ref user rfl
    refine Dialogue.head?_andThen ?_ _
    rcases hfind : perform (find path) ⟨a, []⟩ with ⟨e | found, scene⟩
    · rw [Source.dialogue, Dialogue.single, Dialogue.hold_ask_error hfind]
      rfl
    · rw [Source.dialogue, Dialogue.single, Dialogue.hold_ask_ok hfind]
      rfl
  cases demand with
  | batch task =>
    rw [dialogue, Dialogue.calls_andThen_close]
    exact Dialogue.head?_andThen (Dialogue.head?_andThen (hgate _ _ _ _ _ h) _) _
  | locks task =>
    rw [dialogue, Dialogue.calls_map]
    exact Dialogue.head?_andThen (Dialogue.head?_andThen (hgate _ _ _ _ _ h) _) _

/-- The calls of a request that asks for something. -/
theorem calls_of_asks (hrouted : g.routing r = .found endpoint tail)
    (h : Asks r endpoint tail demand) (fresh : String) (p : Progress σ) :
    (perform (g.serve fresh r) p).2.calls =
      p.calls ++ ((g.dialogue demand).hold p.state).calls := by
  obtain ⟨q, hq, -, hcalls⟩ := serve_of_asks hrouted h fresh p
  obtain ⟨-, -, hfulfil⟩ := g.holds_fulfil demand (started fresh r p)
  rw [hq, hcalls, hfulfil, calls_started, state_started]

/-- Which repository the part of a path in front of an endpoint is. -/
theorem repositoryPath_of_found {batchMount lockMount : String}
    (hbatch : mountOf batchMount [batchPath] = .ok g.batchMount)
    (hlocks : mountOf lockMount [locksPath, belowLocksPath] = .ok g.lockMount)
    (hplain : ∀ c ∈ batchMount.toList ++ lockMount.toList, isVerbatim c ∧ c ≠ '\x7b')
    (hrouted : g.routing r = .found endpoint tail) (hendpoint : endpoint ≠ .health) :
    let told := repositoryPath r.path (endpoint.path tail)
    let mount := endpoint.mountIn batchMount lockMount
    ((∀ c ∈ (endpoint.path tail).toList, isVerbatim c) → told = mount) ∧
      ((∃ c ∈ (endpoint.path tail).toList, isVerbatim c = false) →
        told = shownPath r.path ∧ shownPath r.path ≠ mount) := by
  have hbrace : ∀ mount : String, (∀ c ∈ mount.toList, isVerbatim c ∧ c ≠ '\x7b') →
      '\x7b' ∉ mount.toList := fun mount h hmem => (h _ hmem).2 rfl
  have hplainBatch : ∀ c ∈ batchMount.toList, isVerbatim c ∧ c ≠ '\x7b' :=
    fun c hc => hplain c (List.mem_append_left _ hc)
  have hplainLock : ∀ c ∈ lockMount.toList, isVerbatim c ∧ c ≠ '\x7b' :=
    fun c hc => hplain c (List.mem_append_right _ hc)
  unfold routing at hrouted
  rw [(mountOf_eq_ok hbatch).1, (mountOf_eq_ok hlocks).1] at hrouted
  obtain ⟨more, hmore, hpath⟩ :=
    path_of_found (hbrace _ hplainBatch) (hbrace _ hplainLock) hrouted
  have hmount : IsRooted (endpoint.mountIn batchMount lockMount).toList ∧
      ∀ c ∈ (endpoint.mountIn batchMount lockMount).toList, isVerbatim c := by
    have hbatchMount := And.intro (isRooted_of_mountOf hbatch) fun c hc => (hplainBatch c hc).1
    have hlockMount := And.intro (isRooted_of_mountOf hlocks) fun c hc => (hplainLock c hc).1
    cases endpoint with
    | batch => exact hbatchMount
    | health => exact absurd rfl hendpoint
    | _ => exact hlockMount
  have hslash : (endpoint.path tail).toList.head? = some '/' := by
    cases endpoint <;> simp [Endpoint.path, batchPath, locksPath, verifyPath, healthPath]
  exact repositoryPath_eq hpath hmore hmount.1 hmount.2 hslash

/-- The characters of the path at which a lock is released are shown as they are when those of its
identifier are. -/
theorem isVerbatim_path_iff {tail id : String} (h : Lock.idOfUnlockPath tail = .ok id) :
    (∀ c ∈ (Endpoint.releaseLock.path tail).toList, isVerbatim c) ↔
      ∀ c ∈ id.toList, isVerbatim c := by
  obtain ⟨slashes, htail, hslash⟩ := toList_of_idOfUnlockPath h
  have hpath : (Endpoint.releaseLock.path tail).toList =
      "/locks/".toList ++ (id.toList ++ "/unlock".toList ++ slashes) := by
    simp [Endpoint.path, locksPath, htail]
  have hfront : ∀ c ∈ "/locks/".toList, isVerbatim c := List.all_eq_true.1 (by decide)
  have hword : ∀ c ∈ "/unlock".toList, isVerbatim c := List.all_eq_true.1 (by decide)
  have hend : ∀ c ∈ slashes, isVerbatim c := fun c hc => by rw [hslash c hc]; rfl
  rw [hpath]
  constructor
  · intro hall c hc
    exact hall c (by simp [hc])
  · intro hid c hc
    simp only [List.mem_append] at hc
    rcases hc with hc | (hc | hc) | hc
    · exact hfront c hc
    · exact hid c hc
    · exact hword c hc
    · exact hend c hc

/-- Everything that is looked up for a request is looked up for the part of its path in front of the
endpoint, and the policy before anything else. -/
theorem calls_of_found (hrouted : g.routing r = .found endpoint tail) (hendpoint : endpoint ≠ .health)
    (fresh : String) (p : Progress σ) :
    let told := repositoryPath r.path (endpoint.path tail)
    ∃ calls, (perform (g.serve fresh r) p).2.calls = p.calls ++ calls ∧
      (∀ call ∈ calls, call.Concerns (some told)) ∧
      ∀ demand find, Asks r endpoint tail demand → g.policies demand = .lookup find →
        calls.head? = some (.policyFor (some told)) := by
  intro told
  cases hfault : firstFault? r endpoint tail with
  | some e =>
    obtain ⟨response, q, -, hq, -, hcalls⟩ := serve_of_fault hrouted hfault fresh p
    refine ⟨[], ?_, ?_, fun demand find h => ?_⟩
    · rw [hq, hcalls, List.append_nil]
    · intro call hcall
      cases hcall
    · rw [h.firstFault?_eq_none] at hfault
      cases hfault
  | none =>
    obtain ⟨demand, hasks⟩ := exists_asks hendpoint hfault
    refine ⟨_, calls_of_asks hrouted hasks fresh p, fun call hcall => ?_,
      fun demand' find hasks' hfind => ?_⟩
    · have hconcerns := g.concerns_calls demand p.state call hcall
      rwa [hasks.path_eq] at hconcerns
    · have hsame := (calls_of_asks hrouted hasks fresh p).symm.trans
        (calls_of_asks hrouted hasks' fresh p)
      rw [List.append_cancel_left hsame, head?_calls hfind, hasks'.path_eq]

/-- The paths of endpoints that name no lock are shown as they are. -/
theorem isVerbatim_path (hendpoint : endpoint ≠ .health) (hrelease : endpoint ≠ .releaseLock)
    (hbelow : endpoint ≠ .listBelow) : ∀ c ∈ (endpoint.path tail).toList, isVerbatim c := by
  have hfixed : ∀ c ∈ batchPath.toList ++ locksPath.toList ++ verifyPath.toList, isVerbatim c :=
    List.all_eq_true.1 (by decide)
  intro c hc
  refine hfixed c ?_
  cases endpoint with
  | releaseLock => exact absurd rfl hrelease
  | listBelow => exact absurd rfl hbelow
  | health => exact absurd rfl hendpoint
  | batch => exact List.mem_append_left _ (List.mem_append_left _ hc)
  | listLocks | createLock => exact List.mem_append_left _ (List.mem_append_right _ hc)
  | verifyLocks => exact List.mem_append_right _ hc

/-- Below mounts that are shown as they are, everything that is looked up for a request is looked up
for one repository, and the policy before anything else. For a batch and for each request about locks
that names none in its path, that repository is the mount. For a request to release a lock it is the
mount exactly when the identifier of the lock is shown as it is; otherwise it is the whole path. -/
theorem mounted_repository (g : Gateway σ) {batchMount lockMount : String}
    (hbatch : mountOf batchMount [batchPath] = .ok g.batchMount)
    (hlocks : mountOf lockMount [locksPath, belowLocksPath] = .ok g.lockMount)
    (hplain : ∀ c ∈ batchMount.toList ++ lockMount.toList, isVerbatim c ∧ c ≠ '\x7b')
    (hrouted : g.routing r = .found endpoint tail) (hendpoint : endpoint ≠ .health)
    (fresh : String) (p : Progress σ) :
    let mount := endpoint.mountIn batchMount lockMount
    let told := repositoryPath r.path (endpoint.path tail)
    (∃ calls, (perform (g.serve fresh r) p).2.calls = p.calls ++ calls ∧
      (∀ call ∈ calls, call.Concerns (some told)) ∧
      ∀ demand find, Asks r endpoint tail demand → g.policies demand = .lookup find →
        calls.head? = some (.policyFor (some told))) ∧
    (endpoint ≠ .releaseLock → endpoint ≠ .listBelow → told = mount) ∧
    ∀ id, endpoint = .releaseLock → Lock.idOfUnlockPath tail = .ok id →
      (told = mount ↔ ∀ c ∈ id.toList, isVerbatim c) ∧ (told ≠ mount → told = shownPath r.path) := by
  intro mount told
  obtain ⟨hmount, hwhole⟩ := repositoryPath_of_found hbatch hlocks hplain hrouted hendpoint
  refine ⟨calls_of_found hrouted hendpoint fresh p, ?_, ?_⟩
  · intro hrelease hbelow
    exact hmount (isVerbatim_path hendpoint hrelease hbelow)
  · rintro id rfl hid
    rw [isVerbatim_path_iff hid] at hmount
    by_cases hverbatim : ∀ c ∈ id.toList, isVerbatim c
    · have htold : told = mount := hmount hverbatim
      exact ⟨⟨fun _ => hverbatim, fun _ => htold⟩, fun hne => absurd htold hne⟩
    · have hchar : ∃ c ∈ (Endpoint.releaseLock.path tail).toList, isVerbatim c = false := by
        rw [← isVerbatim_path_iff hid] at hverbatim
        simpa using hverbatim
      obtain ⟨htold, hne⟩ := hwhole hchar
      refine ⟨⟨fun hsame => ?_, fun h => absurd h hverbatim⟩, fun _ => htold⟩
      exact absurd (htold.symm.trans hsame) hne

/-! ## A gateway that knows one repository -/

/-- A gateway that looks policies and lock keepers up. It knows of one repository, which one person may
write, and of no policy for any other. -/
def depot : Gateway World :=
  { lodge with
    locking :=
      { policies := .lookup fun path => pure <|
          if path = some "/info/lfs" then some (Roster.policy ⟨["alice"], none, false⟩) else none
        keepers := .lookup fun _ => pure (some (Registry.sample.inWorld none)) } }

/-- A slash too many makes no difference: the policy for the repository that is mounted decides. -/
theorem mounted_repository_depot :
    let request : Request :=
      ⟨"POST", "/info/lfs/locks/i/unlock/", "", [], [], some ⟨true, some "alice"⟩⟩
    mountOf "/info/lfs" [batchPath] = .ok depot.batchMount ∧
      mountOf "/info/lfs" [locksPath, belowLocksPath] = .ok depot.lockMount ∧
      (∀ c ∈ "/info/lfs".toList ++ "/info/lfs".toList, isVerbatim c ∧ c ≠ '\x7b') ∧
      depot.routing request = .found .releaseLock "i/unlock/" ∧ Endpoint.releaseLock ≠ .health ∧
      repositoryPath request.path (Endpoint.releaseLock.path "i/unlock/") = "/info/lfs" ∧
      (perform (depot.serve "visit" request) (.start World.empty .debug)).2.calls.head? =
        some (.policyFor (some "/info/lfs")) := by
  intro request
  have hbatch : mountOf "/info/lfs" [batchPath] = .ok depot.batchMount := batchMount_settings
  have hlocks : mountOf "/info/lfs" [locksPath, belowLocksPath] = .ok depot.lockMount :=
    locksMount_settings
  have hplain : ∀ c ∈ "/info/lfs".toList ++ "/info/lfs".toList, isVerbatim c ∧ c ≠ '\x7b' := by
    have hall : ("/info/lfs".toList ++ "/info/lfs".toList).all
        (fun c => isVerbatim c && c != '\x7b') = true := by
      decide
    intro c hc
    simpa using List.all_eq_true.1 hall c hc
  have hrouted : depot.routing request = .found .releaseLock "i/unlock/" := by decide +kernel
  have hendpoint : Endpoint.releaseLock ≠ .health := by decide
  obtain ⟨⟨calls, hcalls, -, hfirst⟩, -, hrelease⟩ :=
    mounted_repository depot hbatch hlocks hplain hrouted hendpoint "visit"
      (.start World.empty .debug)
  have hid : Lock.idOfUnlockPath "i/unlock/" = .ok "i" := by decide +kernel
  have htold := (hrelease "i" rfl hid).1.2 (List.all_eq_true.1 (by decide))
  obtain ⟨demand, hasks⟩ := exists_asks hendpoint
    (show firstFault? request .releaseLock "i/unlock/" = none by decide +kernel)
  obtain ⟨find, hfind⟩ : ∃ find, depot.policies demand = .lookup find := by
    cases hasks
    exact ⟨_, rfl⟩
  refine ⟨hbatch, hlocks, hplain, hrouted, hendpoint, htold, ?_⟩
  have hpolicy := hfirst demand find hasks hfind
  rw [htold] at hpolicy
  rw [hcalls]
  exact hpolicy

/-- For a lock whose identifier has a question mark, the policy is looked up for a repository that the
gateway does not know. So there is none, and no policy is asked before the lock keeper is. -/
theorem depot_unknown_repository :
    let request : Request := ⟨"POST", "/info/lfs/locks/a?b/unlock", "", [], [], none⟩
    let told := some "/info/lfs/locks/a%3Fb/unlock"
    depot.routing request = .found .releaseLock "a?b/unlock" ∧
      Lock.idOfUnlockPath "a?b/unlock" = .ok "a?b" ∧
      (perform (depot.serve "visit" request) (.start World.empty .debug)).2.calls =
        [.policyFor told, .keeperFor told, .deleteLock "a?b" none none false] := by
  decide +kernel

end Gateway

end Http

end GitLfs
