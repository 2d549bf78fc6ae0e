import GitLfs.Deployment
import GitLfs.Proofs.Http.Pattern
import GitLfs.Proofs.Lock.Naming

/-!
# Which route a request takes

Locks are made at `IsLocksPath` and released at `IsUnlockPath`. Several routes can fit one path, as
a mount may have parameters for any number of segments; still a path for releasing a lock is told
apart from all other paths for the same method by how it ends: `IsUnlockPath.found`. For that no
parameter of the mount may have the name of the parameter for the rest of the path; no gateway is
made from settings with such a mount.
-/

namespace GitLfs.Http

/-! ## Mounts -/

/-- The path is that of all locks below a mount. -/
def IsLocksPath (mount path : String) : Prop :=
  ((Pattern.ofText (mount ++ locksPath)).fit? path.toList).isSome

/-- The path is the one at which the lock with an identifier is released, below a mount. Slashes at
its end do not matter. -/
def IsUnlockPath (mount path id : String) : Prop :=
  ∃ found tail, (Pattern.ofText (mount ++ belowLocksPath)).fit? path.toList = some found ∧
    found.lookup Route.tailName = some tail ∧ Lock.idOfUnlockPath tail = .ok id

theorem mountOf_eq_ok {path : String} {endpoints : List String} {mount : Mount}
    (h : Gateway.mountOf path endpoints = .ok mount) :
    mount = Pattern.ofText path ∧
      ∀ e ∈ endpoints, (Pattern.ofText (path ++ e)).repeatedNames = [] := by
  unfold Gateway.mountOf at h
  dsimp only at h
  split at h
  · cases h
  · split at h
    · cases h
    · next hnone =>
      refine ⟨(Except.ok.inj h).symm, fun e he => ?_⟩
      have := List.findSome?_eq_none_iff.1 hnone e he
      unfold Gateway.repeatedBelow? at this
      split at this
      · next hnil => exact hnil
      · cases this

/-- In a pattern without repeated names each name stands once. -/
theorem count_le_of_repeatedNames {p : Pattern} (h : p.repeatedNames = []) (name : String) :
    (p.filterMap Part.name?).count name ≤ 1 := by
  by_cases hmem : name ∈ p.filterMap Part.name?
  · unfold Pattern.repeatedNames at h
    have hlength := congrArg List.length h
    rw [List.length_mergeSort, List.length_nil, List.length_eq_zero_iff,
      List.filter_eq_nil_iff] at hlength
    have := hlength name (List.mem_eraseDups.2 hmem)
    rw [decide_eq_true_eq] at this
    omega
  · rw [List.count_eq_zero_of_not_mem hmem]
    exact Nat.zero_le 1

theorem ofText_mount_locksPath (mount : String) :
    Pattern.ofText (mount ++ locksPath) = Pattern.ofText mount ++ Pattern.ofText locksPath :=
  Pattern.ofText_append mount locksPath (t := "locks".toList) (by decide)

theorem ofText_mount_belowLocksPath (mount : String) :
    Pattern.ofText (mount ++ belowLocksPath) =
      Pattern.ofText mount ++ Pattern.ofText belowLocksPath :=
  Pattern.ofText_append mount belowLocksPath (t := "locks/\x7btail:path\x7d".toList) (by decide)

theorem ofText_belowLocksPath :
    Pattern.ofText belowLocksPath =
      "/locks/".toList.map .char ++ [.parameter Route.tailName .path] := by
  decide

/-- No parameter of the mount of the locks has the name of the parameter for the rest of the path. -/
theorem tailName_notMem {mount : String}
    (h : (Pattern.ofText (mount ++ belowLocksPath)).repeatedNames = []) :
    Route.tailName ∉ (Pattern.ofText mount).filterMap Part.name? := by
  have hcount := count_le_of_repeatedNames h Route.tailName
  rw [ofText_mount_belowLocksPath, ofText_belowLocksPath, List.filterMap_append,
    List.count_append] at hcount
  have hone : (List.count Route.tailName (List.filterMap Part.name?
      ("/locks/".toList.map .char ++ [.parameter Route.tailName .path]))) = 1 := by decide
  rw [hone] at hcount
  exact List.count_eq_zero.1 (by omega)

/-! ## How paths end -/

/-- The rest of the address of a request to release a lock is an identifier, `/unlock` and slashes. -/
theorem toList_of_idOfUnlockPath {tail id : String} (h : Lock.idOfUnlockPath tail = .ok id) :
    ∃ slashes, tail.toList = id.toList ++ "/unlock".toList ++ slashes ∧ ∀ c ∈ slashes, c = '/' := by
  obtain ⟨n, htail⟩ := (Lock.idOfUnlockPath_eq_ok_iff.1 h).eq_append
  exact ⟨List.replicate n '/', htail, fun c hc => List.eq_of_mem_replicate hc⟩

/-- So it ends in `unlock`, or in a slash. -/
theorem last_of_idOfUnlockPath {tail id : String} (h : Lock.idOfUnlockPath tail = .ok id) :
    ∃ front c, tail.toList = front ++ [c] ∧ (c = 'k' ∨ c = '/') := by
  obtain ⟨slashes, htail, hslash⟩ := toList_of_idOfUnlockPath h
  rcases List.eq_nil_or_concat slashes with rfl | ⟨more, c, rfl⟩
  · refine ⟨id.toList ++ "/unloc".toList, 'k', ?_, Or.inl rfl⟩
    rw [htail, List.append_nil, List.append_assoc]
    rfl
  · refine ⟨id.toList ++ "/unlock".toList ++ more, c, ?_, Or.inr (hslash c (by simp))⟩
    rw [htail, List.concat_eq_append, List.append_assoc _ more]

/-- So does the address itself. -/
theorem IsUnlockPath.ends {mount path id : String}
    (hmount : (Pattern.ofText (mount ++ belowLocksPath)).repeatedNames = [])
    (h : IsUnlockPath mount path id) :
    ∃ c, Pattern.EndsIn path.toList [c] ∧ (c = 'k' ∨ c = '/') := by
  obtain ⟨found, tail, hfit, hlookup, hid⟩ := h
  have hname : Route.tailName ∉
      (Pattern.ofText mount ++ "/locks/".toList.map Part.char).filterMap Part.name? := by
    rw [List.filterMap_append, List.mem_append, not_or]
    exact ⟨tailName_notMem hmount, by decide⟩
  rw [ofText_mount_belowLocksPath, ofText_belowLocksPath, ← List.append_assoc] at hfit
  obtain ⟨text, htext, hends⟩ := Pattern.lookup_of_fit?_path hname hfit
  obtain rfl : tail = String.ofList text := Option.some.inj (hlookup.symm.trans htext)
  obtain ⟨front, c, htail, hc⟩ := last_of_idOfUnlockPath hid
  rw [String.toList_ofList] at htail
  rw [htail] at hends
  exact ⟨c, hends.of_append, hc⟩

/-- Where locks are released, no path fits that ends in another way. -/
theorem IsUnlockPath.fit?_eq_none {mount path id : String}
    (hmount : (Pattern.ofText (mount ++ belowLocksPath)).repeatedNames = [])
    (h : IsUnlockPath mount path id) (p : Pattern) {front : List Char} {c : Char}
    (hc : c ≠ 'k' ∧ c ≠ '/' ∧ c ≠ '\n') :
    Pattern.fit? (p ++ (front ++ [c]).map .char) path.toList = none := by
  cases hfit : Pattern.fit? (p ++ (front ++ [c]).map .char) path.toList with
  | none => rfl
  | some found =>
    obtain ⟨d, hends, hd⟩ := h.ends hmount
    have hends' := (Pattern.endsIn_of_fit?_chars hfit).of_append
    have hdn : d ≠ '\n' := by rcases hd with rfl | rfl <;> decide
    obtain rfl := hends.unique hends' hdn hc.2.2
    exact absurd hd (not_or.2 ⟨hc.1, hc.2.1⟩)

/-! ## Routing -/

/-- A request takes a route with its method and a pattern that its path fits. -/
theorem exists_of_route_found {routes : List Route} {method path : String} {endpoint : Endpoint}
    {tail : String} (h : route routes method path = .found endpoint tail) :
    ∃ rt ∈ routes, rt.endpoint = endpoint ∧ rt.method = method ∧ rt.tail? path = some tail := by
  unfold route at h
  split at h
  · next e t hfind =>
    cases h
    obtain ⟨rt, hrt, hsome⟩ := List.exists_of_findSome?_eq_some hfind
    split at hsome
    · next hmethod =>
      obtain ⟨t, ht, he⟩ := Option.map_eq_some_iff.1 hsome
      cases he
      exact ⟨rt, hrt, rfl, hmethod, ht⟩
    · cases hsome
  · split at h
    · cases h
    · split at h <;> cases h

/-- The routes that a request to release a lock might take by its method. -/
theorem mem_routes_post {batchMount lockMount : Mount} {rt : Route}
    (h : rt ∈ routes batchMount lockMount) (hpost : rt.method = "POST") :
    rt.pattern = batchMount ++ Pattern.ofText batchPath ∨
      rt.pattern = lockMount ++ Pattern.ofText locksPath ∨
      rt.pattern = lockMount ++ Pattern.ofText verifyPath ∨
      rt.endpoint = .releaseLock := by
  simp only [routes, List.mem_cons, List.not_mem_nil, or_false] at h
  rcases h with rfl | rfl | rfl | rfl | rfl | rfl | rfl
  · exact Or.inl rfl
  · exact absurd hpost (show "GET" ≠ "POST" by decide)
  · exact absurd hpost (show "GET" ≠ "POST" by decide)
  · exact Or.inr (Or.inl rfl)
  · exact Or.inr (Or.inr (Or.inl rfl))
  · exact Or.inr (Or.inr (Or.inr rfl))
  · exact absurd hpost (show "GET" ≠ "POST" by decide)

/-- What a route is like that leads to an endpoint for making or releasing locks. -/
theorem mem_routes_change {batchMount lockMount : Mount} {rt : Route}
    (h : rt ∈ routes batchMount lockMount) :
    (rt.endpoint = .createLock → rt = ⟨.createLock, "POST", lockMount ++ Pattern.ofText locksPath⟩) ∧
      (rt.endpoint = .releaseLock →
        rt = ⟨.releaseLock, "POST", lockMount ++ Pattern.ofText belowLocksPath⟩) := by
  simp only [routes, List.mem_cons, List.not_mem_nil, or_false] at h
  rcases h with rfl | rfl | rfl | rfl | rfl | rfl | rfl <;> simp

section

variable {batchMount mount method path tail id : String}

/-- Locks are made at the path of all locks. -/
theorem IsLocksPath.of_found
    (h : route (routes (Pattern.ofText batchMount) (Pattern.ofText mount)) method path =
      .found .createLock tail) : method = "POST" ∧ IsLocksPath mount path := by
  obtain ⟨rt, hrt, hendpoint, hmethod, htail⟩ := exists_of_route_found h
  obtain rfl := (mem_routes_change hrt).1 hendpoint
  refine ⟨hmethod.symm, ?_⟩
  obtain ⟨found, hfit, -⟩ := Option.map_eq_some_iff.1 htail
  unfold IsLocksPath
  rw [ofText_mount_locksPath, hfit]
  rfl

/-- Locks are released at the paths for that. -/
theorem IsUnlockPath.of_found
    (h : route (routes (Pattern.ofText batchMount) (Pattern.ofText mount)) method path =
      .found .releaseLock tail) (hid : Lock.idOfUnlockPath tail = .ok id) :
    method = "POST" ∧ IsUnlockPath mount path id := by
  obtain ⟨rt, hrt, hendpoint, hmethod, htail⟩ := exists_of_route_found h
  obtain rfl := (mem_routes_change hrt).2 hendpoint
  refine ⟨hmethod.symm, ?_⟩
  obtain ⟨found, hfit, htext⟩ := Option.map_eq_some_iff.1 htail
  cases hlookup : found.lookup Route.tailName with
  | none =>
    rw [hlookup, Option.getD_none] at htext
    rw [← htext] at hid
    cases hid
  | some text =>
    rw [hlookup, Option.getD_some] at htext
    rw [htext] at hlookup
    refine ⟨found, tail, ?_, hlookup, hid⟩
    rw [ofText_mount_belowLocksPath, hfit]

/-- A request to such a path releases a lock, and no other than the one that it names. -/
theorem IsUnlockPath.found
    (hmount : (Pattern.ofText (mount ++ belowLocksPath)).repeatedNames = [])
    (hpath : IsUnlockPath mount path id) {endpoint : Endpoint}
    (h : route (routes (Pattern.ofText batchMount) (Pattern.ofText mount)) "POST" path =
      .found endpoint tail) : endpoint = .releaseLock ∧ Lock.idOfUnlockPath tail = .ok id := by
  obtain ⟨rt, hrt, hendpoint, hmethod, htail⟩ := exists_of_route_found h
  obtain ⟨found, hfit, htext⟩ := Option.map_eq_some_iff.1 htail
  -- no other path for this method ends like the one for releasing locks
  have hno : ∀ (p : Pattern) (front : List Char) (c : Char), c ≠ 'k' ∧ c ≠ '/' ∧ c ≠ '\n' →
      rt.pattern ≠ p ++ (front ++ [c]).map .char := by
    intro p front c hc he
    rw [he, hpath.fit?_eq_none hmount p hc] at hfit
    cases hfit
  have hrelease : rt.endpoint = .releaseLock := by
    rcases mem_routes_post hrt hmethod with hp | hp | hp | hp
    · exact absurd hp (hno _ "/objects/batc".toList 'h' (by decide))
    · exact absurd hp (hno _ "/lock".toList 's' (by decide))
    · exact absurd hp (hno _ "/locks/verif".toList 'y' (by decide))
    · exact hp
  refine ⟨hendpoint.symm.trans hrelease, ?_⟩
  obtain ⟨found', tail', hfit', hlookup, hid⟩ := hpath
  rw [ofText_mount_belowLocksPath] at hfit'
  rw [(mem_routes_change hrt).2 hrelease] at hfit
  obtain rfl : found' = found := Option.some.inj (hfit'.symm.trans hfit)
  rw [hlookup, Option.getD_some] at htext
  rw [← htext]
  exact hid

end

/-! ## Requests that change no lock -/

/-- The path is that of the batch endpoint below a mount. -/
def IsBatchPath (mount path : String) : Prop :=
  ((Pattern.ofText mount ++ Pattern.ofText batchPath).fit? path.toList).isSome

/-- The path is that of the locks that matter before a push, below a mount. -/
def IsVerifyPath (mount path : String) : Prop :=
  ((Pattern.ofText mount ++ Pattern.ofText verifyPath).fit? path.toList).isSome

/-- Paths that end in different characters do not fit one another's patterns. -/
theorem fit?_eq_none_of_ends {p q : Pattern} {front t s : List Char} {c d : Char}
    (h : (Pattern.fit? (p ++ (front ++ [c]).map .char) s).isSome)
    (hcd : c ≠ d ∧ c ≠ '\n' ∧ d ≠ '\n') :
    Pattern.fit? (q ++ (t ++ [d]).map .char) s = none := by
  obtain ⟨found, hfit⟩ := Option.isSome_iff_exists.1 h
  cases hfit' : Pattern.fit? (q ++ (t ++ [d]).map .char) s with
  | none => rfl
  | some found' =>
    have hends := (Pattern.endsIn_of_fit?_chars hfit).of_append
    have hends' := (Pattern.endsIn_of_fit?_chars hfit').of_append
    exact absurd (hends.unique hends' hcd.2.1 hcd.2.2) hcd.1

section

variable {batchMount mount path : String}

/-- A batch request is answered as one. -/
theorem IsBatchPath.found (h : IsBatchPath batchMount path) :
    ∃ tail, route (routes (Pattern.ofText batchMount) (Pattern.ofText mount)) "POST" path =
      .found .batch tail := by
  obtain ⟨found, hfit⟩ := Option.isSome_iff_exists.1 h
  refine ⟨(found.lookup Route.tailName).getD "", ?_⟩
  simp [route, routes, Route.tail?, hfit]

/-- A request for locks is answered as one. -/
theorem IsLocksPath.found (h : IsLocksPath mount path) :
    ∃ tail, route (routes (Pattern.ofText batchMount) (Pattern.ofText mount)) "GET" path =
      .found .listLocks tail := by
  unfold IsLocksPath at h
  rw [ofText_mount_locksPath] at h
  obtain ⟨found, hfit⟩ := Option.isSome_iff_exists.1 h
  refine ⟨(found.lookup Route.tailName).getD "", ?_⟩
  simp [route, routes, Route.tail?, hfit]

/-- A request for the locks that matter before a push is answered as one. -/
theorem IsVerifyPath.found (h : IsVerifyPath mount path) :
    ∃ tail, route (routes (Pattern.ofText batchMount) (Pattern.ofText mount)) "POST" path =
      .found .verifyLocks tail := by
  have hends : (Pattern.fit? (Pattern.ofText mount ++ ("/locks/verif".toList ++ ['y']).map .char)
      path.toList).isSome := h
  have hbatch : Pattern.fit? (Pattern.ofText batchMount ++ Pattern.ofText batchPath)
      path.toList = none :=
    fit?_eq_none_of_ends (t := "/objects/batc".toList) (d := 'h') hends (by decide)
  have hlocks : Pattern.fit? (Pattern.ofText mount ++ Pattern.ofText locksPath)
      path.toList = none :=
    fit?_eq_none_of_ends (t := "/lock".toList) (d := 's') hends (by decide)
  obtain ⟨found, hfit⟩ := Option.isSome_iff_exists.1 h
  refine ⟨(found.lookup Route.tailName).getD "", ?_⟩
  simp [route, routes, Route.tail?, hbatch, hlocks, hfit]

end

end GitLfs.Http
