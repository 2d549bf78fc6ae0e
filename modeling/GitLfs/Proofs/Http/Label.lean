import GitLfs.Proofs.Http.Unlocking

/-!
# Labels of endpoints in logs

The label of a request in logs is told from the look of its path alone. A path that takes a route ends as
the route says, with a line break at most behind it (`exists_front_of_route`), and ends in the same way
when it is shown (`exists_toList_shownPath`). So the label is that of the service that answers, unless the
rest of a path below that of all locks looks like the path of the batch endpoint: `label_of_route`. No
such path names a lock, so the requests that have the wrong label are refused.
-/

namespace GitLfs.Http

/-! ## How paths end -/

section

variable {method path tail : String} {endpoint : Endpoint} {mount : String} {batchMount : Mount}

theorem exists_front_of_endsIn {s text : List Char} (h : Pattern.EndsIn s text) :
    ∃ front more, s = front ++ (text ++ more) ∧ (more = [] ∨ more = ['\n']) := by
  obtain ⟨front, rfl | rfl⟩ := h
  · exact ⟨front, [], by rw [List.append_nil], Or.inl rfl⟩
  · exact ⟨front, ['\n'], List.append_assoc _ _ _, Or.inr rfl⟩

/-- A path that takes a route ends in the path of its endpoint. -/
theorem exists_front_of_route
    (hmount : (Pattern.ofText (mount ++ belowLocksPath)).repeatedNames = [])
    (h : route (routes batchMount (Pattern.ofText mount)) method path = .found endpoint tail) :
    ∃ front more, path.toList = front ++ ((endpoint.path tail).toList ++ more) ∧
      (more = [] ∨ more = ['\n']) := by
  obtain ⟨rt, hrt, rfl, -, htail⟩ := exists_of_route_found h
  obtain ⟨found, hfit, -⟩ := Option.map_eq_some_iff.1 htail
  -- what a route without a parameter for the rest of the path fits ends in characters
  have hfixed : ∀ (p : Pattern) (text : String), '\x7b' ∉ text.toList →
      rt.pattern = p ++ Pattern.ofText text →
      ∃ front more, path.toList = front ++ (text.toList ++ more) ∧
        (more = [] ∨ more = ['\n']) := by
    intro p text htext hpattern
    rw [hpattern, Pattern.ofText_of_notMem htext] at hfit
    exact exists_front_of_endsIn (Pattern.endsIn_of_fit?_chars hfit)
  have hbelow : rt.pattern = Pattern.ofText mount ++ Pattern.ofText belowLocksPath →
      ∃ front more, path.toList = front ++ ((locksPath ++ "/" ++ tail).toList ++ more) ∧
        (more = [] ∨ more = ['\n']) := by
    intro hpattern
    obtain ⟨front, more, hpath, hmore, -⟩ := exists_front_of_tail? hmount hpattern htail
    exact ⟨front, more, by rw [hpath]; simp [locksPath], hmore⟩
  simp only [routes, List.mem_cons, List.not_mem_nil, or_false] at hrt
  rcases hrt with rfl | rfl | rfl | rfl | rfl | rfl | rfl
  · exact hfixed _ batchPath (by decide) rfl
  · exact hfixed _ locksPath (by decide) rfl
  · exact hbelow rfl
  · exact hfixed _ locksPath (by decide) rfl
  · exact hfixed _ verifyPath (by decide) rfl
  · exact hbelow rfl
  · exact hfixed [] healthPath (by decide) rfl

/-- The health endpoint is found at its path, below no mount. -/
theorem path_of_health
    (h : route (routes batchMount (Pattern.ofText mount)) method path = .found .health tail) :
    path.toList = healthPath.toList ∨ path.toList = healthPath.toList ++ ['\n'] := by
  obtain ⟨rt, hrt, hendpoint, -, htail⟩ := exists_of_route_found h
  obtain ⟨found, hfit, -⟩ := Option.map_eq_some_iff.1 htail
  obtain rfl : rt = ⟨.health, "GET", Pattern.ofText healthPath⟩ := by
    simp only [routes, List.mem_cons, List.not_mem_nil, or_false] at hrt
    rcases hrt with rfl | rfl | rfl | rfl | rfl | rfl | rfl
    all_goals first | rfl | cases hendpoint
  rw [Pattern.ofText_of_notMem (by decide), Pattern.fit?_chars] at hfit
  by_contra hnot
  rw [if_neg hnot] at hfit
  cases hfit

/-- What is shown of a path ends as what is shown of its end. -/
theorem exists_toList_shownPath {front s : List Char} (h : path.toList = front ++ s) :
    ∃ before, (shownPath path).toList = before ++ s.flatMap shownAs := by
  have hfilter : ∀ t : List Char, (t.flatMap fun c => if c = '?' then "%3F".toList
      else if c = '#' then "%23".toList else if c = '\\' then "%5C".toList else [c]).filter
        (fun c => c ≠ '\t' ∧ c ≠ '\n' ∧ c ≠ '\r') = t.flatMap shownAs := by
    intro t
    rw [List.filter_flatMap]
    rfl
  unfold shownPath addressPath
  rw [String.toList_ofList, String.toList_ofList, h]
  split
  · next hnil =>
    refine ⟨[], ?_⟩
    rw [List.flatMap_append, List.append_eq_nil_iff] at hnil
    rw [← hfilter s, hnil.2]
    rfl
  · exact ⟨front.flatMap shownAs, by rw [hfilter, List.flatMap_append]⟩
  · refine ⟨'/' :: front.flatMap shownAs, ?_⟩
    rw [List.filter_cons_of_pos (by decide), hfilter, List.flatMap_append, List.cons_append]

end

/-! ## How labels are told -/

theorem occursIn_append {word : List Char} (hne : word ≠ []) (before after : List Char) :
    occursIn word (before ++ (word ++ after)) = true := by
  induction before with
  | nil =>
    obtain ⟨c, word, rfl⟩ := List.exists_cons_of_ne_nil hne
    have hstarts : (c :: word).isPrefixOf (c :: (word ++ after)) = true :=
      List.isPrefixOf_iff_prefix.2 (List.prefix_append (c :: word) after)
    rw [List.nil_append, List.cons_append, occursIn, hstarts, Bool.true_or]
  | cons c before ih => rw [List.cons_append, occursIn, ih, Bool.or_true]

/-- A text ends as the path of the batch endpoint does just when its end does, if that is a path below
that of all locks. -/
theorem isSuffix_append_locks {before rest : List Char} :
    batchPath.toList <:+ before ++ (locksPath.toList ++ '/' :: rest) ↔
      batchPath.toList <:+ '/' :: rest := by
  constructor
  · intro h
    rw [← List.append_assoc] at h
    rcases List.suffix_or_suffix_of_suffix h (List.suffix_append _ _) with hsuffix | hsuffix
    · exact hsuffix
    · -- the end is a part of the path of the batch endpoint, and what stands in front is another word
      have hslashes : ∀ n < 15, (batchPath.toList.drop n).head? = some '/' →
          batchPath.toList.drop n = batchPath.toList ∨
            batchPath.toList.drop n = "/batch".toList := by decide
      obtain ⟨front, hfront⟩ := hsuffix
      have hlength := congrArg List.length hfront
      rw [List.length_append, List.length_cons, show batchPath.toList.length = 14 by decide] at hlength
      have hdrop : '/' :: rest = batchPath.toList.drop front.length := by
        rw [← hfront, List.drop_left]
      have hcases := hslashes front.length (by omega) (by rw [← hdrop]; rfl)
      rw [← hdrop] at hcases
      rcases hcases with hwhole | hword
      · exact ⟨[], hwhole.symm⟩
      · rw [hword, show batchPath.toList = "/objects".toList ++ "/batch".toList by decide] at h
        have hother := List.suffix_or_suffix_of_suffix ((List.suffix_append_inj_of_length_eq rfl).1 h).1
          (List.suffix_append before locksPath.toList)
        exact absurd hother (by decide)
  · intro h
    rw [← List.append_assoc]
    exact h.trans (List.suffix_append _ _)

/-- What does not end as the path of the batch endpoint does, and has the path of all locks in it, is
taken for a path of locks. -/
theorem endpointLabel_of_locks {path : String} {before after : List Char}
    (hpath : path.toList = before ++ (locksPath.toList ++ after)) :
    endpointLabel path = if batchPath.toList <:+ path.toList then "batch" else "locks" := by
  have hoccurs : occursIn "/locks".toList path.toList = true := by
    rw [hpath]
    exact occursIn_append (by decide) before after
  unfold endpointLabel
  rw [if_pos hoccurs]
  exact if_congr List.isSuffixOf_iff_suffix rfl rfl

/-- The rest of a path below that of all locks looks like the path of the batch endpoint at its end. -/
def LooksLikeBatch (tail : String) : Prop :=
  batchPath.toList <:+ (shownPath ("/" ++ tail)).toList

instance (tail : String) : Decidable (LooksLikeBatch tail) :=
  inferInstanceAs (Decidable (_ <:+ _))

/-- The label of requests to an endpoint; `tail` is the rest of a path below that of all locks. -/
def Endpoint.label (tail : String) : Endpoint → String
  | batch => "batch"
  | listLocks | createLock | verifyLocks => "locks"
  | listBelow | releaseLock => if LooksLikeBatch tail then "batch" else "locks"
  | health => "other"

theorem toList_shownPath_tail (tail : String) :
    (shownPath ("/" ++ tail)).toList = '/' :: tail.toList.flatMap shownAs := by
  rw [toList_shownPath (Or.inr (by simp)), String.toList_append]
  rfl

namespace Gateway

variable {σ : Type} {g : Gateway σ} {r : Request} {endpoint : Endpoint} {tail mount : String}

/-- The label of a request that takes a route. -/
theorem label_of_route (hmount : mountOf mount [locksPath, belowLocksPath] = .ok g.lockMount)
    (hrouted : g.routing r = .found endpoint tail) :
    endpointLabel (shownPath r.path) = endpoint.label tail := by
  obtain ⟨hlock, hnames⟩ := mountOf_eq_ok hmount
  unfold routing at hrouted
  rw [hlock] at hrouted
  obtain ⟨front, more, hpath, hmore⟩ := exists_front_of_route (hnames _ (by simp)) hrouted
  obtain ⟨before, hshown⟩ := exists_toList_shownPath hpath
  have hnone : more.flatMap shownAs = [] := by
    rcases hmore with rfl | rfl <;> rfl
  rw [List.flatMap_append, hnone, List.append_nil] at hshown
  have hfixed : endpoint ≠ .health → endpoint ≠ .releaseLock → endpoint ≠ .listBelow →
      (shownPath r.path).toList = before ++ (endpoint.path tail).toList := by
    intro hhealth hrelease hbelow
    rw [hshown, flatMap_shownAs (isVerbatim_path hhealth hrelease hbelow)]
  -- a path for locks that ends in another word is labelled as such
  have hlocks : ∀ word : List Char, ¬ batchPath.toList <:+ locksPath.toList ++ word →
      ¬ locksPath.toList ++ word <:+ batchPath.toList →
      (shownPath r.path).toList = before ++ (locksPath.toList ++ word) →
        endpointLabel (shownPath r.path) = "locks" := by
    intro word hlonger hshorter hpath
    rw [endpointLabel_of_locks hpath, hpath, if_neg]
    intro hsuffix
    rcases List.suffix_or_suffix_of_suffix hsuffix (List.suffix_append before _) with h | h
    · exact hlonger h
    · exact hshorter h
  cases endpoint with
  | batch =>
    have hends : batchPath.toList <:+ (shownPath r.path).toList := by
      rw [hfixed (by decide) (by decide) (by decide)]
      exact List.suffix_append before _
    have hsuffix := List.isSuffixOf_iff_suffix.2 hends
    unfold batchPath at hsuffix
    rw [endpointLabel, hsuffix]
    rfl
  | listLocks | createLock =>
    refine hlocks [] (by decide) (by decide) ?_
    rw [List.append_nil]
    exact hfixed (by decide) (by decide) (by decide)
  | verifyLocks =>
    refine hlocks "/verify".toList (by decide) (by decide) ?_
    rw [← String.toList_append]
    exact hfixed (by decide) (by decide) (by decide)
  | listBelow | releaseLock =>
    have hrest : (shownPath r.path).toList =
        before ++ (locksPath.toList ++ '/' :: tail.toList.flatMap shownAs) := by
      rw [hshown, Endpoint.path, String.toList_append, String.toList_append, List.append_assoc,
        List.flatMap_append]
      rfl
    have hlooks : batchPath.toList <:+ (shownPath r.path).toList ↔ LooksLikeBatch tail := by
      rw [hrest, isSuffix_append_locks, LooksLikeBatch, toList_shownPath_tail]
    rw [endpointLabel_of_locks hrest, Endpoint.label]
    exact if_congr hlooks rfl rfl
  | health =>
    have hlabel : ∀ path : String, path = "/health" ∨ path = "/health\n" →
        endpointLabel (shownPath path) = "other" := by
      rintro path (rfl | rfl) <;> decide +kernel
    refine hlabel r.path ?_
    rcases path_of_health hrouted with hhealth | hhealth
    · exact Or.inl (String.toList_inj.1 hhealth)
    · exact Or.inr (String.toList_inj.1 hhealth)

/-- What looks like the path of the batch endpoint at its end names no lock. -/
theorem not_namedBy_of_looksLikeBatch (h : LooksLikeBatch tail) (id : String) :
    ¬ Lock.NamedBy tail id := by
  intro hid
  obtain ⟨front, c, htail, hc⟩ := last_of_idOfUnlockPath (Lock.idOfUnlockPath_eq_ok_iff.2 hid)
  have hshown : shownAs c = [c] := by rcases hc with rfl | rfl <;> decide
  unfold LooksLikeBatch at h
  rw [toList_shownPath_tail, htail, List.flatMap_append, List.flatMap_singleton, hshown,
    ← List.cons_append] at h
  obtain ⟨before, hends⟩ := h
  rw [show batchPath.toList = "/objects/batc".toList ++ ['h'] by decide, ← List.append_assoc] at hends
  obtain rfl : 'h' = c := List.singleton_inj.1 (List.append_inj' hends rfl).2
  rcases hc with hc | hc <;> exact absurd hc (by decide)

/-- Below whatever mounts, each request that takes a route is labelled in logs after the service whose
endpoint the route leads to, and as neither of both when that is the health endpoint. The one exception
is a request below the path of all locks in which the rest of the path looks like the path of the batch
endpoint at its end: it is labelled as a batch request. Such a path names no lock, so the request has a
fault, and nothing is called for it. -/
theorem labels_follow_routes (g : Gateway σ)
    (hmount : mountOf mount [locksPath, belowLocksPath] = .ok g.lockMount)
    (hrouted : g.routing r = .found endpoint tail) :
    let label := endpointLabel (shownPath r.path)
    let stray := (endpoint = .listBelow ∨ endpoint = .releaseLock) ∧ LooksLikeBatch tail
    (label = "batch" ↔ endpoint = .batch ∨ stray) ∧
    (label = "locks" ↔ endpoint ≠ .batch ∧ endpoint ≠ .health ∧ ¬ stray) ∧
    (label = "other" ↔ endpoint = .health) ∧
    (stray → ∀ fresh (p : Progress σ), ∃ e response q, Response.ofFailure e = .ok response ∧
      perform (g.serve fresh r) p =
        (.ok (response.withHeader requestIdHeader (requestIdOf r fresh)), q) ∧
      q.state = p.state ∧ q.calls = p.calls) := by
  intro label stray
  have hlabel : label = endpoint.label tail := label_of_route hmount hrouted
  have hfault : stray → ∃ e, firstFault? r endpoint tail = some e := by
    rintro ⟨hendpoint, hlooks⟩
    cases hnone : firstFault? r endpoint tail with
    | some e => exact ⟨e, rfl⟩
    | none =>
      have hhealth : endpoint ≠ .health := by rcases hendpoint with rfl | rfl <;> decide
      obtain ⟨demand, hasks⟩ := exists_asks hhealth hnone
      rcases hendpoint with rfl | rfl
      · cases hasks
      · cases hasks with
        | release who path body =>
          exact absurd (Lock.idOfUnlockPath_eq_ok_iff.1 path)
            (not_namedBy_of_looksLikeBatch hlooks _)
  refine ⟨?_, ?_, ?_, fun hstray fresh p => ?_⟩
  · rw [hlabel]
    cases endpoint <;> simp [Endpoint.label, stray]
  · rw [hlabel]
    cases endpoint <;> simp [Endpoint.label, stray]
  · rw [hlabel]
    cases endpoint <;> simp [Endpoint.label]
    all_goals split <;> decide
  · obtain ⟨e, he⟩ := hfault hstray
    exact ⟨e, serve_of_fault hrouted he fresh p⟩

/-- A request to release a lock is labelled as one, whatever the lock is called. -/
theorem labels_follow_routes_lodge :
    let request : Request := ⟨"POST", "/info/lfs/locks/objects%2Fbatch/unlock", "", [], [], none⟩
    mountOf "/info/lfs" [locksPath, belowLocksPath] = .ok lodge.lockMount ∧
      lodge.routing request = .found .releaseLock "objects%2Fbatch/unlock" ∧
      endpointLabel (shownPath request.path) = "locks" := by
  intro request
  have hmount : mountOf "/info/lfs" [locksPath, belowLocksPath] = .ok lodge.lockMount :=
    locksMount_settings
  have hrouted : lodge.routing request = .found .releaseLock "objects%2Fbatch/unlock" := by
    decide +kernel
  obtain ⟨-, hlocks, -⟩ := labels_follow_routes lodge hmount hrouted
  have hlooks : ¬ LooksLikeBatch "objects%2Fbatch/unlock" := by decide +kernel
  exact ⟨hmount, hrouted, hlocks.2 ⟨by decide, by decide, fun h => hlooks h.2⟩⟩

/-- A request below the path of all locks is labelled as a batch request. -/
theorem stray_labelled_batch :
    let request : Request := ⟨"GET", "/info/lfs/locks/objects/batch", "", [], [], none⟩
    ofConfig porter "http://lodge" settings none none = .ok (lodge, .debug) ∧
      lodge.routing request = .found .listBelow "objects/batch" ∧
      endpointLabel (shownPath request.path) = "batch" := by
  intro request
  exact ⟨ofConfig_settings, by decide +kernel, by decide +kernel⟩

end Gateway

end GitLfs.Http
