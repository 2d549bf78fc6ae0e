import GitLfs.Proofs.Http.Route
import GitLfs.Proofs.Text.Pieces

/-!
# The addresses of locks

Below a mount without parameters, all locks are at one address, and each lock whose identifier is a
segment of a path has an address of its own at which it is released.
-/

namespace GitLfs.Http

namespace Pattern

/-- A text without braces stands for itself. -/
theorem ofCharsWithin_of_notMem {fuel : Nat} {s : List Char} (hfuel : s.length ≤ fuel)
    (h : '\x7b' ∉ s) : ofCharsWithin fuel s = s.map .char := by
  induction s generalizing fuel with
  | nil => cases fuel <;> rfl
  | cons c s ih =>
    obtain ⟨hc, hs⟩ := not_or.1 (mt List.mem_cons.2 h)
    obtain ⟨fuel, rfl⟩ : ∃ n, fuel = n + 1 := Nat.exists_eq_succ_of_ne_zero (by
      rw [List.length_cons] at hfuel
      omega)
    have hrest : s.length ≤ fuel := Nat.le_of_succ_le_succ hfuel
    rw [ofCharsWithin, if_neg (Ne.symm hc), ih hrest hs, List.map_cons]

theorem ofText_of_notMem {s : String} (h : '\x7b' ∉ s.toList) :
    ofText s = s.toList.map .char :=
  ofCharsWithin_of_notMem (Nat.le_of_eq String.length_toList) h

theorem fit?_chars_append (s : List Char) (p : Pattern) (t : List Char) :
    fit? (s.map .char ++ p) (s ++ t) = fit? p t := by
  induction s with
  | nil => rfl
  | cons c s ih =>
    rw [List.map_cons, List.cons_append, List.cons_append, fit?, if_pos rfl, ih]

/-- A parameter for the rest of a path has all of it. -/
theorem fit?_rest (name : String) {t : List Char} (h : '\n' ∉ t) :
    fit? [.parameter name .path] t = some [(name, String.ofList t)] := by
  have hrun : ParameterKind.run (· ≠ '\n') t = t.length := by
    have hall : ∀ c ∈ t, decide (c ≠ '\n') = true := by
      intro c hc
      rw [decide_eq_true_eq]
      rintro rfl
      exact h hc
    unfold ParameterKind.run
    rw [← List.append_nil t, List.takeWhile_append_of_pos hall, List.takeWhile_nil]
  have hlengths : ∃ more, ParameterKind.lengths t .path = t.length :: more := by
    rw [ParameterKind.lengths, hrun]
    cases t with
    | nil => exact ⟨[], rfl⟩
    | cons c t =>
      refine ⟨ParameterKind.downTo1 t.length ++ [0], ?_⟩
      simp [ParameterKind.downTo1, List.range_succ]
  obtain ⟨more, hlengths⟩ := hlengths
  have hend : fit? [] (t.drop t.length) = some [] := by
    rw [List.drop_length]
    rfl
  rw [fit?, hlengths, List.findSome?_cons, hend, List.take_length]
  rfl

end Pattern

theorem idOfUnlockPath_append {id : String} (hne : id ≠ "") (hslash : '/' ∉ id.toList) :
    Lock.idOfUnlockPath (id ++ "/unlock") = .ok id :=
  Lock.idOfUnlockPath_eq_ok_iff.2 ⟨hne, hslash, 0, by rw [String.toList_append]; simp⟩

variable {mount : String}

/-- The locks below a mount without parameters. -/
theorem IsLocksPath.of_notMem (h : '\x7b' ∉ mount.toList) : IsLocksPath mount (mount ++ locksPath) := by
  have hpattern : '\x7b' ∉ (mount ++ locksPath).toList := by
    rw [String.toList_append, List.mem_append]
    rintro (hmem | hmem)
    · exact h hmem
    · revert hmem
      decide
  unfold IsLocksPath
  rw [Pattern.ofText_of_notMem hpattern, Pattern.fit?_chars, if_pos (Or.inl rfl)]
  rfl

/-- Where a lock is released, below a mount without parameters. -/
theorem IsUnlockPath.of_notMem (h : '\x7b' ∉ mount.toList) {id : String} (hne : id ≠ "")
    (hslash : '/' ∉ id.toList) (hline : '\n' ∉ id.toList) :
    IsUnlockPath mount (mount ++ locksPath ++ "/" ++ id ++ "/unlock") id := by
  have htail : '\n' ∉ (id ++ "/unlock").toList := by
    rw [String.toList_append, List.mem_append]
    rintro (hmem | hmem)
    · exact hline hmem
    · revert hmem
      decide
  have hpath : (mount ++ locksPath ++ "/" ++ id ++ "/unlock").toList =
      mount.toList ++ ("/locks/".toList ++ (id ++ "/unlock").toList) := by
    simp [locksPath]
  refine ⟨[(Route.tailName, id ++ "/unlock")], id ++ "/unlock", ?_, by simp,
    idOfUnlockPath_append hne hslash⟩
  rw [ofText_mount_belowLocksPath, ofText_belowLocksPath, Pattern.ofText_of_notMem h, hpath,
    Pattern.fit?_chars_append, Pattern.fit?_chars_append, Pattern.fit?_rest _ htail,
    String.ofList_toList]

/-- A request to a path at which a lock is released takes a route. -/
theorem IsUnlockPath.exists_found {path id : String} (h : IsUnlockPath mount path id)
    (batchMount : String) :
    ∃ endpoint tail, route (routes (Pattern.ofText batchMount) (Pattern.ofText mount)) "POST" path =
      .found endpoint tail := by
  obtain ⟨found, -, hfit, -⟩ := h
  rw [ofText_mount_belowLocksPath] at hfit
  unfold route
  cases hfind : (routes (Pattern.ofText batchMount) (Pattern.ofText mount)).findSome? fun rt =>
      if rt.method = "POST" then (rt.tail? path).map fun tail => (rt.endpoint, tail) else none with
  | some taken => exact ⟨taken.1, taken.2, rfl⟩
  | none =>
    have hrelease := List.findSome?_eq_none_iff.1 hfind
      ⟨.releaseLock, "POST", Pattern.ofText mount ++ Pattern.ofText belowLocksPath⟩ (by simp [routes])
    simp [Route.tail?, hfit] at hrelease

end GitLfs.Http
