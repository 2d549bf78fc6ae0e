import GitLfs.Proofs.Http.Undo

/-!
# Limits over HTTP

`limits_parsed` says what becomes of the limit in a request for locks, whatever the query is and whatever
collaborators the gateway has. One that is missing or a numeral of no more than 4300 digits is passed on
to the service as the integer it stands for. What is no numeral is refused by name, and the service is not
asked. A longer numeral is a defect of the server, even if it stands for a small integer.
-/

namespace GitLfs.Http.Gateway

open Number LockQuery

variable {σ : Type}

/-- Any text that may be given for a limit is read as zero, as the integer that its numeral stands for,
as the defect that the numeral has too many digits, or as the refusal that it is no numeral. Written
integers are read back, unless they have too many digits. The limit that a query asks for is what the
first value for it is read as, and nothing else in a query can be wrong. So a request for locks is passed
on to the service with this integer, or else answered with 422, naming the text, when it is no numeral,
and with 500 when it is one with too many digits; then no collaborator is called. -/
theorem limits_parsed (g : Gateway σ) :
    (∀ raw outcome, readLimit raw = outcome ↔ LimitReading raw outcome) ∧
    (∀ n, readLimit (some (Decimal.text n)) =
      if Decimal.Short n then .ok n else .error (oversized n)) ∧
    (∀ query, (ofQuery query).map LockQuery.limit = readLimit (firstLimit? query)) ∧
    ∀ request tail user, g.routing request = .found .listLocks tail → request.principal = .ok user →
      ∀ fresh p,
        let limit := firstLimit? request.query
        let outcome := perform (g.serve fresh request) p
        let answered (shown : Except Failure Response) : Except Failure Response :=
          .ok (delivered (requestIdOf request fresh) shown)
        let told (status : Nat) (message : String) :=
          outcome.1 = answered (.ok (.message status message [])) ∧
            outcome.2.state = p.state ∧ outcome.2.calls = p.calls
        (∀ n, LimitReading limit (.ok n) →
          ∃ query, ofQuery request.query = .ok query ∧ query.limit = n ∧
            let run := perform (g.locking.list query user (repository request locksPath))
              (started fresh request p)
            outcome.1 =
                answered (Response.ofOutcome (run.1.map fun page => .carrying 200 page.encode)) ∧
              outcome.2.state = run.2.state ∧ outcome.2.calls = run.2.calls) ∧
        (∀ raw, limit = some raw → LimitReading limit (.error (.refusal (invalidLimit raw))) →
          told 422 ("Invalid limit parameter in the GET request: " ++ raw)) ∧
        ∀ d, LimitReading limit (.error (.defect d)) → told 500 "Internal server error" := by
  refine ⟨fun raw outcome => readLimit_eq_iff, readLimit_text, limit_ofQuery, ?_⟩
  intro request tail user hrouted hwho fresh p limit outcome answered told
  have htold : ∀ e, LimitReading limit (.error e) → outcome.1 = answered (Response.ofFailure e) ∧
      outcome.2.state = p.state ∧ outcome.2.calls = p.calls := by
    intro e hreading
    obtain ⟨response, q, hresponse, hq, hstate, hcalls⟩ :=
      serve_unread hrouted hwho (ofQuery_eq_error_iff.2 hreading) fresh p
    have houtcome : outcome = (answered (.ok response), q) := hq
    rw [houtcome, hresponse]
    exact ⟨rfl, hstate, hcalls⟩
  refine ⟨fun n hreading => ?_, fun raw _ hreading => htold _ hreading,
    fun d hreading => htold _ hreading⟩
  obtain ⟨query, hquery, hlimit⟩ := exists_ofQuery_iff.2 hreading
  obtain ⟨q, hq, hstate, hcalls⟩ := serve_of_asks hrouted (.list hwho hquery) fresh p
  simp only [fulfil, Locking.serve, perform_map_eq] at hq hstate hcalls
  have houtcome : outcome = (_, q) := hq
  refine ⟨query, hquery, hlimit, ?_⟩
  rw [houtcome]
  refine ⟨?_, hstate, hcalls⟩
  -- what the service answers is shown as a response 200, and how it fails is answered for
  cases (perform (g.locking.list query user (repository request locksPath))
    (started fresh request p)).1 <;> rfl

/-- Bob asks the lodge for locks by a query. -/
def lookUpBy (query : String) : Request := { (lookUp (queryFor "a" 0)).2 with query := query }

theorem routing_lookUpBy (query : String) :
    ∃ tail, lodge.routing (lookUpBy query) = .found .listLocks tail := by
  have hmount : lodge.batchMount = Pattern.ofText "/info/lfs" := rfl
  exact routing_of_listing hmount rfl (isListing_lookUp (queryFor "a" 0))

/-- The first value counts, a plus sign may stand in front of it, and so may zeros. A word is refused. -/
theorem limits_parsed_lodge :
    (LimitReading (some "+02") (.ok 2) ∧
      (ofQuery "limit=%2B02&limit=two").map LockQuery.limit = .ok 2) ∧
    ∃ q, perform (lodge.serve "visit" (lookUpBy "limit=two&limit=2")) (.start World.empty .debug) =
      (.ok ((Response.message 422 "Invalid limit parameter in the GET request: two" []).withHeader
        requestIdHeader "visit"), q) ∧ q.calls = [] := by
  obtain ⟨hreads, -, hqueries, hrequests⟩ := limits_parsed lodge
  have hdigits : ∀ c ∈ ['0', '2'], c.isDigit = true := List.all_eq_true.1 (by decide)
  have hsign : Decimal.Numeral "+02".toList ['0', '2'] 2 := .plus (by decide) hdigits
  have hnumeral : LimitReading (some "+02") (.ok 2) := .numeral hsign (by decide)
  have hfirst : firstLimit? "limit=%2B02&limit=two" = some "+02" := by decide +kernel
  have hother : ∀ digits n, ¬ Decimal.Numeral "two".toList digits n := fun digits n h =>
    absurd (isInteger_iff.2 ⟨digits, n, h⟩) (by decide)
  have hword : firstLimit? (lookUpBy "limit=two&limit=2").query = some "two" := by decide +kernel
  obtain ⟨tail, hrouted⟩ := routing_lookUpBy "limit=two&limit=2"
  obtain ⟨-, hrefused, -⟩ := hrequests _ tail _ hrouted (principal_lookUp (queryFor "a" 0)) "visit"
    (.start World.empty .debug)
  obtain ⟨hanswer, -, hcalls⟩ := hrefused "two" hword (hword ▸ .invalid (by decide) hother)
  refine ⟨⟨hnumeral, ?_⟩, _, Prod.ext hanswer rfl, hcalls⟩
  rw [hqueries, hfirst, hreads]
  exact hnumeral

/-- A one with as many zeros in front of it as digits are read. -/
def padded : String := String.ofList (List.replicate Decimal.maxDigits '0' ++ ['1'])

/-- It is a numeral, but whoever gives it for a limit is told that the server failed. -/
theorem padded_limit_fails :
    Decimal.Numeral padded.toList padded.toList 1 ∧
      readLimit (some padded) = .error (.defect (.oversizedInteger 4301)) ∧
      ∃ query q, firstLimit? query = some padded ∧
        perform (lodge.serve "visit" (lookUpBy query)) (.start World.empty .debug) =
          (.ok ((Response.message 500 "Internal server error" []).withHeader requestIdHeader "visit"),
            q) := by
  have hchars : padded.toList = List.replicate Decimal.maxDigits '0' ++ ['1'] := String.toList_ofList
  have hnumeral : Decimal.Numeral padded.toList padded.toList 1 := by
    have hdigits : ∀ c ∈ padded.toList, c.isDigit = true := by
      intro c hc
      rw [hchars, List.mem_append, List.mem_replicate, List.mem_singleton] at hc
      rcases hc with ⟨-, rfl⟩ | rfl <;> decide
    have hone : Nat.ofDigitChars 10 padded.toList 0 = 1 := by
      rw [← Decimal.valueOf_eq_ofDigitChars, hchars, Decimal.valueOf_zeros]
      rfl
    have hbare := Decimal.Numeral.bare (by simp [hchars]) hdigits
    rwa [hone] at hbare
  have hlength : padded.toList.length = 4301 := by
    rw [hchars, List.length_append, List.length_replicate]
    rfl
  have hread : readLimit (some padded) = .error (.defect (.oversizedInteger 4301)) := by
    rw [readLimit_numeral hnumeral, hlength, if_neg (by decide)]
  obtain ⟨query, hfirst⟩ : ∃ query, firstLimit? query = some padded := by
    refine ⟨Text.Form.write Char.isAlphanum [("limit", padded)], ?_⟩
    unfold firstLimit?
    rw [Text.Form.pairs_write plain_isAlphanum]
    rfl
  have hunread : ofQuery query = .error (.defect (.oversizedInteger 4301)) := by
    rw [ofQuery_eq_error_iff, hfirst]
    exact readLimit_eq_iff.1 hread
  obtain ⟨tail, hrouted⟩ := routing_lookUpBy query
  obtain ⟨response, q, hresponse, hq, -, -⟩ := serve_unread hrouted
    (principal_lookUp (queryFor "a" 0)) hunread "visit" (.start World.empty .debug)
  cases hresponse
  exact ⟨hnumeral, hread, _, q, hfirst, hq⟩

end GitLfs.Http.Gateway
