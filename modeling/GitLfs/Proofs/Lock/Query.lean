import GitLfs.Proofs.Lock.Limit
import GitLfs.Proofs.Text.Form

/-!
# Queries for locks

`write` writes what a request for locks asks for as a query. It is read back (`ofQuery_write`), unless
its limit has more digits than an integer may have that is read; then reading it is a defect.
-/

namespace GitLfs.LockQuery

open Number

/-! ## Queries -/

/-- None of the texts that are asked for is empty; an empty one would be read as none. -/
structure Full (q : LockQuery) : Prop where
  path : q.path ≠ some ""
  id : q.id ≠ some ""
  cursor : q.cursor ≠ some ""
  refspec : q.refspec ≠ some ""

/-- The text of a limit; a limit of 0 may be left out, and is unless it is `explicit`. -/
def limitText? (explicit : Bool) (limit : Int) : Option String :=
  if explicit = true ∨ limit ≠ 0 then some (Decimal.text limit) else none

theorem limitText?_ne (explicit : Bool) (limit : Int) : limitText? explicit limit ≠ some "" := by
  unfold limitText?
  split
  · exact fun e => Decimal.write_ne_nil limit (String.ofList_eq_empty_iff.1 (Option.some.inj e))
  · exact nofun

theorem readLimit_limitText? (explicit : Bool) (limit : Int) :
    readLimit (limitText? explicit limit) =
      if Decimal.Short limit then .ok limit else .error (oversized limit) := by
  unfold limitText?
  split
  · exact readLimit_text limit
  · next hleft =>
    obtain rfl : limit = 0 := Classical.not_not.1 (not_or.1 hleft).2
    have hshort : Decimal.Short 0 := by decide
    rw [if_pos hshort]
    rfl

/-- What is asked for, by name. -/
def fields (explicit : Bool) (q : LockQuery) : List (String × Option String) :=
  [("path", q.path), ("id", q.id), ("cursor", q.cursor), ("limit", limitText? explicit q.limit),
    ("refspec", q.refspec)]

/-- The query for what is asked for; `keep` tells which characters stand for themselves, and `explicit`
whether a limit of 0 is named. -/
def write (keep : Char → Bool) (explicit : Bool) (q : LockQuery) : String :=
  Text.Form.write keep (Text.Form.given (q.fields explicit))

/-- A query is read as what was asked for, if its limit can be read. -/
theorem ofQuery_write {keep : Char → Bool} (hkeep : Text.Percent.Plain keep) (explicit : Bool)
    {q : LockQuery} (h : q.Full) :
    ofQuery (q.write keep explicit) =
      if Decimal.Short q.limit then .ok q else .error (oversized q.limit) := by
  have hnames : ((q.fields explicit).map Prod.fst).Nodup :=
    show ["path", "id", "cursor", "limit", "refspec"].Nodup by decide
  have hread : ∀ {name value}, (name, value) ∈ q.fields explicit → value ≠ some "" →
      Text.Form.first? (Text.Form.given (q.fields explicit)) name = value := fun hmem hne =>
    Text.Form.first?_given hnames hmem hne
  unfold ofQuery write
  rw [Text.Form.pairs_write hkeep]
  dsimp only
  rw [hread (by simp [fields]) (limitText?_ne explicit q.limit), hread (by simp [fields]) h.path,
    hread (by simp [fields]) h.id, hread (by simp [fields]) h.cursor,
    hread (by simp [fields]) h.refspec, readLimit_limitText?]
  split <;> rfl

end GitLfs.LockQuery
