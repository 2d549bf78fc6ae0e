/-!
# Dialects of JSON

Readers of JSON share one grammar and differ in what they take beyond it. The bodies of requests are
read strictly, settings leniently.
-/

namespace GitLfs.Json

/-- What a reader of JSON takes where readers differ. -/
structure Dialect where
  /-- How deep containers with something in them may be nested, if there is a limit. -/
  maxDepth : Option Nat
  /-- An escape for half of a surrogate pair may stand alone. -/
  loneHalves : Bool
  /-- The whole part of a number may be of any length when a fraction or an exponent follows. -/
  longFractions : Bool
  /-- The minus sign of a number counts as one of the digits, of which there may only be so many. -/
  signCounts : Bool
  deriving DecidableEq, Repr

namespace Dialect

/-- The dialect of the bodies of requests. -/
def strict : Dialect := ⟨some 200, false, false, false⟩

/-- The strict dialect as newer readers have it. -/
def stricter : Dialect := { strict with signCounts := true }

/-- The dialect of settings. -/
def lenient : Dialect := ⟨none, true, true, false⟩

/-- So many containers are open that nothing more may stand inside the innermost one. -/
def tooDeep (d : Dialect) (depth : Nat) : Bool :=
  match d.maxDepth with
  | none => false
  | some limit => limit < depth

theorem tooDeep_lenient (depth : Nat) : lenient.tooDeep depth = false := rfl

theorem tooDeep_strict (depth : Nat) : strict.tooDeep depth = decide (200 < depth) := rfl

end Dialect

end GitLfs.Json
