import GitLfs.Number.Decimal

/-!
# Log records

A part of the program reports an event under the name of its logger. A record is the event together
with the identifier of the request during which it happened.
-/

namespace GitLfs

/-- How much an event matters. -/
inductive Level where
  | notSet
  | debug
  | info
  | warning
  | error
  | critical
  deriving DecidableEq, Repr, Inhabited

namespace Level

/-- The name of a level in log lines. -/
def name : Level → String
  | notSet => "NOTSET"
  | debug => "DEBUG"
  | info => "INFO"
  | warning => "WARNING"
  | error => "ERROR"
  | critical => "CRITICAL"

/-- The place of a level in their order. -/
def severity : Level → Nat
  | notSet => 0
  | debug => 10
  | info => 20
  | warning => 30
  | error => 40
  | critical => 50

/-- The level with a name, in capital letters. Two levels have a second name. -/
def ofName? : String → Option Level
  | "NOTSET" => some notSet
  | "DEBUG" => some debug
  | "INFO" => some info
  | "WARNING" => some warning
  | "WARN" => some warning
  | "ERROR" => some error
  | "CRITICAL" => some critical
  | "FATAL" => some critical
  | _ => none

/-- A logger that is set to a level lets an event through. One that is not set takes the level of
the host, which lets warnings through. -/
def admits (setting event : Level) : Bool :=
  let threshold := match setting with
    | notSet => warning
    | l => l
  event ≠ notSet && threshold.severity ≤ event.severity

end Level

/-- What a part of the program reports. -/
structure Event where
  level : Level
  logger : String
  message : String
  deriving DecidableEq, Repr, Inhabited

/-- An event and the request during which it happened, with what is known of that request. -/
structure Record extends Event where
  requestId : String
  endpoint : Option String := none
  path : Option String := none
  method : Option String := none
  status : Option Nat := none
  deriving DecidableEq, Repr, Inhabited

namespace Log

/-- The root of the names of the loggers. -/
def root : String := "lfsgateway"

/-- The name of a logger below the root. -/
def logger (name : String) : String := root ++ "." ++ name

/-- A value that may be missing, as messages show it. -/
def shown : Option String → String
  | some s => s
  | none => "None"

/-- A truth value, as messages show it. -/
def shownBool (b : Bool) : String := if b then "True" else "False"

/-- An integer, as messages show it. -/
def shownInt (n : Int) : String := Number.Decimal.text n

/-- A message of a headline and fields. -/
def message (headline : String) (fields : List (String × String)) : String :=
  headline ++ String.join (fields.map fun (name, value) => " " ++ name ++ "=" ++ value)

/-- The identifier that a record bears when it is made during a request, or outside of one. -/
def stamp : Option String → String
  | some id => if id = "" then "-" else id
  | none => "-"

end Log

end GitLfs
