import GitLfs.Number.Decimal
import GitLfs.Text.Quoted

/-!
# What is wrong with a value

A fault says where a value fails a check and why. The words for a cause are in `Cause.message`; a
few of them depend on whether the value was read from JSON text or was given as a value.
-/

namespace GitLfs

/-- One step from a value to a part of it. -/
inductive Step where
  | member (name : String)
  | item (index : Nat)
  deriving DecidableEq, Repr, Inhabited

namespace Step

/-- The name or the number of a step. -/
def text : Step → String
  | member name => name
  | item index => Number.Decimal.text index

end Step

/-- Where checked values come from. -/
inductive Origin where
  /-- JSON text. -/
  | json
  /-- Values given by a program or read from its settings. -/
  | values
  deriving DecidableEq, Repr, Inhabited

/-- Why a value fails a check. -/
inductive Cause where
  | missing
  /-- An object with members that are known in advance was expected: one of this name. -/
  | notARecord (model : String)
  | notText
  | emptyText
  | notAList
  /-- An object with any members was expected. -/
  | notAMap
  | notAnInteger
  | unreadableInteger
  | fractionalInteger
  | infiniteInteger
  | oversizedInteger
  | negative
  | notABoolean
  | unreadableBoolean
  | notBasicTransfer
  | notADateTime
  /-- A text is neither a date and time nor a count. -/
  | unreadableDateTime
  /-- A number counts to before the first year or to after the last one. -/
  | dateTimeOutOfRange
  /-- The operation of a batch is none of the three that there are. -/
  | unknownOperation (name : String)
  /-- The offered transfers do not include the basic one. -/
  | basicNotOffered (offered : List String)
  deriving DecidableEq, Repr, Inhabited

namespace Cause

/-- The short name of a cause. -/
def kind : Cause → String
  | missing => "missing"
  | notARecord _ => "model_type"
  | notText => "string_type"
  | emptyText => "string_too_short"
  | notAList => "list_type"
  | notAMap => "dict_type"
  | notAnInteger => "int_type"
  | unreadableInteger => "int_parsing"
  | fractionalInteger => "int_from_float"
  | infiniteInteger => "finite_number"
  | oversizedInteger => "int_parsing_size"
  | negative => "greater_than_equal"
  | notABoolean => "bool_type"
  | unreadableBoolean => "bool_parsing"
  | notBasicTransfer => "literal_error"
  | notADateTime => "datetime_type"
  | unreadableDateTime => "datetime_from_date_parsing"
  | dateTimeOutOfRange => "datetime_parsing"
  | unknownOperation _ => "value_error"
  | basicNotOffered _ => "value_error"

/-- The words for a cause. -/
def message (origin : Origin) : Cause → String
  | missing => "Field required"
  | notARecord model =>
    match origin with
    | .json => "Input should be an object"
    | .values => "Input should be a valid dictionary or instance of " ++ model
  | notText => "Input should be a valid string"
  | emptyText => "String should have at least 1 character"
  | notAList =>
    match origin with
    | .json => "Input should be a valid array"
    | .values => "Input should be a valid list"
  | notAMap =>
    match origin with
    | .json => "Input should be an object"
    | .values => "Input should be a valid dictionary"
  | notAnInteger => "Input should be a valid integer"
  | unreadableInteger => "Input should be a valid integer, unable to parse string as an integer"
  | fractionalInteger => "Input should be a valid integer, got a number with a fractional part"
  | infiniteInteger => "Input should be a finite number"
  | oversizedInteger => "Unable to parse input string as an integer, exceeded maximum size"
  | negative => "Input should be greater than or equal to 0"
  | notABoolean => "Input should be a valid boolean"
  | unreadableBoolean => "Input should be a valid boolean, unable to interpret input"
  | notBasicTransfer => "Input should be 'basic'"
  | notADateTime | unreadableDateTime | dateTimeOutOfRange => "Input should be a valid datetime"
  | unknownOperation name =>
    "Invalid LFS operation '" ++ name ++ "', expected one of upload, download, verify"
  | basicNotOffered offered =>
    "Missing 'basic' in transfer property: " ++ Text.Quoted.list offered

/-- The words speak for themselves and need no place in front of them. -/
def isProtocolRule : Cause → Bool
  | unknownOperation _ => true
  | basicNotOffered _ => true
  | _ => false

end Cause

/-- A place in a value and what is wrong there. -/
structure Fault where
  place : List Step
  cause : Cause
  deriving DecidableEq, Repr, Inhabited

namespace Fault

/-- The fault as one line: the place, unless it is the value itself or the words need none. -/
def describe (origin : Origin) (f : Fault) : String :=
  let words := f.cause.message origin
  if f.cause.isProtocolRule ∨ f.place = [] then words
  else
    let place := String.intercalate "." (f.place.map Step.text)
    if place = "" then words else place ++ ": " ++ words

/-- The fault seen from a value of which the faulty one is a part. -/
def under (step : Step) (f : Fault) : Fault := { f with place := step :: f.place }

end Fault

end GitLfs
