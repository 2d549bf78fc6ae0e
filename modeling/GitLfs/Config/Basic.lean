import GitLfs.Check.Decode

/-!
# The settings of a gateway
-/

namespace GitLfs

open Json (Value)

/-- The settings of a gateway. -/
structure Config where
  appName : String
  appVersion : String
  /-- The mount of the batch endpoint. -/
  batchMount : String
  /-- The mount of the lock endpoints. -/
  locksMount : String
  /-- The kind of the collaborators: kept in memory, or none. -/
  backend : String
  /-- The base of the addresses of objects. -/
  publicUrl : String
  actionExpiresIn : Int
  lockPageSize : Int
  lockAdministrators : List String
  /-- The git repository whose paths can be locked; without one any path can be. -/
  gitRepoPath : Option String
  /-- Without this list there is no access gate. -/
  writers : Option (List String)
  readers : Option (List String)
  anonymousRead : Bool
  logLevel : Option String
  deriving DecidableEq, Repr, Inhabited

namespace Config

/-- The checks of the settings; one that is not given has its default. -/
def decode : Decoder Config := Decoder.record "Config" fun given =>
  Config.mk <$> Decoder.optional given "APP_NAME" "lfs-gateway" Decoder.text
    <*> Decoder.optional given "APP_VERSION" "0.1.0" Decoder.text
    <*> Decoder.optional given "BATCH_PREFIX" "/info/lfs" Decoder.text
    <*> Decoder.optional given "LOCKS_PREFIX" "/info/lfs" Decoder.text
    <*> Decoder.optional given "BACKEND" "inmemory" Decoder.text
    <*> Decoder.optional given "PUBLIC_URL" "http://localhost:8000/info/lfs" Decoder.text
    <*> Decoder.optional given "ACTION_EXPIRES_IN" 3600 Decoder.integer
    <*> Decoder.optional given "LOCK_PAGE_SIZE" 100 Decoder.integer
    <*> Decoder.optional given "LOCK_ADMINISTRATORS" [] (Decoder.list Decoder.text)
    <*> Decoder.optional given "GIT_REPO_PATH" none (Decoder.nullable Decoder.text)
    <*> Decoder.optional given "WRITERS" none (Decoder.nullable (Decoder.list Decoder.text))
    <*> Decoder.optional given "READERS" none (Decoder.nullable (Decoder.list Decoder.text))
    <*> Decoder.optional given "ANONYMOUS_READ" false Decoder.boolean
    <*> Decoder.optional given "LOG_LEVEL" none (Decoder.nullable Decoder.text)

/-- A list of texts as a value. -/
def texts (names : List String) : Value := .list (names.map .text)

/-- All settings under their names. -/
def encode (c : Config) : Value :=
  .object [("APP_NAME", .text c.appName), ("APP_VERSION", .text c.appVersion),
    ("BATCH_PREFIX", .text c.batchMount), ("LOCKS_PREFIX", .text c.locksMount),
    ("BACKEND", .text c.backend), ("PUBLIC_URL", .text c.publicUrl),
    ("ACTION_EXPIRES_IN", Value.integer c.actionExpiresIn),
    ("LOCK_PAGE_SIZE", Value.integer c.lockPageSize),
    ("LOCK_ADMINISTRATORS", texts c.lockAdministrators),
    ("GIT_REPO_PATH", Value.optional .text c.gitRepoPath),
    ("WRITERS", Value.optional texts c.writers), ("READERS", Value.optional texts c.readers),
    ("ANONYMOUS_READ", .boolean c.anonymousRead),
    ("LOG_LEVEL", Value.optional .text c.logLevel)]

end Config

/-- Why a gateway cannot be set up. -/
inductive SetupFailure where
  /-- Settings do not pass their checks. -/
  | invalidSettings (first : Fault) (others : List Fault)
  /-- A setting that has to be a JSON list is not JSON. -/
  | unreadableSetting
  /-- There is no log level with this name, in capital letters. -/
  | unknownLevel (name : String)
  /-- There is no backend with this name. -/
  | unknownBackend (name : String)
  /-- There is no git repository at the path that is set. -/
  | notARepository
  /-- A mount neither is empty nor starts with a slash and ends without one, or it has a parameter
  of a kind that there is not. -/
  | badMount
  /-- These names are those of more than one parameter in a path. -/
  | repeatedParameters (names : List String) (path : String)
  deriving DecidableEq, Repr, Inhabited

namespace SetupFailure

/-- The words for a failure, where it has any. -/
def message? : SetupFailure → Option String
  | unknownLevel name => some ("Unknown level: " ++ Text.Quoted.text name)
  | unknownBackend name => some ("Unknown LFS_BACKEND: " ++ name)
  | repeatedParameters names path =>
    some ("Duplicated param name" ++ (if 1 < names.length then "s " else " ") ++
      String.intercalate ", " names ++ " at path " ++ path)
  | _ => none

end SetupFailure

end GitLfs
