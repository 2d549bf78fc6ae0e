import GitLfs.Access.Roster
import GitLfs.Config.Basic
import GitLfs.Http.Gateway
import GitLfs.Lock.Registry
import GitLfs.Log.Handler
import GitLfs.Storage.Memory

/-!
# Deployments

A deployment is a gateway whose collaborators are made from the settings, or given by the host.
Those in memory keep their state in a world: a size table and a lock registry for each repository
path, and one of each for services that do not tell repositories apart.
-/

namespace GitLfs

/-- The state of all collaborators in memory, by repository path; without a path, the state that all
repositories share. -/
structure World where
  sizes : Option String → SizeTable
  registries : Option String → RegistryState

namespace World

/-- Nothing is stored and nothing is locked. -/
def empty : World := ⟨fun _ => ∅, fun _ => RegistryState.empty⟩

/-- The world with another size table in a place. -/
def setSizes (place : Option String) (t : SizeTable) (w : World) : World :=
  { w with sizes := fun p => if p = place then t else w.sizes p }

/-- The world with another lock registry in a place. -/
def setRegistry (place : Option String) (s : RegistryState) (w : World) : World :=
  { w with registries := fun p => if p = place then s else w.registries p }

end World

/-- The object store of a place. -/
def MemoryStore.inWorld (s : MemoryStore) (place : Option String) : ObjectStore World :=
  s.store.focus (World.sizes · place) (World.setSizes place)

/-- The lock keeper of a place. -/
def Registry.inWorld (r : Registry) (place : Option String) : LockKeeper World :=
  r.keeper.focus (World.registries · place) (World.setRegistry place)

/-- The collaborators that the settings ask for. -/
structure Deployment where
  roster : Option Roster
  store : Option MemoryStore
  registry : Option Registry

namespace Deployment

/-- What the host provides: git repositories, identifiers for locks, and a clock. -/
structure Host where
  repositoryAt : String → Option Git.Repository
  newId : Nat → String
  now : Nat → Option DateTime

/-- The roster that the settings ask for. -/
def rosterOf (c : Config) : Option Roster :=
  c.writers.map fun writers => ⟨writers, c.readers, c.anonymousRead⟩

/-- The git repository that the settings ask for, if any. -/
def repositoryOf (host : Host) (c : Config) : Except SetupFailure (Option Git.Repository) :=
  match c.gitRepoPath.getD "" with
  | "" => .ok none
  | path =>
    match host.repositoryAt path with
    | some r => .ok (some r)
    | none => .error .notARepository

/-- The collaborators that the settings ask for. -/
def ofConfig (host : Host) (c : Config) : Except SetupFailure Deployment :=
  let backend := c.backend.toList.map Char.toLower
  if backend = "inmemory".toList then do
    let repository ← repositoryOf host c
    return {
      roster := rosterOf c
      store := some (MemoryStore.make c.publicUrl c.actionExpiresIn true)
      registry := some ⟨c.lockAdministrators, c.lockPageSize, host.newId, host.now, repository⟩ }
  else if backend = "none".toList then .ok ⟨rosterOf c, none, none⟩
  else .error (.unknownBackend c.backend)

/-- The access policy. -/
def policy (d : Deployment) : PolicySource World := .fixed (d.roster.map Roster.policy)

/-- The batch service. -/
def exchange (d : Deployment) : Exchange World :=
  ⟨d.policy, .fixed (d.store.map (MemoryStore.inWorld · none))⟩

/-- The locking service. -/
def locking (d : Deployment) : Locking World :=
  ⟨d.policy, .fixed (d.registry.map (Registry.inWorld · none))⟩

end Deployment

namespace Http.Gateway

/-- The level that the settings ask for. -/
def levelOf (c : Config) : Except SetupFailure Level :=
  match c.logLevel.getD "" with
  | "" => .ok .debug
  | name => Log.Logging.levelNamed name

/-- The failure of a path below a mount in which parameters share a name. -/
def repeatedBelow? (mount path : String) : Option SetupFailure :=
  match (Pattern.ofText (mount ++ path)).repeatedNames with
  | [] => none
  | names => some (.repeatedParameters names (mount ++ path))

/-- The mount that a setting describes, below which endpoints have the given paths. -/
def mountOf (path : String) (endpoints : List String) : Except SetupFailure Mount :=
  let s := path.toList
  let mount := Pattern.ofText path
  let isPath : Bool := s.isEmpty || (['/'].isPrefixOf s && not (['/'].isSuffixOf s))
  if not (isPath && mount.isKnown) then .error .badMount
  else
    match endpoints.findSome? (repeatedBelow? path) with
    | some failure => .error failure
    | none => .ok mount

/-- The gateway that the settings ask for, with the services that the host gives in place of those
from the settings, and the level of its loggers. -/
def ofConfig (host : Deployment.Host) (origin : String) (c : Config)
    (exchange : Option (Exchange World)) (locking : Option (Locking World)) :
    Except SetupFailure (Gateway World × Level) := do
  let level ← levelOf c
  let (exchange, locking) ← match exchange, locking with
    | some exchange, some locking => pure (exchange, locking)
    | _, _ => do
      let deployment ← Deployment.ofConfig host c
      pure (exchange.getD deployment.exchange, locking.getD deployment.locking)
  let batchMount ← mountOf c.batchMount [batchPath]
  let lockMount ← mountOf c.locksMount [locksPath, belowLocksPath]
  return (⟨batchMount, lockMount, c.appVersion, origin, exchange, locking⟩, level)

end Http.Gateway

end GitLfs
