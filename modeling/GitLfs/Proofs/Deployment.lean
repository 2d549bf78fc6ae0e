import GitLfs.Deployment
import GitLfs.Proofs.Http.Route
import GitLfs.Proofs.Http.Telling

/-!
# Gateways made from settings

`mounts_of_ofConfig` says where the endpoints of such a gateway are. `over_of_ofConfig` says that a
gateway whose settings ask for collaborators in memory is a gateway over a lock registry, whatever
else the settings are: the policies go by a roster, and the object store keeps to its sizes.
-/

namespace GitLfs

/-- Both parts of what is put together succeed when the whole does. -/
theorem exists_of_bind_eq_ok {ε α β : Type} {x : Except ε α} {f : α → Except ε β} {b : β}
    (h : (x >>= f) = .ok b) : ∃ a, x = .ok a ∧ f a = .ok b := by
  cases x with
  | error e => cases h
  | ok a => exact ⟨a, rfl, h⟩

/-! ## Collaborators in memory -/

namespace World

@[simp] theorem registries_setRegistry (place : Option String) (s : RegistryState) (w : World) :
    (w.setRegistry place s).registries place = s := if_pos rfl

@[simp] theorem sizes_setSizes (place : Option String) (t : SizeTable) (w : World) :
    (w.setSizes place t).sizes place = t := if_pos rfl

end World

/-- The object store of a place takes no notice of locks. -/
theorem MemoryStore.keeps_inWorld (s : MemoryStore) (place : Option String) :
    (s.inWorld place).Keeps World.registries where
  size _ _ := rfl
  downloadAction _ _ := rfl
  uploadAction _ _ _ := rfl
  verifyAction _ _ := rfl

namespace Deployment

variable {host : Host} {c : Config} {d : Deployment}

/-- The policies go by a roster, wherever they are used. -/
theorem keeps_policy (d : Deployment) {ν : Type} {part : World → ν} :
    d.policy.Yields part (AccessPolicy.Keeps part) .policyFor := by
  refine Source.Yields.fixed fun policy hpolicy => ?_
  obtain ⟨roster, -, rfl⟩ := Option.map_eq_some_iff.1 hpolicy
  exact roster.keeps_policy

theorem keeps_exchange (d : Deployment) : d.exchange.Keeps (World.registries · none) where
  policies := d.keeps_policy
  stores := by
    refine Source.Yields.fixed fun store hstore => ?_
    obtain ⟨s, -, rfl⟩ := Option.map_eq_some_iff.1 hstore
    have hkeeps := s.keeps_inWorld none
    exact ⟨fun oid scene => congrFun (hkeeps.size oid scene) none,
      fun oid scene => congrFun (hkeeps.downloadAction oid scene) none,
      fun oid size scene => congrFun (hkeeps.uploadAction oid size scene) none,
      fun oid scene => congrFun (hkeeps.verifyAction oid scene) none⟩

theorem over_locking {r : Registry} (h : d.registry = some r) :
    d.locking.Over r (World.registries · none) (World.setRegistry none) where
  part_update s w := w.registries_setRegistry none s
  policies := d.keeps_policy
  keepers := by
    refine Source.Yields.fixed fun keeper hkeeper => ?_
    rw [h, Option.map_some] at hkeeper
    exact (Option.some.inj hkeeper).symm

/-- The roster of a deployment is that of the settings. -/
theorem roster_of_ofConfig (h : ofConfig host c = .ok d) : d.roster = rosterOf c := by
  unfold ofConfig at h
  dsimp only at h
  split at h
  · obtain ⟨repository, -, hd⟩ := exists_of_bind_eq_ok h
    cases hd
    rfl
  · split at h
    · cases h
      rfl
    · cases h

/-- Settings that ask for collaborators in memory get a lock registry. -/
theorem registry_of_ofConfig (h : ofConfig host c = .ok d)
    (hbackend : c.backend.toList.map Char.toLower = "inmemory".toList) :
    ∃ repository, d.registry =
      some ⟨c.lockAdministrators, c.lockPageSize, host.newId, host.now, repository⟩ := by
  unfold ofConfig at h
  dsimp only at h
  rw [if_pos hbackend] at h
  obtain ⟨repository, -, hd⟩ := exists_of_bind_eq_ok h
  cases hd
  exact ⟨repository, rfl⟩

end Deployment

/-! ## Gateways -/

namespace Http.Gateway

variable {host : Deployment.Host} {origin : String} {c : Config} {g : Gateway World} {level : Level}
  {exchange : Option (Exchange World)} {locking : Option (Locking World)}

/-- Where the endpoints of a gateway are, and that its services come from the settings when the host
gives none. -/
theorem parts_of_ofConfig (h : ofConfig host origin c exchange locking = .ok (g, level)) :
    mountOf c.batchMount [batchPath] = .ok g.batchMount ∧
      mountOf c.locksMount [locksPath, belowLocksPath] = .ok g.lockMount ∧
      (exchange = none → locking = none → ∃ d, Deployment.ofConfig host c = .ok d ∧
        g.exchange = d.exchange ∧ g.locking = d.locking) := by
  unfold ofConfig at h
  obtain ⟨l, -, h⟩ := exists_of_bind_eq_ok h
  -- what is left to do once the services are there
  have hmount : ∀ (x : Exchange World) (k : Locking World), (do
      let batchMount ← mountOf c.batchMount [batchPath]
      let lockMount ← mountOf c.locksMount [locksPath, belowLocksPath]
      return ((⟨batchMount, lockMount, c.appVersion, origin, x, k⟩ : Gateway World), l)) =
        .ok (g, level) → mountOf c.batchMount [batchPath] = .ok g.batchMount ∧
          mountOf c.locksMount [locksPath, belowLocksPath] = .ok g.lockMount ∧
          g.exchange = x ∧ g.locking = k := by
    intro x k hx
    obtain ⟨batchMount, hbatch, hx⟩ := exists_of_bind_eq_ok hx
    obtain ⟨lockMount, hlocks, hx⟩ := exists_of_bind_eq_ok hx
    cases hx
    exact ⟨hbatch, hlocks, rfl, rfl⟩
  dsimp only at h
  split at h
  · obtain ⟨hbatch, hlocks, -, -⟩ := hmount _ _ h
    exact ⟨hbatch, hlocks, fun hnone => by cases hnone⟩
  · obtain ⟨d, hd, h⟩ := exists_of_bind_eq_ok h
    obtain ⟨hbatch, hlocks, hexchange, hlocking⟩ := hmount _ _ h
    refine ⟨hbatch, hlocks, ?_⟩
    rintro rfl rfl
    exact ⟨d, hd, hexchange, hlocking⟩

theorem mounts_of_ofConfig (h : ofConfig host origin c exchange locking = .ok (g, level)) :
    g.batchMount = Pattern.ofText c.batchMount ∧ g.lockMount = Pattern.ofText c.locksMount ∧
      (Pattern.ofText (c.locksMount ++ belowLocksPath)).repeatedNames = [] := by
  obtain ⟨hbatch, hlocks, -⟩ := parts_of_ofConfig h
  obtain ⟨hlock, hnames⟩ := mountOf_eq_ok hlocks
  exact ⟨(mountOf_eq_ok hbatch).1, hlock, hnames _ (by simp)⟩

/-- Settings that ask for collaborators in memory make a gateway over a lock registry. -/
theorem over_of_ofConfig (h : ofConfig host origin c none none = .ok (g, level))
    (hbackend : c.backend.toList.map Char.toLower = "inmemory".toList) :
    ∃ repository,
      g.Over ⟨c.lockAdministrators, c.lockPageSize, host.newId, host.now, repository⟩
        (World.registries · none) (World.setRegistry none) := by
  obtain ⟨-, -, hservices⟩ := parts_of_ofConfig h
  obtain ⟨d, hd, hexchange, hlocking⟩ := hservices rfl rfl
  obtain ⟨repository, hregistry⟩ := Deployment.registry_of_ofConfig hd hbackend
  refine ⟨repository, ?_, ?_⟩
  · rw [hlocking]
    exact d.over_locking hregistry
  · rw [hexchange]
    exact d.keeps_exchange

/-! ## A gateway to try things on -/

/-- A host without git repositories, with the identifiers and the clock of the sample registry. -/
def porter : Deployment.Host := ⟨fun _ => none, Registry.sample.newId, Registry.sample.now⟩

/-- Settings that ask for collaborators in memory, and for no gate. -/
def settings : Config where
  appName := "gateway"
  appVersion := "1"
  batchMount := "/info/lfs"
  locksMount := "/info/lfs"
  backend := "inmemory"
  publicUrl := "http://store"
  actionExpiresIn := 60
  lockPageSize := 2
  lockAdministrators := ["root"]
  gitRepoPath := none
  writers := none
  readers := none
  anonymousRead := false
  logLevel := none

/-- The collaborators that these settings ask for. -/
def staff : Deployment := ⟨none, some ⟨"http://store", 60, true⟩, some Registry.sample⟩

/-- The gateway that these settings ask for. -/
def lodge : Gateway World where
  batchMount := Pattern.ofText "/info/lfs"
  lockMount := Pattern.ofText "/info/lfs"
  version := "1"
  origin := "http://lodge"
  exchange := staff.exchange
  locking := staff.locking

theorem batchMount_settings :
    mountOf settings.batchMount [batchPath] = .ok (Pattern.ofText "/info/lfs") := by
  decide +kernel

theorem locksMount_settings :
    mountOf settings.locksMount [locksPath, belowLocksPath] =
      .ok (Pattern.ofText "/info/lfs") := by
  decide +kernel

theorem ofConfig_settings :
    ofConfig porter "http://lodge" settings none none = .ok (lodge, .debug) := by
  have hstaff : Deployment.ofConfig porter settings = .ok staff := rfl
  simp only [ofConfig, hstaff, batchMount_settings, locksMount_settings]
  rfl

theorem over_lodge :
    lodge.Over Registry.sample (World.registries · none) (World.setRegistry none) :=
  ⟨staff.over_locking rfl, staff.keeps_exchange⟩

end Http.Gateway

end GitLfs
