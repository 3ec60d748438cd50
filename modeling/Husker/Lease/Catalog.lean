import Husker.Relational.Machine
import Husker.Lease.Effects

/-! # Volumes and pools

A VM record may hold a volume, and a pool owns its suspended template.  Checks in the operations
and triggers of the schema together keep both kinds of reference.
-/
namespace Husker.Lease
open Relational Store List Option Table

/-! ## Operations -/

def insertVmWithExpiration (db : Db) (record : VmRow) (expiration : Option ExpirationRow) :
    Except StateError Db := do
  ensure (∀ e ∈ expiration, e.vmId = record.id) (.vmExpirationMismatch record.id)
  let db ← insertVmOn db record
  match expiration with
  | none => pure db
  | some expiration => insertVmExpirationOn db expiration

/-- `UPDATE vms SET state = 'stopped'` for what cannot run after a restart, with the trigger
`pool_template_state_is_immutable`. -/
def markStaleVmsStopped (db : Db) : Except StateError Db := do
  let stale := fun v : VmRow => v.state = .running || v.state = .creating || v.state = .paused
  ensure (∀ v ∈ db.vms.rows, stale v = true → (poolOf db v.id).isNone) (.database .constraint)
  let vms ← orError (db.vms.update? [()] stale fun v => { v with state := .stopped })
    (.database .constraint)
  return { db with vms }

/-- `UPDATE vms SET tap_device, guest_ip`. -/
def setVmNetwork (db : Db) (id : Uuid) (network : VmRow → Option String × Option String) :
    Except StateError Db := do
  let vms ← orError (db.vms.update? [()] (fun v => v.id = id) fun v =>
    { v with tapDevice := (network v).1, guestIp := (network v).2 }) (.database .constraint)
  ensure (db.vms.matched (fun v => v.id = id) ≠ 0) (.vmNotFound id)
  return { db with vms }

def clearVmNetworkResources (db : Db) (id : Uuid) : Except StateError Db :=
  setVmNetwork db id fun _ => (none, none)

def updateVmGuestIp (db : Db) (id : Uuid) (ip : String) : Except StateError Db :=
  setVmNetwork db id fun v => (v.tapDevice, some ip)

def deleteVm (db : Db) (id : Uuid) : Except StateError Db := do
  let next ← (deleteVmRow db id).mapError .database
  ensure (db.vms.matched (fun v => v.id = id) ≠ 0) (.vmNotFound id)
  return next

def deletePoolByName (db : Db) (name : String) : Except StateError Db := do
  ensure (db.pools.matched (fun p => p.name = name) ≠ 0) (.poolNotFoundByName name)
  return { db with pools := db.pools.delete fun p => p.name = name }

def insertVolume (db : Db) (record : VolumeRow) : Except StateError Db := do
  let volumes ← orError (db.volumes.insert? record) (.volumeAlreadyExists record.name)
  return { db with volumes }

/-- `DELETE FROM volumes`, with the trigger `attached_volume_cannot_be_deleted`. -/
def deleteVolumeRow (db : Db) (id : Uuid) : Except SqlError Db := do
  ensure (∀ x ∈ db.volumes.rows, x.id = id → ∀ v ∈ db.vms.rows, v.volume ≠ some x.name) .constraint
  return { db with volumes := db.volumes.delete fun x => x.id = id }

def deleteVolume (db : Db) (id : Uuid) : Except StateError Db := do
  let next ← (deleteVolumeRow db id).mapError .database
  ensure (db.volumes.matched (fun x => x.id = id) ≠ 0) (.volumeNotFound id)
  return next

def deleteUnattachedVolumeByName (db : Db) (name : String) : Except StateError (VolumeRow × Db) := do
  let record ← orError (db.volumes.get? VolumeRow.name name) (.volumeNotFoundByName name)
  match db.vms.rows.find? (fun v => v.volume = some name) with
  | some vm => .error (.volumeAttached name vm.name)
  | none =>
    let next ← (deleteVolumeRow db record.id).mapError .database
    return (record, next)

/-! ## Calls -/

inductive CatalogCall where
  | insertVm (record : VmRow)
  | insertVmWithExpiration (record : VmRow) (expiration : Option ExpirationRow)
  | beginLease (seed : LeaseSeed) (vmName : String) (vmId : Option Uuid)
  | enterBackend (lease vm : Uuid) (identity : Option HostBoot)
  | recordDestruction (lease vm : Uuid)
  | setLeaseNetwork (lease : Uuid) (tapDevice guestIp : Option String)
  | commitLease (record : VmRow) (lease : Uuid) (expiration : Option ExpirationRow)
  | releaseLease (lease : Uuid)
  | updateVmState (id : Uuid) (state : VmLifecycleState)
  | markStaleVmsStopped
  | clearVmNetworkResources (id : Uuid)
  | updateVmGuestIp (id : Uuid) (ip : String)
  | deleteVm (id : Uuid)
  | retireVm (id : Uuid)
  | insertPool (record : PoolRow)
  | deletePoolByName (name : String)
  | retirePoolTemplate (pool template : Uuid)
  | insertVolume (record : VolumeRow)
  | deleteVolume (id : Uuid)
  | deleteUnattachedVolumeByName (name : String)

def CatalogCall.perform (db : Db) : CatalogCall → Except StateError Db
  | .insertVm record => insertVmOn db record
  | .insertVmWithExpiration record expiration => Lease.insertVmWithExpiration db record expiration
  | .beginLease seed vmName vmId => (insertHostResourceLease db seed vmName vmId).map Prod.snd
  | .enterBackend lease vm identity => enterHostResourceLeaseBackend db lease vm identity
  | .recordDestruction lease vm => recordHostResourceLeaseDestruction db lease vm
  | .setLeaseNetwork lease tapDevice guestIp => setHostResourceLeaseNetwork db lease tapDevice guestIp
  | .commitLease record lease expiration =>
    commitVmFromHostResourceLeaseWithExpiration db record lease expiration
  | .releaseLease lease => releaseHostResourceLease db lease
  | .updateVmState id state => Lease.updateVmState db id state
  | .markStaleVmsStopped => Lease.markStaleVmsStopped db
  | .clearVmNetworkResources id => Lease.clearVmNetworkResources db id
  | .updateVmGuestIp id ip => Lease.updateVmGuestIp db id ip
  | .deleteVm id => Lease.deleteVm db id
  | .retireVm id => Lease.retireVm db id
  | .insertPool record => Lease.insertPool db record
  | .deletePoolByName name => Lease.deletePoolByName db name
  | .retirePoolTemplate pool template => Lease.retirePoolTemplate db pool template
  | .insertVolume record => Lease.insertVolume db record
  | .deleteVolume id => Lease.deleteVolume db id
  | .deleteUnattachedVolumeByName name => (Lease.deleteUnattachedVolumeByName db name).map Prod.snd

/-- The store after a call; what fails is rolled back. -/
def CatalogCall.after (db : Db) (call : CatalogCall) : Db :=
  match call.perform db with
  | .ok db' => db'
  | .error _ => db

def catalog : Machine Db CatalogCall := .ofStep fun db call => some (call.after db)

/-! ## What a call does to references -/

/-- Attached volumes exist, and the templates of pools exist and are suspended. -/
structure Coherent (db : Db) : Prop where
  attached : ∀ v ∈ db.vms.rows, ∀ name, v.volume = some name → ∃ x ∈ db.volumes.rows, x.name = name
  templates : ∀ p ∈ db.pools.rows, ∃ v ∈ db.vms.rows, v.id = p.templateVmId ∧ v.state = .suspended

/-- Only volumes that nothing holds go, new holds are on volumes that are there, and a pool keeps its
template. -/
structure Careful (db db' : Db) : Prop where
  volumes : ∀ x ∈ db.volumes.rows, x ∈ db'.volumes.rows ∨ ∀ v ∈ db.vms.rows, v.volume ≠ some x.name
  held : ∀ v ∈ db'.vms.rows, (∃ u ∈ db.vms.rows, u.volume = v.volume) ∨
    ∀ name, v.volume = some name → ∃ x ∈ db'.volumes.rows, x.name = name
  pools : ∀ p ∈ db'.pools.rows, (∃ v ∈ db'.vms.rows, v.id = p.templateVmId ∧ v.state = .suspended) ∨
    p ∈ db.pools.rows ∧ ∀ v ∈ db.vms.rows, v.id = p.templateVmId → v.state = .suspended →
      ∃ v' ∈ db'.vms.rows, v'.id = v.id ∧ v'.state = .suspended

variable {db db' : Db}

lemma Careful.coherent (h : Careful db db') (hdb : Coherent db) : Coherent db' where
  attached := by
    intro v hv name hname
    rcases h.held v hv with ⟨u, hu, huv⟩ | hnew
    · obtain ⟨x, hx, hxname⟩ := hdb.attached u hu name (huv.trans hname)
      rcases h.volumes x hx with hkept | hfree
      · exact ⟨x, hkept, hxname⟩
      · refine absurd (huv.trans hname) ?_
        rw [← hxname]
        exact hfree u hu
    · exact hnew name hname
  templates := by
    intro p hp
    rcases h.pools p hp with hnew | ⟨hold, hkept⟩
    · exact hnew
    · obtain ⟨v, hv, hid, hstate⟩ := hdb.templates p hold
      obtain ⟨v', hv', hid', hstate'⟩ := hkept v hv hid hstate
      exact ⟨v', hv', hid'.trans hid, hstate'⟩

lemma Careful.of_same (hvms : db'.vms = db.vms) (hpools : db'.pools = db.pools)
    (hvolumes : db'.volumes = db.volumes) : Careful db db' where
  volumes := fun x hx => .inl (by rwa [hvolumes])
  held := fun v hv => .inl ⟨v, by rwa [← hvms], rfl⟩
  pools := fun p hp => .inr ⟨by rwa [← hpools], fun v hv _ hstate => ⟨v, by rwa [hvms], rfl, hstate⟩⟩

lemma Careful.of_updated {p : VmRow → Bool} {f : VmRow → VmRow}
    (hvms : db'.vms.rows = Table.updated db.vms.rows p f) (hpools : db'.pools = db.pools)
    (hvolumes : db'.volumes = db.volumes) (hid : ∀ v, (f v).id = v.id)
    (hvolume : ∀ v, (f v).volume = v.volume)
    (hstate : ∀ v ∈ db.vms.rows, p v = true → v.state = .suspended →
      (∃ q ∈ db.pools.rows, q.templateVmId = v.id) → (f v).state = .suspended) : Careful db db' where
  volumes := fun x hx => .inl (by rwa [hvolumes])
  held := by
    intro v hv
    rw [hvms, mem_updated] at hv
    rcases hv with ⟨u, hu, -, rfl⟩ | ⟨hv, -⟩
    · exact .inl ⟨u, hu, (hvolume u).symm⟩
    · exact .inl ⟨v, hv, rfl⟩
  pools := by
    intro q hq
    rw [hpools] at hq
    refine .inr ⟨hq, fun v hv hvid hsuspended => ?_⟩
    by_cases hp : p v = true
    · refine ⟨f v, ?_, hid v, hstate v hv hp hsuspended ⟨q, hq, hvid.symm⟩⟩
      rw [hvms, mem_updated]
      exact .inl ⟨v, hv, hp, rfl⟩
    · refine ⟨v, ?_, rfl, hsuspended⟩
      rw [hvms, mem_updated]
      exact .inr ⟨hv, by simpa using hp⟩

variable {record : VmRow}

lemma insertVmOn_careful (h : insertVmOn db record = .ok db') : Careful db db' := by
  obtain ⟨hdb, hrows, -⟩ := insertVmOn_eq_ok h
  have hpools : db'.pools = db.pools := by rw [hdb]
  have hvolumes : db'.volumes = db.volumes := by rw [hdb]
  have hexists : ∀ name, record.volume = some name → ∃ x ∈ db.volumes.rows, x.name = name := by
    intro name hname
    unfold insertVmOn at h
    rw [hname] at h
    simp only [eq_ok] at h
    obtain ⟨-, hany, -⟩ := h
    simpa using hany
  refine ⟨fun x hx => .inl (by rwa [hvolumes]), fun v hv => ?_, fun p hp => ?_⟩
  · rw [hrows] at hv
    rcases mem_append.mp hv with hv | hv
    · exact .inl ⟨v, hv, rfl⟩
    · rw [mem_singleton.mp hv, hvolumes]
      exact .inr hexists
  · rw [hpools] at hp
    refine .inr ⟨hp, fun v hv _ hstate => ⟨v, ?_, rfl, hstate⟩⟩
    rw [hrows]
    exact mem_append_left _ hv

lemma insertVmExpirationOn_careful {e : ExpirationRow} {db₁ : Db} (h : Careful db db₁)
    (hinsert : insertVmExpirationOn db₁ e = .ok db') : Careful db db' := by
  have hdb := insertVmExpirationOn_eq_ok hinsert
  have hvms : db'.vms = db₁.vms := by rw [hdb]
  have hpools : db'.pools = db₁.pools := by rw [hdb]
  have hvolumes : db'.volumes = db₁.volumes := by rw [hdb]
  obtain ⟨h1, h2, h3⟩ := h
  rw [← hvms] at h2 h3
  rw [← hpools] at h3
  rw [← hvolumes] at h1 h2
  exact ⟨h1, h2, h3⟩

lemma commitLease_careful {lease : Uuid} {expiration : Option ExpirationRow}
    (h : commitVmFromHostResourceLeaseWithExpiration db record lease expiration = .ok db') :
    Careful db db' := by
  obtain ⟨l, -, -, -, hdb, hrows⟩ := commit_eq_ok h
  obtain ⟨db₁, hinsert⟩ : ∃ db₁, insertVmOn db record = .ok db₁ := by
    simp only [commitVmFromHostResourceLeaseWithExpiration, eq_ok] at h
    obtain ⟨-, -, -, -, -, -, db₁, hinsert, -⟩ := h
    exact ⟨db₁, hinsert⟩
  obtain ⟨hdb₁, hrows₁, -⟩ := insertVmOn_eq_ok hinsert
  obtain ⟨h1, h2, h3⟩ := insertVmOn_careful hinsert
  have hvolumes : db₁.volumes = db'.volumes := by rw [hdb₁, hdb]
  have hpools : db₁.pools = db'.pools := by rw [hdb₁, hdb]
  rw [hrows₁, ← hrows] at h2 h3
  rw [hpools] at h3
  rw [hvolumes] at h1 h2
  exact ⟨h1, h2, h3⟩

variable {id : Uuid}

lemma poolOf_isNone (h : (poolOf db id).isNone) : ∀ p ∈ db.pools.rows, p.templateVmId ≠ id :=
  get?_eq_none.mp (isNone_iff_eq_none.mp h)

lemma Careful.of_deleteVm (id : Uuid)
    (hvms : db'.vms.rows = db.vms.rows.filter fun v => !decide (v.id = id))
    (hpools : ∀ p ∈ db'.pools.rows, p ∈ db.pools.rows ∧ p.templateVmId ≠ id)
    (hvolumes : db'.volumes = db.volumes) : Careful db db' where
  volumes := fun x hx => .inl (by rwa [hvolumes])
  held := by
    intro v hv
    rw [hvms] at hv
    exact .inl ⟨v, mem_of_mem_filter hv, rfl⟩
  pools := by
    intro p hp
    obtain ⟨hold, hne⟩ := hpools p hp
    refine .inr ⟨hold, fun v hv hvid hstate => ⟨v, ?_, rfl, hstate⟩⟩
    rw [hvms, mem_filter]
    exact ⟨hv, by simpa [hvid] using hne⟩

lemma deleteVmRow_careful (h : deleteVmRow db id = .ok db') : Careful db db' := by
  have hdb := deleteVmRow_eq_ok h
  simp only [deleteVmRow, eq_ok] at h
  obtain ⟨-, htemplate, -⟩ := h
  by_cases hvm : (findVm db id).isSome
  · have hnone := poolOf_isNone (htemplate hvm)
    subst hdb
    exact .of_deleteVm id rfl (fun p hp => ⟨hp, hnone p hp⟩) rfl
  -- nothing is deleted
  have hmissing : ∀ v ∈ db.vms.rows, v.id ≠ id := get?_eq_none.mp (not_isSome_iff_eq_none.mp hvm)
  have hrows : db'.vms = db.vms := by
    subst hdb
    ext1
    rw [rows_delete, filter_eq_self]
    simpa using hmissing
  subst hdb
  exact .of_same hrows rfl rfl

lemma retireVm_careful (h : retireVm db id = .ok db') : Careful db db' := by
  unfold retireVm at h
  split at h
  · cases h
  · simp only [eq_ok] at h
    obtain ⟨v, -, hdelete⟩ := h
    have hcareful := deleteVmRow_careful hdelete
    exact ⟨hcareful.volumes, hcareful.held, hcareful.pools⟩

lemma retirePoolTemplate_careful {poolId templateVmId : Uuid}
    (h : retirePoolTemplate db poolId templateVmId = .ok db') : Careful db db' := by
  simp only [retirePoolTemplate, eq_ok] at h
  obtain ⟨pool, hpool, -, htemplate, v, -, hdelete⟩ := h
  obtain ⟨hmem, hid⟩ := get?_mem hpool
  obtain rfl := deleteVmRow_eq_ok hdelete
  refine .of_deleteVm templateVmId rfl (fun p hp => ?_) rfl
  obtain ⟨hp, hkept⟩ := mem_delete.mp hp
  refine ⟨hp, fun hsame => ?_⟩
  have heq : p = pool := db.pools.eq_of_clash hp hmem (by simp [poolSchema, hsame, htemplate])
  rw [heq, hid] at hkept
  simp at hkept

lemma insertPool_careful {record : PoolRow} (h : insertPool db record = .ok db') : Careful db db' := by
  simp only [insertPool, eq_ok] at h
  obtain ⟨-, -, -, hsuspended, h⟩ := h
  split at h
  · cases h
  simp only [eq_ok] at h
  obtain ⟨pools, hinsert, rfl⟩ := h
  obtain ⟨-, -, hrows⟩ := insert?_eq_some.mp hinsert
  obtain ⟨v, hfind, hstate⟩ := map_eq_some_iff.mp hsuspended
  obtain ⟨hv, hid⟩ := findVm_eq_some.mp hfind
  refine ⟨fun x hx => .inl hx, fun u hu => .inl ⟨u, hu, rfl⟩, fun p hp => ?_⟩
  rw [hrows] at hp
  rcases mem_append.mp hp with hp | hp
  · exact .inr ⟨hp, fun u hu _ hs => ⟨u, hu, rfl, hs⟩⟩
  · rw [mem_singleton.mp hp]
    exact .inl ⟨v, hv, hid, hstate⟩

lemma updateVmState_careful {state : VmLifecycleState}
    (h : updateVmState db id state = .ok db') : Careful db db' := by
  obtain ⟨hdb, hrows⟩ := updateVmState_eq_ok h
  simp only [updateVmState, eq_ok] at h
  obtain ⟨-, himmutable, -⟩ := h
  refine .of_updated hrows (by rw [hdb]) (by rw [hdb]) (fun _ => rfl) (fun _ => rfl) ?_
  rintro v hv hvid - ⟨q, hq, htemplate⟩
  have hid : v.id = id := of_decide_eq_true hvid
  by_contra hstate
  have hfound : (findVm db id).isSome := isSome_of_mem (findVm_eq_some.mpr ⟨hv, hid⟩)
  exact poolOf_isNone (himmutable hstate hfound) q hq (htemplate.trans hid)

lemma markStaleVmsStopped_careful (h : markStaleVmsStopped db = .ok db') : Careful db db' := by
  simp only [markStaleVmsStopped, eq_ok] at h
  obtain ⟨-, -, vms, hupdate, rfl⟩ := h
  refine .of_updated (update?_eq_some hupdate).1 rfl rfl (fun _ => rfl) (fun _ => rfl) ?_
  intro v _ hstale hsuspended
  simp [hsuspended] at hstale

lemma setVmNetwork_careful {network : VmRow → Option String × Option String}
    (h : setVmNetwork db id network = .ok db') : Careful db db' := by
  simp only [setVmNetwork, eq_ok] at h
  obtain ⟨vms, hupdate, -, -, rfl⟩ := h
  exact .of_updated (update?_eq_some hupdate).1 rfl rfl (fun _ => rfl) (fun _ => rfl)
    fun v _ _ hstate _ => hstate

lemma deleteVolumeRow_careful (h : deleteVolumeRow db id = .ok db') : Careful db db' := by
  simp only [deleteVolumeRow, eq_ok] at h
  obtain ⟨-, hfree, rfl⟩ := h
  refine ⟨fun x hx => ?_, fun v hv => .inl ⟨v, hv, rfl⟩,
    fun p hp => .inr ⟨hp, fun v hv _ hstate => ⟨v, hv, rfl, hstate⟩⟩⟩
  by_cases hid : x.id = id
  · exact .inr (hfree x hx hid)
  · exact .inl (mem_delete.mpr ⟨hx, by simpa using hid⟩)

lemma CatalogCall.perform_careful {call : CatalogCall} (h : call.perform db = .ok db') :
    Careful db db' := by
  cases call with
  | insertVm record => exact insertVmOn_careful h
  | insertVmWithExpiration record expiration =>
    simp only [perform, Lease.insertVmWithExpiration, eq_ok] at h
    obtain ⟨-, -, db₁, hinsert, h⟩ := h
    cases expiration with
    | none =>
      cases h
      exact insertVmOn_careful hinsert
    | some expiration => exact insertVmExpirationOn_careful (insertVmOn_careful hinsert) h
  | beginLease seed vmName vmId =>
    obtain ⟨⟨lease, db₁⟩, hbegin, rfl⟩ := map_eq_ok.mp h
    have hframe := (insertHostResourceLease_eq_ok hbegin).frame
    exact .of_same (by rw [hframe]) (by rw [hframe]) (by rw [hframe])
  | enterBackend lease vm identity =>
    obtain ⟨-, -, -, hframe, -⟩ := enterHostResourceLeaseBackend_eq_ok h
    exact .of_same (by rw [hframe]) (by rw [hframe]) (by rw [hframe])
  | recordDestruction lease vm =>
    obtain ⟨-, -, -, -, -, hframe⟩ := recordHostResourceLeaseDestruction_eq_ok h
    exact .of_same (by rw [hframe]) (by rw [hframe]) (by rw [hframe])
  | setLeaseNetwork lease tapDevice guestIp =>
    obtain ⟨-, -, -, -, hframe⟩ := setHostResourceLeaseNetwork_eq_ok h
    exact .of_same (by rw [hframe]) (by rw [hframe]) (by rw [hframe])
  | commitLease record lease expiration => exact commitLease_careful h
  | releaseLease lease =>
    rcases releaseHostResourceLease_eq_ok h with rfl | ⟨l, -, -, -, hframe⟩
    · exact .of_same rfl rfl rfl
    · exact .of_same (by rw [hframe]) (by rw [hframe]) (by rw [hframe])
  | updateVmState id state => exact updateVmState_careful h
  | markStaleVmsStopped => exact markStaleVmsStopped_careful h
  | clearVmNetworkResources id | updateVmGuestIp id ip => exact setVmNetwork_careful h
  | deleteVm id =>
    simp only [perform, Lease.deleteVm, eq_ok] at h
    obtain ⟨db₁, hdelete, -, -, rfl⟩ := h
    exact deleteVmRow_careful hdelete
  | retireVm id => exact retireVm_careful h
  | insertPool record => exact insertPool_careful h
  | deletePoolByName name =>
    simp only [perform, Lease.deletePoolByName, eq_ok] at h
    obtain ⟨-, -, rfl⟩ := h
    refine ⟨fun x hx => .inl hx, fun v hv => .inl ⟨v, hv, rfl⟩, fun p hp => ?_⟩
    exact .inr ⟨(mem_delete.mp hp).1, fun v hv _ hstate => ⟨v, hv, rfl, hstate⟩⟩
  | retirePoolTemplate pool template => exact retirePoolTemplate_careful h
  | insertVolume record =>
    simp only [perform, Lease.insertVolume, eq_ok] at h
    obtain ⟨volumes, hinsert, rfl⟩ := h
    obtain ⟨-, -, hrows⟩ := insert?_eq_some.mp hinsert
    refine ⟨fun x hx => .inl ?_, fun v hv => .inl ⟨v, hv, rfl⟩,
      fun p hp => .inr ⟨hp, fun v hv _ hstate => ⟨v, hv, rfl, hstate⟩⟩⟩
    rw [hrows]
    exact mem_append_left _ hx
  | deleteVolume id =>
    simp only [perform, Lease.deleteVolume, eq_ok] at h
    obtain ⟨db₁, hdelete, -, -, rfl⟩ := h
    exact deleteVolumeRow_careful hdelete
  | deleteUnattachedVolumeByName name =>
  obtain ⟨⟨record, db₁⟩, hdelete, rfl⟩ := map_eq_ok.mp h
  simp only [Lease.deleteUnattachedVolumeByName, eq_ok] at hdelete
  obtain ⟨x, -, hdelete⟩ := hdelete
  split at hdelete
  · cases hdelete
  · simp only [eq_ok] at hdelete
    obtain ⟨db₂, hdelete, -, rfl⟩ := hdelete
    exact deleteVolumeRow_careful hdelete

lemma CatalogCall.after_careful (db : Db) (call : CatalogCall) : Careful db (call.after db) := by
  unfold after
  split
  · exact perform_careful ‹_›
  · exact .of_same rfl rfl rfl

lemma coherent_of_run {calls : List CatalogCall} (h : catalog.Run Db.fresh calls db) : Coherent db := by
  have hfresh : Coherent Db.fresh := ⟨by simp [Db.fresh], by simp [Db.fresh]⟩
  refine h.invariant hfresh fun s call s' hs hstep => ?_
  cases hstep
  exact (call.after_careful s).coherent hs

/-- In every store that calls can make a volume is held once and exists, a pool has its suspended
template to itself, neither goes while it is referred to, and a refused call changes nothing. -/
theorem catalog_references_hold {calls : List CatalogCall} (h : catalog.Run Db.fresh calls db) :
    (∀ v ∈ db.vms.rows, ∀ w ∈ db.vms.rows, v.volume.isSome → v.volume = w.volume → v = w) ∧
      (∀ v ∈ db.vms.rows, ∀ name, v.volume = some name → ∃ x ∈ db.volumes.rows, x.name = name) ∧
      (∀ p ∈ db.pools.rows, ∃ v ∈ db.vms.rows, v.id = p.templateVmId ∧ v.state = .suspended) ∧
      (∀ p ∈ db.pools.rows, ∀ q ∈ db.pools.rows, p.templateVmId = q.templateVmId → p = q) ∧
      ∀ call : CatalogCall, (∀ e, call.perform db = .error e → call.after db = db) ∧
        (∀ x ∈ db.volumes.rows, x ∉ (call.after db).volumes.rows →
          ∀ v ∈ db.vms.rows, v.volume ≠ some x.name) ∧
        ∀ p ∈ db.pools.rows, (∀ v ∈ (call.after db).vms.rows, v.id ≠ p.templateVmId) →
          p ∉ (call.after db).pools.rows := by
  have hcoherent := coherent_of_run h
  refine ⟨fun v hv w hw hsome heq => ?_, hcoherent.attached, hcoherent.templates,
    fun p hp q hq heq => ?_, fun call => ⟨fun e he => ?_, fun x hx hgone => ?_, fun p _ hgone hp => ?_⟩⟩
  · exact db.vms.eq_of_clash hv hw (by simp [vmSchema, hsome, ← heq])
  · exact db.pools.eq_of_clash hp hq (by simp [poolSchema, heq])
  · rw [CatalogCall.after, he]
  · exact ((call.after_careful db).volumes x hx).resolve_left hgone
  · obtain ⟨v, hv, hid, -⟩ := ((call.after_careful db).coherent hcoherent).templates p hp
    exact hgone v hv hid

/-- A template that holds a volume, a second VM that wants it, a restart, and two removals. -/
def templateCalls : List CatalogCall :=
  [.insertVolume ⟨⟨7⟩, "data"⟩, .insertVm ⟨⟨1⟩, "base", .suspended, 3, none, none, some "data"⟩,
   .insertVm ⟨⟨2⟩, "other", .running, 4, none, none, some "data"⟩,
   .insertPool ⟨⟨5⟩, "pool", ⟨1⟩⟩, .markStaleVmsStopped, .retireVm ⟨1⟩,
   .deleteUnattachedVolumeByName "data"]

/-- The template keeps its volume and its pool. -/
theorem template_references_hold :
    ∃ db, catalog.Run Db.fresh templateCalls db ∧ db.vms.rows.map VmRow.id = [⟨1⟩] ∧
      db.pools.rows.map PoolRow.name = ["pool"] ∧
      ∀ p ∈ db.pools.rows, ∃ v ∈ db.vms.rows, v.id = p.templateVmId ∧ v.state = .suspended := by
  obtain ⟨db, hrun, hvms, hpools⟩ : ∃ db, catalog.Run Db.fresh templateCalls db ∧
      db.vms.rows.map VmRow.id = [⟨1⟩] ∧ db.pools.rows.map PoolRow.name = ["pool"] := by
    apply Machine.exists_run_ofStep
    decide +kernel
  exact ⟨db, hrun, hvms, hpools, (catalog_references_hold hrun).2.2.1⟩

end Husker.Lease
