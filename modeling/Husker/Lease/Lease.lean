import Husker.Store.Schema

/-! # Creation leases

A lease owns a vsock CID, a VM name and a planned generation from before the first host
resource is touched until the VM record takes them over or they are released.
-/
namespace Husker.Lease
open Relational Store

/-! ## Boot evidence of creation leases

A daemon restart is not a termination receipt, but a later boot of the same host proves that
nothing allocated in the earlier boot still runs.  Every function takes the identity that
`current()` read, which is absent when the host does not report one.
-/

def findLease (db : Db) (id : Uuid) : Option LeaseRow := db.leases.get? LeaseRow.id id

def findEpoch (db : Db) (lease : Uuid) : Option EpochRow := db.epochs.get? EpochRow.leaseId lease

def entered (db : Db) (lease : Uuid) : Bool :=
  db.leases.rows.any fun l => l.id = lease && l.backendEntered

def confirmedOn (db : Db) (lease : Uuid) : Bool :=
  db.epochs.rows.any fun e => e.leaseId = lease && e.confirmed

/-- The trigger `creation_lease_boot_epoch_cannot_be_replaced`. -/
def replacesEvidence (db : Db) (lease : Uuid) : Bool :=
  db.leases.rows.any (fun l => l.id = lease) &&
    db.epochs.rows.any fun e => e.leaseId = lease && (entered db lease || e.confirmed)

/-- `INSERT INTO creation_lease_boot_epochs`, whose lease must exist. -/
def insertEpoch (db : Db) (lease : Uuid) (identity : HostBoot) : Except SqlError Db := do
  ensure (replacesEvidence db lease = false) .constraint
  ensure ((findLease db lease).isSome = true) .constraint
  let epochs ← orError (db.epochs.insert? ⟨lease, identity, false⟩) .constraint
  return { db with epochs }

/-- The same with `OR IGNORE`, which keeps evidence that is already there. -/
def insertEpochOrIgnore (db : Db) (lease : Uuid) (identity : HostBoot) : Except SqlError Db := do
  ensure (replacesEvidence db lease = false) .constraint
  if (findEpoch db lease).isSome then return db else insertEpoch db lease identity

/-- `DELETE`, guarded by the trigger `creation_lease_boot_epoch_cannot_be_forgotten`. -/
def deleteEpoch (db : Db) (lease : Uuid) : Except SqlError Db := do
  ensure (replacesEvidence db lease = false) .constraint
  return { db with epochs := db.epochs.delete fun e => e.leaseId = lease }

def observeOn (db : Db) (lease : Uuid) (identity : Option HostBoot) : Except StateError Db :=
  match identity with
  | none => .ok db
  | some identity => (insertEpochOrIgnore db lease identity).mapError .database

/-- Bind evidence to backend entry.  A baseline of another boot refuses the entry; an
unreadable identity revokes the baseline. -/
def prepareEntryOn (db : Db) (lease : Uuid) (identity : Option HostBoot) :
    Except StateError Db := do
  let baseline := findEpoch db lease
  ensure (baseline.all (fun e => !e.confirmed) = true) (.hostResourceLeaseMismatch lease)
  ensure (∀ e ∈ baseline, ∀ i ∈ identity, e.baseline = i) (.hostResourceLeaseMismatch lease)
  match identity, baseline with
  | none, some _ => (deleteEpoch db lease).mapError .database
  | some identity, none => (insertEpoch db lease identity).mapError .database
  | _, _ => return db

/-- On opening the store, leases without evidence are observed in the current boot. -/
def observeLegacyLeaseBoots (db : Db) (identity : Option HostBoot) : Except StateError Db :=
  match identity with
  | none => .ok db
  | some identity =>
    let missing := db.leases.rows.filter fun l => (findEpoch db l.id).isNone
    (missing.foldlM (fun db l => insertEpochOrIgnore db l.id identity) db).mapError .database

/-- The trigger-checked `UPDATE … SET confirmed=1` of one baseline. -/
def confirmEpoch (db : Db) (lease : Uuid) (baseline : HostBoot) : Except SqlError (Bool × Db) := do
  let p : EpochRow → Bool := fun e => e.leaseId = lease && e.baseline = baseline && entered db lease
  let epochs ← orError (db.epochs.update? [()] p fun e => { e with confirmed := true }) .constraint
  return (db.epochs.matched p = 1, { db with epochs })

def confirmLeaseRebootOn (db : Db) (lease : Uuid) (identity : Option HostBoot) :
    Except StateError (Bool × Db) :=
  match findEpoch db lease, entered db lease with
  | some epoch, true => do
    ensure (epoch.baseline.host.isNil = false ∧ epoch.baseline.boot.isNil = false)
      (.corruptData "creation_lease_boot_epochs" "invalid host or boot UUID")
    if epoch.confirmed then return (true, db)
    match identity with
    | none => return (false, db)
    | some identity =>
      if identity.host ≠ epoch.baseline.host ∨ identity.boot = epoch.baseline.boot ∨
          identity.boot.isNil = true then
        return (false, db)
      else (confirmEpoch db lease epoch.baseline).mapError .database
  | _, _ => .ok (false, db)

def lowestFreed (freed : Finset ℕ) : Option ℕ := freed.min

/-- Pick a CID: the lowest released one, or the next never used.  A counter that no longer
fits the 32 bits it is read into is an error, not a wrap. -/
def takeCid (db : Db) : Except StateError (ℕ × Db) :=
  match lowestFreed db.freedCids with
  | some cid => .ok (cid, { db with freedCids := db.freedCids.erase cid })
  | none => do
    ensure (db.nextCid < 2 ^ 32) (.database .outOfRange)
    return (db.nextCid, { db with nextCid := db.nextCid + 1 })

/-- `INSERT OR IGNORE INTO freed_cids`. -/
def freeCid (db : Db) (cid : ℕ) : Db := { db with freedCids := insert cid db.freedCids }

/-- What the source reads from the clock and the random generator for one lease. -/
structure LeaseSeed where
  id : Uuid
  createdAt : DateTime
  identity : Option HostBoot

def newLease (seed : LeaseSeed) (vmName : String) (cid : ℕ) (vmId : Option Uuid) : LeaseRow where
  id := seed.id
  vmName := vmName
  vsockCid := cid
  tapDevice := none
  guestIp := none
  createdAt := seed.createdAt
  vmId := vmId
  backendEntered := false
  vmDestroyed := false
  allocationAborted := false

def insertHostResourceLease (db : Db) (seed : LeaseSeed) (vmName : String) (vmId : Option Uuid) :
    Except StateError (LeaseRow × Db) := do
  let (cid, db) ← takeCid db
  let lease := newLease seed vmName cid vmId
  ensure (∀ l ∈ db.leases.rows, l.vmName ≠ vmName) (.hostResourcesLeased vmName)
  let leases ← orError (db.leases.insert? lease) (.database .constraint)
  let db ← observeOn { db with leases } seed.id seed.identity
  return (lease, db)

def beginHostResourceLeaseInner (db : Db) (seed : LeaseSeed) (vmName : String)
    (vmId : Option Uuid) : Except StateError (LeaseRow × Db) :=
  insertHostResourceLease db seed vmName vmId

def beginHostResourceLease (db : Db) (seed : LeaseSeed) (vmName : String) :
    Except StateError (LeaseRow × Db) :=
  beginHostResourceLeaseInner db seed vmName none

def beginHostResourceLeaseForVm (db : Db) (seed : LeaseSeed) (vmName : String) (vmId : Uuid) :
    Except StateError (LeaseRow × Db) :=
  beginHostResourceLeaseInner db seed vmName (some vmId)

/-- `UPDATE host_resource_leases`, with the trigger `creation_lease_cannot_reenter_after_reboot`
on top of those of the table. -/
def updateLeases (db : Db) (columns : List LeaseColumn) (p : LeaseRow → Bool)
    (f : LeaseRow → LeaseRow) : Except SqlError (ℕ × Db) := do
  ensure (.backendEntered ∈ columns → ∀ l ∈ db.leases.rows, p l = true → l.backendEntered = false →
    (f l).backendEntered = true → confirmedOn db l.id = false) .constraint
  let leases ← orError (db.leases.update? columns p f) .constraint
  return (db.leases.matched p, { db with leases })

def eligible (id vmId : Uuid) (l : LeaseRow) : Bool :=
  l.id = id && !l.backendEntered && (l.vmId.isNone || l.vmId = some vmId) && !l.vmDestroyed &&
    !l.allocationAborted

def enteredRow (vmId : Uuid) (l : LeaseRow) : LeaseRow :=
  { l with vmId := some vmId, backendEntered := true }

def enterHostResourceLeaseBackend (db : Db) (id vmId : Uuid) (identity : Option HostBoot) :
    Except StateError Db := do
  ensure (db.leases.rows.any (eligible id vmId) = true ∧ vmId.isNil = false)
    (.hostResourceLeaseMismatch id)
  let db ← prepareEntryOn db id identity
  let (changed, db) ← (updateLeases db [.vmId, .backendEntered] (eligible id vmId)
    (enteredRow vmId)).mapError .database
  ensure (changed = 1) (.hostResourceLeaseMismatch id)
  return db

def abortedLease (l : LeaseRow) : LeaseRow := { l with allocationAborted := true }

def destroyedLease (l : LeaseRow) : LeaseRow := { l with vmDestroyed := true }

def recordHostResourceLeaseDestruction (db : Db) (id vmId : Uuid) : Except StateError Db := do
  let (changed, db) ← (updateLeases db [.vmDestroyed]
    (fun l => l.id = id && l.vmId = some vmId && l.backendEntered) destroyedLease).mapError .database
  ensure (changed = 1) (.hostResourceLeaseMismatch id)
  return db

def networkLease (tapDevice guestIp : Option String) (l : LeaseRow) : LeaseRow :=
  { l with tapDevice, guestIp }

def setHostResourceLeaseNetwork (db : Db) (id : Uuid) (tapDevice guestIp : Option String) :
    Except StateError Db := do
  let (changed, db) ← (updateLeases db [.tapDevice, .guestIp] (fun l => l.id = id)
    (networkLease tapDevice guestIp)).mapError .database
  ensure (changed ≠ 0) (.hostResourceLeaseNotFound id)
  return db

/-- The trigger `creation_lease_release_requires_proof`. -/
def releaseUnproven (db : Db) (l : LeaseRow) : Bool :=
  l.backendEntered && !l.vmDestroyed &&
    !db.vms.rows.any (fun v => some v.id = l.vmId && v.name = l.vmName && v.vsockCid = l.vsockCid) &&
    !confirmedOn db l.id

/-- `DELETE FROM host_resource_leases`; the boot evidence of the lease goes with it. -/
def deleteLease (db : Db) (id : Uuid) : Except SqlError Db := do
  ensure (∀ l ∈ db.leases.rows, l.id = id → releaseUnproven db l = false) .constraint
  return { db with
    leases := db.leases.delete fun l => l.id = id
    epochs := db.epochs.delete fun e => e.leaseId = id }

def insertVmOn (db : Db) (record : VmRow) : Except StateError Db := do
  match record.volume with
  | none => pure ()
  | some volume =>
    ensure (db.volumes.rows.any (fun v => v.name = volume) = true) (.volumeNotFoundByName volume)
    match db.vms.rows.find? (fun v => v.volume = some volume) with
    | some vm => .error (.volumeAttached volume vm.name)
    | none => pure ()
  ensure (∀ v ∈ db.vms.rows, v.name ≠ record.name) (.vmAlreadyExists record.name)
  let vms ← orError (db.vms.insert? record) (.database .constraint)
  return { db with vms }

def insertVmExpirationOn (db : Db) (expiration : ExpirationRow) : Except StateError Db := do
  ensure (db.vms.rows.any (fun v => v.id = expiration.vmId) = true) (.database .constraint)
  let expirations ← orError (db.expirations.insert? expiration) (.database .constraint)
  return { db with expirations }

/-- Whether a lease is the exact identity of the VM record that takes it over. -/
def transfersTo (l : LeaseRow) (record : VmRow) : Bool :=
  l.backendEntered && !l.vmDestroyed && l.vmId = some record.id && l.vmName = record.name &&
    l.vsockCid = record.vsockCid && l.tapDevice = record.tapDevice && l.guestIp = record.guestIp

def commitVmFromHostResourceLeaseWithExpiration (db : Db) (record : VmRow) (leaseId : Uuid)
    (expiration : Option ExpirationRow) : Except StateError Db := do
  ensure (∀ e ∈ expiration, e.vmId = record.id) (.vmExpirationMismatch record.id)
  let lease ← orError (findLease db leaseId) (.hostResourceLeaseNotFound leaseId)
  ensure (transfersTo lease record = true) (.hostResourceLeaseMismatch leaseId)
  let db ← insertVmOn db record
  let db ← match expiration with
    | none => pure db
    | some expiration => insertVmExpirationOn db expiration
  (deleteLease db leaseId).mapError .database

def releaseHostResourceLease (db : Db) (id : Uuid) : Except StateError Db :=
  match findLease db id with
  | none => .ok db
  | some lease => do
    ensure (lease.backendEntered = false ∨ lease.vmDestroyed = true ∨ confirmedOn db id = true)
      (.hostResourceLeaseMismatch id)
    (deleteLease (freeCid db lease.vsockCid) id).mapError .database

/-! ## VM records as owners of a CID

A committed lease leaves its CID with the VM record.  Retiring the record, alone or together
with the pool whose template it is, returns the CID in the same transaction.
-/

def findVm (db : Db) (id : Uuid) : Option VmRow := db.vms.get? VmRow.id id

def poolOf (db : Db) (vm : Uuid) : Option PoolRow := db.pools.get? PoolRow.templateVmId vm

/-- `UPDATE vms SET state`, with the trigger `pool_template_state_is_immutable`. -/
def updateVmState (db : Db) (id : Uuid) (state : VmLifecycleState) : Except StateError Db := do
  ensure (state ≠ .suspended → (findVm db id).isSome → (poolOf db id).isNone) (.database .constraint)
  let vms ← orError (db.vms.update? [()] (fun v => v.id = id) fun v => { v with state })
    (.database .constraint)
  ensure (db.vms.matched (fun v => v.id = id) ≠ 0) (.vmNotFound id)
  return { db with vms }

def insertPool (db : Db) (record : PoolRow) : Except StateError Db := do
  ensure (∀ p ∈ db.pools.rows, p.name ≠ record.name) (.poolAlreadyExists record.name)
  ensure ((findVm db record.templateVmId).map VmRow.state = some .suspended)
    (.poolTemplateUnavailable record.name record.templateVmId)
  match poolOf db record.templateVmId with
  | some pool => .error (.poolTemplateOwned record.templateVmId pool.name)
  | none =>
    let pools ← orError (db.pools.insert? record) (.database .constraint)
    return { db with pools }

/-- `DELETE FROM vms`, with the trigger `pool_template_cannot_be_deleted`; the expiration of
the VM goes with it. -/
def deleteVmRow (db : Db) (id : Uuid) : Except SqlError Db := do
  ensure ((findVm db id).isSome → (poolOf db id).isNone) .constraint
  return { db with
    vms := db.vms.delete fun v => v.id = id
    expirations := db.expirations.delete fun e => e.vmId = id }

def retireVm (db : Db) (id : Uuid) : Except StateError Db :=
  match poolOf db id with
  | some pool => .error (.poolTemplateOwned id pool.name)
  | none => do
    let vm ← orError (findVm db id) (.vmNotFound id)
    (deleteVmRow (freeCid db vm.vsockCid) id).mapError .database

def retirePoolTemplate (db : Db) (poolId templateVmId : Uuid) : Except StateError Db := do
  let pool ← orError (db.pools.get? PoolRow.id poolId) (.poolNotFound poolId)
  ensure (pool.templateVmId = templateVmId) (.poolTemplateMismatch poolId templateVmId)
  let vm ← orError (findVm db templateVmId) (.vmNotFound templateVmId)
  let db := freeCid db vm.vsockCid
  (deleteVmRow { db with pools := db.pools.delete fun p => p.id = poolId } templateVmId).mapError
    .database

/-- The first statement of `ensure_cid_base`: forget released CIDs below the floor. -/
def purgeFreedBelow (db : Db) (base : ℕ) : Db :=
  { db with freedCids := db.freedCids.filter fun cid => ¬cid < max base 3 }

/-- The second statement of `ensure_cid_base`: raise the counter, never lower it. -/
def raiseNextCid (db : Db) (base : ℕ) : Db :=
  { db with nextCid := max db.nextCid (max base 3) }

end Husker.Lease
