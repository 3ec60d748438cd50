import Husker.Lease.Lease

/-! # What the lease operations write

One inversion lemma per operation: what it found when it committed, and the tables it
wrote.  The form `db' = { db with … }` states at the same time that nothing else changed.
-/
namespace Husker.Lease
open Relational Store List Table Table

variable {db db' : Db}

lemma clash_of_leaseId {a b : LeaseRow} (h : a.id = b.id) : leaseSchema.clash a b = true := by
  simp [leaseSchema, h]

lemma lease_unique {a b : LeaseRow} (ha : a ∈ db.leases.rows) (hb : b ∈ db.leases.rows)
    (h : a.id = b.id) : a = b :=
  db.leases.eq_of_clash ha hb (clash_of_leaseId h)

lemma clash_of_epoch {a b : EpochRow} (h : a.leaseId = b.leaseId) :
    epochSchema.clash a b = true := by
  simp [epochSchema, h]

lemma epoch_unique {a b : EpochRow} (ha : a ∈ db.epochs.rows) (hb : b ∈ db.epochs.rows)
    (h : a.leaseId = b.leaseId) : a = b :=
  db.epochs.eq_of_clash ha hb (clash_of_epoch h)

variable {id lease : Uuid} {l l' : LeaseRow}

lemma findLease_eq_some : findLease db id = some l ↔ l ∈ db.leases.rows ∧ l.id = id :=
  get?_eq_some fun _ _ => clash_of_leaseId

lemma findLease_isSome : (findLease db id).isSome = true ↔ ∃ l ∈ db.leases.rows, l.id = id := by
  simp [Option.isSome_iff_exists, findLease_eq_some]

lemma findEpoch_eq_some {e : EpochRow} :
    findEpoch db id = some e ↔ e ∈ db.epochs.rows ∧ e.leaseId = id :=
  get?_eq_some fun _ _ => clash_of_epoch

lemma findEpoch_eq_none : findEpoch db id = none ↔ ∀ e ∈ db.epochs.rows, e.leaseId ≠ id :=
  get?_eq_none

lemma findVm_eq_some {v : VmRow} : findVm db id = some v ↔ v ∈ db.vms.rows ∧ v.id = id :=
  get?_eq_some fun _ _ h => by simp [vmSchema, h]

lemma entered_eq_true :
    entered db id = true ↔ ∃ l ∈ db.leases.rows, l.id = id ∧ l.backendEntered = true := by
  simp [entered]

lemma confirmedOn_eq_true :
    confirmedOn db id = true ↔ ∃ e ∈ db.epochs.rows, e.leaseId = id ∧ e.confirmed = true := by
  simp [confirmedOn]

/-! ## Boot evidence -/

lemma insertEpoch_eq_ok {identity : HostBoot} (h : insertEpoch db lease identity = .ok db') :
    (∃ l ∈ db.leases.rows, l.id = lease) ∧ (∀ e ∈ db.epochs.rows, e.leaseId ≠ lease) ∧
      db' = { db with epochs := db'.epochs } ∧
      db'.epochs.rows = db.epochs.rows ++ [⟨lease, identity, false⟩] := by
  simp only [insertEpoch, eq_ok] at h
  obtain ⟨-, -, -, hlease, epochs, hinsert, rfl⟩ := h
  obtain ⟨-, hclash, hrows⟩ := insert?_eq_some.mp hinsert
  refine ⟨findLease_isSome.mp hlease, fun e he hid => ?_, rfl, hrows⟩
  exact hclash e he (clash_of_epoch hid)

/-- What `INSERT OR IGNORE` leaves: the evidence that was there, or the new baseline. -/
lemma insertEpochOrIgnore_eq_ok {identity : HostBoot}
    (h : insertEpochOrIgnore db lease identity = .ok db') : db' = { db with epochs := db'.epochs } ∧
      ((db'.epochs.rows = db.epochs.rows ∧ ∃ e ∈ db.epochs.rows, e.leaseId = lease) ∨
        ((∃ l ∈ db.leases.rows, l.id = lease) ∧ (∀ e ∈ db.epochs.rows, e.leaseId ≠ lease) ∧
          db'.epochs.rows = db.epochs.rows ++ [⟨lease, identity, false⟩])) := by
  simp only [insertEpochOrIgnore, eq_ok] at h
  obtain ⟨-, -, h⟩ := h
  split at h
  case isTrue hsome =>
    simp only [eq_ok] at h
    subst h
    obtain ⟨e, he⟩ := Option.isSome_iff_exists.mp hsome
    obtain ⟨hmem, hid⟩ := findEpoch_eq_some.mp he
    exact ⟨rfl, .inl ⟨rfl, e, hmem, hid⟩⟩
  case isFalse =>
    obtain ⟨hlease, hnone, hdb, hrows⟩ := insertEpoch_eq_ok h
    exact ⟨hdb, .inr ⟨hlease, hnone, hrows⟩⟩

def observed (lease : Uuid) (identity : Option HostBoot) : List EpochRow :=
  identity.toList.map fun i => ⟨lease, i, false⟩

lemma observeOn_eq_ok {identity : Option HostBoot} (h : observeOn db lease identity = .ok db') :
    db' = { db with epochs := db'.epochs } ∧
      (db'.epochs.rows = db.epochs.rows ++ observed lease identity ∨
        (db'.epochs.rows = db.epochs.rows ∧ ∃ e ∈ db.epochs.rows, e.leaseId = lease)) := by
  cases identity with
  | none =>
    simp only [observeOn, eq_ok] at h
    subst h
    exact ⟨rfl, .inl (by simp [observed])⟩
  | some i =>
  simp only [observeOn, eq_ok] at h
  obtain ⟨hdb, ⟨hrows, he⟩ | ⟨-, -, hrows⟩⟩ := insertEpochOrIgnore_eq_ok h
  · exact ⟨hdb, .inr ⟨hrows, he⟩⟩
  · exact ⟨hdb, .inl (by simpa [observed] using hrows)⟩

/-- Entry keeps a baseline of the current boot, records one if there was none, and drops one
when the boot cannot be read. -/
lemma prepareEntryOn_eq_ok {identity : Option HostBoot}
    (h : prepareEntryOn db lease identity = .ok db') : db' = { db with epochs := db'.epochs } ∧
      (∀ e ∈ db.epochs.rows, e.leaseId = lease → e.confirmed = false ∧ ∀ i ∈ identity, e.baseline = i) ∧
      ((∃ i, identity = some i ∧ db'.epochs.rows = db.epochs.rows ∧
          ∃ e ∈ db.epochs.rows, e.leaseId = lease) ∨
        ((∀ e ∈ db.epochs.rows, e.leaseId ≠ lease) ∧
          db'.epochs.rows = db.epochs.rows ++ observed lease identity) ∨
        (identity = none ∧
          db'.epochs.rows = db.epochs.rows.filter fun e => !decide (e.leaseId = lease))) := by
  simp only [prepareEntryOn, eq_ok] at h
  obtain ⟨-, hconfirmed, -, hbaseline, h⟩ := h
  have hguard : ∀ e ∈ db.epochs.rows, e.leaseId = lease →
      e.confirmed = false ∧ ∀ i ∈ identity, e.baseline = i := by
    intro e he hid
    have hfind := findEpoch_eq_some.mpr ⟨he, hid⟩
    rw [hfind] at hconfirmed hbaseline
    exact ⟨by simpa using hconfirmed, hbaseline e rfl⟩
  cases hidentity : identity with
  | none =>
    cases hfind : findEpoch db lease with
    | none =>
      simp only [hidentity, hfind, eq_ok] at h
      subst h
      exact ⟨rfl, by simpa [hidentity] using hguard,
        .inr (.inl ⟨findEpoch_eq_none.mp hfind, by simp [observed]⟩)⟩
    | some e =>
    simp only [hidentity, hfind, eq_ok, deleteEpoch] at h
    obtain ⟨-, -, rfl⟩ := h
    exact ⟨rfl, by simpa [hidentity] using hguard, .inr (.inr ⟨rfl, rfl⟩)⟩
  | some i =>
  rw [hidentity] at hguard
  cases hfind : findEpoch db lease with
  | none =>
    simp only [hidentity, hfind, eq_ok] at h
    obtain ⟨-, hnone, hdb, hrows⟩ := insertEpoch_eq_ok h
    exact ⟨hdb, hguard, .inr (.inl ⟨hnone, by simpa [observed] using hrows⟩)⟩
  | some e =>
  simp only [hidentity, hfind, eq_ok] at h
  subst h
  obtain ⟨he, hid⟩ := findEpoch_eq_some.mp hfind
  exact ⟨rfl, hguard, .inl ⟨i, rfl, rfl, e, he, hid⟩⟩

def FreshEvidence (db : Db) (identity : HostBoot) (e : EpochRow) : Prop :=
  e.baseline = identity ∧ e.confirmed = false ∧ (∃ l ∈ db.leases.rows, l.id = e.leaseId) ∧
    ∀ x ∈ db.epochs.rows, x.leaseId ≠ e.leaseId

private lemma foldlM_insertEpoch_eq_ok {identity : HostBoot} {ls : List LeaseRow}
    (h : ls.foldlM (fun db l => insertEpochOrIgnore db l.id identity) db = .ok db') :
    db' = { db with epochs := db'.epochs } ∧
      ∃ new, db'.epochs.rows = db.epochs.rows ++ new ∧ ∀ e ∈ new, FreshEvidence db identity e := by
  induction ls generalizing db with
  | nil =>
    simp only [foldlM_nil, eq_ok] at h
    subst h
    exact ⟨rfl, [], by simp, by simp⟩
  | cons l ls ih =>
  rw [foldlM_cons, bind_eq_ok] at h
  obtain ⟨db₁, hone, hrest⟩ := h
  obtain ⟨hdb, new, hrows, hnew⟩ := ih hrest
  obtain ⟨hdb₁, hone⟩ := insertEpochOrIgnore_eq_ok hone
  have hleases : db₁.leases = db.leases := by rw [hdb₁]
  refine ⟨by rw [hdb, hdb₁], ?_⟩
  rcases hone with ⟨hrows₁, -⟩ | ⟨hlease, hnone, hrows₁⟩
  · refine ⟨new, by rw [hrows, hrows₁], fun e he => ?_⟩
    have := hnew e he
    rwa [FreshEvidence, hleases, hrows₁] at this
  refine ⟨⟨l.id, identity, false⟩ :: new, by rw [hrows, hrows₁]; simp, fun e he => ?_⟩
  rcases mem_cons.mp he with rfl | he
  · exact ⟨rfl, rfl, hlease, hnone⟩
  · obtain ⟨hbase, hconfirmed, hl, hx⟩ := hnew e he
    rw [hleases] at hl
    exact ⟨hbase, hconfirmed, hl, fun x hxm => hx x (by simp [hrows₁, hxm])⟩

lemma observeLegacyLeaseBoots_eq_ok (h : observeLegacyLeaseBoots db identity = .ok db') :
    db' = { db with epochs := db'.epochs } ∧
      ∃ new, db'.epochs.rows = db.epochs.rows ++ new ∧
        ∀ e ∈ new, ∃ i, identity = some i ∧ FreshEvidence db i e := by
  cases identity with
  | none =>
    simp only [observeLegacyLeaseBoots, eq_ok] at h
    subst h
    exact ⟨rfl, [], by simp, by simp⟩
  | some i =>
    simp only [observeLegacyLeaseBoots, eq_ok] at h
    obtain ⟨hdb, new, hrows, hnew⟩ := foldlM_insertEpoch_eq_ok h
    exact ⟨hdb, new, hrows, fun e he => ⟨i, rfl, hnew e he⟩⟩

/-- A confirmation that changed something: a later boot of the baseline's host. -/
lemma confirmLeaseRebootOn_eq_ok {proof : Bool}
    (h : confirmLeaseRebootOn db lease identity = .ok (proof, db')) :
    db' = { db with epochs := db'.epochs } ∧
      (db'.epochs.rows = db.epochs.rows ∨
        ∃ e ∈ db.epochs.rows, e.leaseId = lease ∧ entered db lease = true ∧
          (∃ i, identity = some i ∧ i.host = e.baseline.host ∧ i.boot ≠ e.baseline.boot) ∧
          db'.epochs.rows = updated db.epochs.rows (fun x => decide (x.leaseId = lease))
            fun x => { x with confirmed := true }) := by
  unfold confirmLeaseRebootOn at h
  split at h
  case h_2 =>
    simp only [eq_ok] at h
    obtain ⟨-, rfl⟩ := h
    exact ⟨rfl, .inl rfl⟩
  case h_1 epoch hfind hentered =>
    obtain ⟨he, hid⟩ := findEpoch_eq_some.mp hfind
    simp only [eq_ok] at h
    obtain ⟨-, -, h⟩ := h
    split at h
    · simp only [eq_ok] at h
      obtain ⟨-, rfl⟩ := h
      exact ⟨rfl, .inl rfl⟩
    split at h
    · simp only [eq_ok] at h
      obtain ⟨-, rfl⟩ := h
      exact ⟨rfl, .inl rfl⟩
    case h_2 i =>
    split at h
    · simp only [eq_ok] at h
      obtain ⟨-, rfl⟩ := h
      exact ⟨rfl, .inl rfl⟩
    case isFalse hother =>
    push Not at hother
    simp only [eq_ok, confirmEpoch] at h
    obtain ⟨epochs, hupdate, -, rfl⟩ := h
    refine ⟨rfl, .inr ⟨epoch, he, hid, hentered, ⟨i, rfl, hother.1, hother.2.1⟩, ?_⟩⟩
    rw [(update?_eq_some hupdate).1]
    unfold updated
    -- the lease has one baseline, so naming it in the statement selects the same row
    refine map_congr_left fun x hx => ?_
    by_cases hx' : x.leaseId = lease
    · rw [epoch_unique hx he (hx'.trans hid.symm)]
      simp [hid, hentered]
    · simp [hx']

/-! ## The CID allocator -/

variable {cid : ℕ}

lemma lowestFreed_eq_some {freed : Finset ℕ} (h : lowestFreed freed = some cid) :
    cid ∈ freed := Finset.mem_of_min h

lemma takeCid_eq_ok (h : takeCid db = .ok (cid, db')) :
    db' = { db with freedCids := db'.freedCids, nextCid := db'.nextCid } ∧
      ((cid ∈ db.freedCids ∧ db'.freedCids = db.freedCids.erase cid ∧ db'.nextCid = db.nextCid) ∨
        (cid = db.nextCid ∧ db'.freedCids = db.freedCids ∧ db'.nextCid = db.nextCid + 1)) := by
  unfold takeCid at h
  split at h
  case h_1 freed hfreed =>
    simp only [eq_ok] at h
    obtain ⟨rfl, rfl⟩ := h
    exact ⟨rfl, .inl ⟨lowestFreed_eq_some hfreed, rfl, rfl⟩⟩
  case h_2 =>
    simp only [eq_ok] at h
    obtain ⟨-, -, rfl, rfl⟩ := h
    exact ⟨rfl, .inr ⟨rfl, rfl, rfl⟩⟩

/-! ## Leases -/

structure Begins (db db' : Db) (seed : LeaseSeed) (vmName : String) (vmId : Option Uuid)
    (lease : LeaseRow) : Prop where
  frame : db' = { db with
    leases := db'.leases, epochs := db'.epochs
    freedCids := db'.freedCids, nextCid := db'.nextCid }
  lease_eq : lease = newLease seed vmName lease.vsockCid vmId
  cid : (lease.vsockCid ∈ db.freedCids ∧ db'.freedCids = db.freedCids.erase lease.vsockCid ∧
      db'.nextCid = db.nextCid) ∨
    (lease.vsockCid = db.nextCid ∧ db'.freedCids = db.freedCids ∧ db'.nextCid = db.nextCid + 1)
  rows : db'.leases.rows = db.leases.rows ++ [lease]
  unused : ∀ l ∈ db.leases.rows, l.id ≠ seed.id ∧ l.vmName ≠ vmName
  epochs : db'.epochs.rows = db.epochs.rows ++ observed seed.id seed.identity ∨
    (db'.epochs.rows = db.epochs.rows ∧ ∃ e ∈ db.epochs.rows, e.leaseId = seed.id)

lemma insertHostResourceLease_eq_ok {seed : LeaseSeed} {vmName : String} {vmId : Option Uuid}
    {lease : LeaseRow} (h : insertHostResourceLease db seed vmName vmId = .ok (lease, db')) :
    Begins db db' seed vmName vmId lease := by
  simp only [insertHostResourceLease, eq_ok] at h
  obtain ⟨⟨cid, db₁⟩, htake, -, hname, leases, hinsert, db₂, hobserve, rfl, rfl⟩ := h
  obtain ⟨hdb₁, hcid⟩ := takeCid_eq_ok htake
  obtain ⟨-, hclash, hrows⟩ := insert?_eq_some.mp hinsert
  obtain ⟨hdb₂, hepochs⟩ := observeOn_eq_ok hobserve
  have hleases : db₁.leases = db.leases := by rw [hdb₁]
  have hold : db₁.epochs = db.epochs := by rw [hdb₁]
  rw [hleases] at hname hrows hclash
  rw [hold] at hepochs
  refine ⟨?_, rfl, ?_, ?_, fun l hl => ⟨fun hid => ?_, hname l hl⟩, hepochs⟩
  · rw [hdb₂, hdb₁]
  · rw [hdb₂]
    exact hcid
  · rw [hdb₂]
    exact hrows
  · exact hclash l hl (clash_of_leaseId hid)

inductive LeaseChange : LeaseRow → LeaseRow → Prop
  | same (l : LeaseRow) : LeaseChange l l
  | enter (l : LeaseRow) (vmId : Uuid) (hentered : l.backendEntered = false)
      (hvm : l.vmId = none ∨ l.vmId = some vmId) (haborted : l.allocationAborted = false) :
      LeaseChange l (enteredRow vmId l)
  | destroy (l : LeaseRow) (hentered : l.backendEntered = true) (hvm : l.vmId.isSome = true) :
      LeaseChange l (destroyedLease l)
  | network (l : LeaseRow) (tapDevice guestIp : Option String)
      (hentered : l.backendEntered = true → tapDevice = l.tapDevice ∧ guestIp = l.guestIp) :
      LeaseChange l (networkLease tapDevice guestIp l)
  | abort (l : LeaseRow) (hentered : l.backendEntered = false) (hvm : l.vmId.isSome = true) :
      LeaseChange l (abortedLease l)

lemma LeaseChange.identity (h : LeaseChange l l') :
    l'.id = l.id ∧ l'.vmName = l.vmName ∧ l'.vsockCid = l.vsockCid := by
  cases h <;> exact ⟨rfl, rfl, rfl⟩

lemma LeaseChange.entered (h : LeaseChange l l')
    (hl : l.backendEntered = true) : l'.backendEntered = true := by
  cases h with
  | enter => rfl
  | _ => exact hl

lemma LeaseChange.aborted (h : LeaseChange l l')
    (hl : l.allocationAborted = true) : l'.allocationAborted = true := by
  cases h with
  | abort => rfl
  | _ => exact hl

variable {columns : List LeaseColumn} {f : LeaseRow → LeaseRow} {n : ℕ} {p : LeaseRow → Bool}

/-- An `UPDATE` of lease rows: its triggers passed and no other table was written. -/
lemma updateLeases_eq_ok (h : updateLeases db columns p f = .ok (n, db')) :
    n = db.leases.matched p ∧ db' = { db with leases := db'.leases } ∧
      db'.leases.rows = updated db.leases.rows p f ∧
      (∀ l ∈ db.leases.rows, p l = true → leaseSchema.aborts columns l (f l) = false) ∧
      (.backendEntered ∈ columns → ∀ l ∈ db.leases.rows, p l = true → l.backendEntered = false →
        (f l).backendEntered = true → confirmedOn db l.id = false) := by
  simp only [updateLeases, eq_ok] at h
  obtain ⟨-, hreenter, leases, hupdate, rfl, rfl⟩ := h
  obtain ⟨hrows, haborts⟩ := update?_eq_some hupdate
  exact ⟨rfl, rfl, hrows, fun l hl hp => (haborts l hl hp).1, hreenter⟩

lemma updateLeases_exact (h : updateLeases db columns p f = .ok (n, db'))
    (hn : n ≠ 0) (hp : ∀ l, p l = true → l.id = id) : db' = { db with leases := db'.leases } ∧
      db'.leases.rows = updated db.leases.rows (fun l => decide (l.id = id)) f ∧
      ∃ l ∈ db.leases.rows, p l = true ∧ leaseSchema.aborts columns l (f l) = false := by
  obtain ⟨rfl, hdb, hrows, haborts, -⟩ := updateLeases_eq_ok h
  rw [ne_eq, matched_eq_zero] at hn
  push Not at hn
  obtain ⟨l, hl, hpl⟩ := hn
  rw [ne_eq, Bool.not_eq_false] at hpl
  refine ⟨hdb, ?_, l, hl, hpl, haborts l hl hpl⟩
  rw [hrows]
  exact updated_eq_updated_key (fun _ _ => clash_of_leaseId) hp hl hpl f

/-- One lease was rewritten to `f l`; the others stay. -/
structure Rewritten (db db' : Db) (l : LeaseRow) (f : LeaseRow → LeaseRow) : Prop where
  mem : l ∈ db.leases.rows
  rows : db'.leases.rows = Table.updated db.leases.rows (fun x => decide (x.id = l.id)) f

variable {vmId : Uuid}

lemma enterHostResourceLeaseBackend_eq_ok (h : enterHostResourceLeaseBackend db id vmId identity = .ok db') :
    ∃ l, Rewritten db db' l (enteredRow vmId) ∧ eligible id vmId l = true ∧
      db' = { db with leases := db'.leases, epochs := db'.epochs } ∧
      ∃ db₁, prepareEntryOn db id identity = .ok db₁ ∧ db'.epochs = db₁.epochs := by
  simp only [enterHostResourceLeaseBackend, eq_ok] at h
  obtain ⟨-, -, db₁, hprepare, ⟨n, db₂⟩, hupdate, -, rfl, rfl⟩ := h
  have hdb₁ := (prepareEntryOn_eq_ok hprepare).1
  have hid : ∀ l, eligible id vmId l = true → l.id = id := by
    intro l hl
    simp only [eligible, Bool.and_eq_true, decide_eq_true_eq] at hl
    exact hl.1.1.1.1
  obtain ⟨hdb₂, hrows, l, hl, hp, -⟩ := updateLeases_exact hupdate one_ne_zero hid
  have hleases : db₁.leases = db.leases := by rw [hdb₁]
  rw [hleases] at hrows hl
  refine ⟨l, ⟨hl, by rw [hrows, hid l hp]⟩, hp, ?_, db₁, hprepare, by rw [hdb₂]⟩
  rw [hdb₂, hdb₁]

lemma recordHostResourceLeaseDestruction_eq_ok (h : recordHostResourceLeaseDestruction db id vmId = .ok db') :
    ∃ l, Rewritten db db' l destroyedLease ∧ l.id = id ∧ l.vmId = some vmId ∧
      l.backendEntered = true ∧ db' = { db with leases := db'.leases } := by
  simp only [recordHostResourceLeaseDestruction, eq_ok] at h
  obtain ⟨⟨n, db₁⟩, hupdate, -, rfl, rfl⟩ := h
  obtain ⟨hdb, hrows, l, hl, hp, -⟩ := updateLeases_exact hupdate one_ne_zero
    (fun l hl => by simp only [Bool.and_eq_true, decide_eq_true_eq] at hl; exact hl.1.1)
  simp only [Bool.and_eq_true, decide_eq_true_eq] at hp
  obtain ⟨⟨rfl, hvm⟩, hentered⟩ := hp
  exact ⟨l, ⟨hl, hrows⟩, rfl, hvm, hentered, hdb⟩

lemma setHostResourceLeaseNetwork_eq_ok {tapDevice guestIp : Option String}
    (h : setHostResourceLeaseNetwork db id tapDevice guestIp = .ok db') :
    ∃ l, Rewritten db db' l (networkLease tapDevice guestIp) ∧ l.id = id ∧
      (l.backendEntered = true → tapDevice = l.tapDevice ∧ guestIp = l.guestIp) ∧
      db' = { db with leases := db'.leases } := by
  simp only [setHostResourceLeaseNetwork, eq_ok] at h
  obtain ⟨⟨n, db₁⟩, hupdate, -, hn, rfl⟩ := h
  obtain ⟨hdb, hrows, l, hl, hp, haborts⟩ := updateLeases_exact hupdate hn fun l hl =>
    of_decide_eq_true hl
  obtain rfl := of_decide_eq_true hp
  refine ⟨l, ⟨hl, hrows⟩, rfl, fun hentered => ?_, hdb⟩
  simp [Schema.aborts, leaseSchema, leaseTriggers, LeaseRow.sameResources, networkLease,
    hentered] at haborts
  exact haborts.1.1

/-! ## Owners -/

structure Drops (db db' : Db) (l : LeaseRow) : Prop where
  mem : l ∈ db.leases.rows
  leases : db'.leases.rows = db.leases.rows.filter fun x => !decide (x.id = l.id)
  epochs : db'.epochs.rows = db.epochs.rows.filter fun e => !decide (e.leaseId = l.id)

lemma deleteLease_eq_ok (h : deleteLease db id = .ok db') :
    (∀ l ∈ db.leases.rows, l.id = id → releaseUnproven db l = false) ∧
      db' = { db with
        leases := db.leases.delete fun l => l.id = id
        epochs := db.epochs.delete fun e => e.leaseId = id } := by
  simp only [deleteLease, eq_ok] at h
  obtain ⟨-, hproof, rfl⟩ := h
  exact ⟨hproof, rfl⟩

variable {record : VmRow}

lemma insertVmOn_eq_ok (h : insertVmOn db record = .ok db') :
    db' = { db with vms := db'.vms } ∧ db'.vms.rows = db.vms.rows ++ [record] ∧
      ∀ v ∈ db.vms.rows, v.id ≠ record.id := by
  obtain ⟨vms, hinsert, rfl⟩ : ∃ vms, db.vms.insert? record = some vms ∧ db' = { db with vms } := by
    unfold insertVmOn at h
    split at h
    · simp only [eq_ok] at h
      obtain ⟨-, -, vms, hinsert, rfl⟩ := h
      exact ⟨vms, hinsert, rfl⟩
    simp only [eq_ok] at h
    obtain ⟨-, -, h⟩ := h
    split at h
    · simp [bind_eq_ok] at h
    · simp only [eq_ok] at h
      obtain ⟨-, -, vms, hinsert, rfl⟩ := h
      exact ⟨vms, hinsert, rfl⟩
  obtain ⟨-, hclash, hrows⟩ := insert?_eq_some.mp hinsert
  exact ⟨rfl, hrows, fun v hv hid => hclash v hv (by simp [vmSchema, hid])⟩

lemma insertVmExpirationOn_eq_ok {expiration : ExpirationRow}
    (h : insertVmExpirationOn db expiration = .ok db') :
    db' = { db with expirations := db'.expirations } := by
  simp only [insertVmExpirationOn, eq_ok] at h
  obtain ⟨-, -, expirations, -, rfl⟩ := h
  rfl

/-- A transfer: the VM record has exactly the identity of the lease it replaces. -/
lemma commit_eq_ok {leaseId : Uuid} {expiration : Option ExpirationRow}
    (h : commitVmFromHostResourceLeaseWithExpiration db record leaseId expiration = .ok db') :
    ∃ l, Drops db db' l ∧ l.id = leaseId ∧ transfersTo l record = true ∧
      db' = { db with
        leases := db'.leases, epochs := db'.epochs, vms := db'.vms
        expirations := db'.expirations } ∧
      db'.vms.rows = db.vms.rows ++ [record] := by
  simp only [commitVmFromHostResourceLeaseWithExpiration, eq_ok] at h
  obtain ⟨-, -, l, hfind, -, htransfer, db₁, hinsert, h⟩ := h
  obtain ⟨hl, rfl⟩ := findLease_eq_some.mp hfind
  obtain ⟨hdb₁, hvms, -⟩ := insertVmOn_eq_ok hinsert
  obtain ⟨db₂, hdb₂, hdelete⟩ : ∃ db₂ : Db, db₂ = { db₁ with expirations := db₂.expirations } ∧
      deleteLease db₂ l.id = .ok db' := by
    cases expiration with
    | none =>
      simp only [eq_ok] at h
      obtain ⟨_, rfl, hdelete⟩ := h
      exact ⟨db₁, rfl, hdelete⟩
    | some expiration =>
      simp only [eq_ok] at h
      obtain ⟨db₂, hexpire, hdelete⟩ := h
      exact ⟨db₂, insertVmExpirationOn_eq_ok hexpire, hdelete⟩
  obtain ⟨-, rfl⟩ := deleteLease_eq_ok hdelete
  refine ⟨l, ⟨hl, ?_, ?_⟩, rfl, htransfer, ?_, ?_⟩
  · rw [hdb₂, hdb₁]; rfl
  · rw [hdb₂, hdb₁]; rfl
  · rw [hdb₂, hdb₁]
  · rw [hdb₂]; exact hvms

/-- A release: of nothing, or of a lease whose generation cannot live, with its CID. -/
lemma releaseHostResourceLease_eq_ok (h : releaseHostResourceLease db id = .ok db') :
    db' = db ∨ ∃ l, Drops db db' l ∧ l.id = id ∧
      (l.backendEntered = false ∨ l.vmDestroyed = true ∨ confirmedOn db id = true) ∧
      db' = { db with
        leases := db'.leases, epochs := db'.epochs
        freedCids := insert l.vsockCid db.freedCids } := by
  unfold releaseHostResourceLease at h
  split at h
  case h_1 =>
    simp only [eq_ok] at h
    exact .inl h.symm
  case h_2 l hfind =>
    obtain ⟨hl, rfl⟩ := findLease_eq_some.mp hfind
    simp only [eq_ok] at h
    obtain ⟨-, hproof, hdelete⟩ := h
    obtain ⟨-, rfl⟩ := deleteLease_eq_ok hdelete
    exact .inr ⟨l, ⟨hl, rfl, rfl⟩, rfl, hproof, rfl⟩

structure Retires (db db' : Db) (v : VmRow) : Prop where
  mem : v ∈ db.vms.rows
  vms : db'.vms.rows = db.vms.rows.filter fun x => !decide (x.id = v.id)
  frame : db' = { db with
    vms := db'.vms, expirations := db'.expirations, pools := db'.pools
    freedCids := insert v.vsockCid db.freedCids }

lemma deleteVmRow_eq_ok (h : deleteVmRow db id = .ok db') : db' = { db with
      vms := db.vms.delete fun v => v.id = id
      expirations := db.expirations.delete fun e => e.vmId = id } := by
  simp only [deleteVmRow, eq_ok] at h
  obtain ⟨-, -, rfl⟩ := h
  rfl

lemma retireVm_eq_ok (h : retireVm db id = .ok db') : ∃ v, Retires db db' v ∧ v.id = id := by
  unfold retireVm at h
  split at h
  · simp at h
  · simp only [eq_ok] at h
    obtain ⟨v, hfind, hdelete⟩ := h
    obtain ⟨hv, rfl⟩ := findVm_eq_some.mp hfind
    obtain rfl := deleteVmRow_eq_ok hdelete
    exact ⟨v, ⟨hv, rfl, rfl⟩, rfl⟩

lemma retirePoolTemplate_eq_ok {poolId templateVmId : Uuid}
    (h : retirePoolTemplate db poolId templateVmId = .ok db') :
    ∃ v, Retires db db' v ∧ v.id = templateVmId := by
  simp only [retirePoolTemplate, eq_ok] at h
  obtain ⟨-, -, -, -, v, hfind, hdelete⟩ := h
  obtain ⟨hv, rfl⟩ := findVm_eq_some.mp hfind
  obtain rfl := deleteVmRow_eq_ok hdelete
  exact ⟨v, ⟨hv, rfl, rfl⟩, rfl⟩

lemma insertPool_eq_ok {record : PoolRow} (h : insertPool db record = .ok db') :
    db' = { db with pools := db'.pools } := by
  simp only [insertPool, eq_ok] at h
  obtain ⟨-, -, -, -, h⟩ := h
  split at h
  · simp at h
  · simp only [eq_ok] at h
    obtain ⟨pools, -, rfl⟩ := h
    rfl

lemma updateVmState_eq_ok {state : VmLifecycleState} (h : updateVmState db id state = .ok db') :
    db' = { db with vms := db'.vms } ∧
      db'.vms.rows = updated db.vms.rows (fun v => decide (v.id = id))
        fun v => { v with state } := by
  simp only [updateVmState, eq_ok] at h
  obtain ⟨-, -, vms, hupdate, -, -, rfl⟩ := h
  exact ⟨rfl, (update?_eq_some hupdate).1⟩

end Husker.Lease
