import Husker.Relational.Pool
import Husker.System.Custody

/-! # Ownership of vsock CIDs

The CIDs of leases and VM records, the free list and the counter form a pool.  Every call is a
step of that pool, so no CID has two owners or is offered while it has one.
-/
namespace Husker.System
open Relational Store Journal Lease List Table

section
variable {c : Codec} {db db' : Db} {w w' : World} {e : Event}

def leaseCids (db : Db) : Multiset ℕ := db.leases.rows.map LeaseRow.vsockCid

def vmCids (db : Db) : Multiset ℕ := db.vms.rows.map VmRow.vsockCid

def cids (db : Db) : Pool := ⟨leaseCids db + vmCids db, db.freedCids, db.nextCid⟩

variable {l : LeaseRow} {trace : List Event}

lemma mem_leaseCids (h : l ∈ db.leases.rows) : l.vsockCid ∈ leaseCids db := mem_map_of_mem h

variable {v : VmRow}

lemma mem_vmCids (h : v ∈ db.vms.rows) : v.vsockCid ∈ vmCids db := mem_map_of_mem h

lemma cids_eq (hleases : leaseCids db' = leaseCids db) (hvms : vmCids db' = vmCids db)
    (hfreed : db'.freedCids = db.freedCids) (hnext : db'.nextCid = db.nextCid) :
    cids db' = cids db := by
  rw [cids, hleases, hvms, hfreed, hnext, cids]

lemma cids_of_sameHost (h : SameHost db db') : cids db' = cids db := by
  apply cids_eq _ _ h.freedCids h.nextCid
  · rw [leaseCids, h.leases, leaseCids]
  · rw [vmCids, h.vms, vmCids]

lemma Rewritten.leaseCids {f : LeaseRow → LeaseRow} (h : Rewritten db db' l f)
    (hf : ∀ l, (f l).vsockCid = l.vsockCid) : leaseCids db' = leaseCids db := by
  rw [System.leaseCids, h.rows, map_updated hf, System.leaseCids]

lemma Drops.leaseCids (h : Drops db db' l) : leaseCids db' = (leaseCids db).erase l.vsockCid := by
  have hrows : (db'.leases.rows : Multiset LeaseRow) = (db.leases.rows : Multiset LeaseRow).erase l := by
    rw [h.leases]
    exact coe_delete_key (fun _ _ => clash_of_leaseId) h.mem
  rw [System.leaseCids, ← Multiset.map_coe, hrows, Multiset.map_erase_of_mem _ _ h.mem]
  rfl

lemma Retires.vmCids (h : Retires db db' v) : vmCids db' = (vmCids db).erase v.vsockCid := by
  have hrows : (db'.vms.rows : Multiset VmRow) = (db.vms.rows : Multiset VmRow).erase v := by
    rw [h.vms]
    exact coe_delete_key (fun _ _ h => by simp [vmSchema, h]) h.mem
  rw [System.vmCids, ← Multiset.map_coe, hrows, Multiset.map_erase_of_mem _ _ h.mem]
  rfl

lemma transfersTo_eq_true {record : VmRow} (h : transfersTo l record = true) :
    l.backendEntered = true ∧ l.vmDestroyed = false ∧ l.vmId = some record.id ∧
      l.vmName = record.name ∧ l.vsockCid = record.vsockCid := by
  simp only [transfersTo, Bool.and_eq_true, decide_eq_true_eq, Bool.not_eq_true'] at h
  exact ⟨h.1.1.1.1.1.1, h.1.1.1.1.1.2, h.1.1.1.1.2, h.1.1.1.2, h.1.1.2⟩

lemma HostEffect.cids {t : Tx} (h : HostEffect db t db') : Pool.Step (cids db) (cids db') := by
  have hsame (heq : System.cids db' = System.cids db) : Pool.Step (System.cids db) (System.cids db') :=
    heq ▸ .same _
  cases h with
  | idle h => exact hsame (cids_of_sameHost h)
  | relabel hleases hepochs hnext hfreed hvms =>
    apply hsame
    apply cids_eq _ _ hfreed hnext
    · rw [leaseCids, hleases, leaseCids]
    · have howners := congrArg (List.map fun o : Uuid × String × ℕ => o.2.2) hvms
      rw [map_map, map_map] at howners
      exact congrArg Multiset.ofList howners
  | begins seed name vmId lease hdraw _ h =>
    have hrows : db'.leases.rows = db.leases.rows ++ [lease] := h.rows
    have hleases : leaseCids db' = lease.vsockCid ::ₘ leaseCids db := by
      rw [leaseCids, leaseCids, hrows, map_append, Multiset.cons_coe, Multiset.coe_eq_coe]
      exact perm_append_singleton _ _
    have hvms : vmCids db' = vmCids db := by rw [vmCids, h.frame, vmCids]
    rcases h.cid with ⟨hfree, hfreed, hnext⟩ | ⟨hcid, hfreed, hnext⟩
    · have heq : System.cids db' = ⟨lease.vsockCid ::ₘ (System.cids db).held,
          db.freedCids.erase lease.vsockCid, db.nextCid⟩ := by
        rw [System.cids, hleases, hvms, hfreed, hnext, Multiset.cons_add, System.cids]
      rw [heq]
      exact .reuse (System.cids db) lease.vsockCid hfree
    · have heq : System.cids db' = ⟨db.nextCid ::ₘ (System.cids db).held, db.freedCids,
          db.nextCid + 1⟩ := by
        rw [System.cids, hleases, hvms, hfreed, hnext, Multiset.cons_add, hcid, System.cids]
      rw [heq]
      exact .extend (System.cids db)
  | enter _ _ _ _ _ hl _ hframe | destroy _ _ _ _ hl _ _ _ hframe | network _ _ _ _ hl _ hframe
  | abort _ _ _ _ _ hl _ hframe =>
    apply hsame
    apply cids_eq (Rewritten.leaseCids hl fun _ => rfl) <;> rw [hframe]
    rfl
  | observe _ _ hframe | confirm _ _ _ _ hframe =>
    apply hsame
    rw [hframe]
    rfl
  | transfer record expiration l ht hl hrecord hframe hvms =>
    apply hsame
    have hcid := (transfersTo_eq_true hrecord).2.2.2.2
    have hvms' : vmCids db' = l.vsockCid ::ₘ vmCids db := by
      rw [vmCids, vmCids, hvms, map_append, Multiset.cons_coe, Multiset.coe_eq_coe, hcid]
      exact perm_append_singleton _ _
    have hheld : (leaseCids db).erase l.vsockCid + l.vsockCid ::ₘ vmCids db =
        leaseCids db + vmCids db := by
      rw [Multiset.add_cons, ← Multiset.cons_add, Multiset.cons_erase (mem_leaseCids hl.mem)]
    rw [System.cids, Drops.leaseCids hl, hvms', hheld, hframe, System.cids]
  | release l ht hl hproof hframe =>
    have hvms : vmCids db' = vmCids db := by rw [vmCids, hframe, vmCids]
    have hmem := mem_leaseCids hl.mem
    have heq : System.cids db' = ⟨(System.cids db).held.erase l.vsockCid,
        insert l.vsockCid db.freedCids, db.nextCid⟩ := by
      rw [System.cids, Drops.leaseCids hl, hvms, ← Multiset.erase_add_left_pos _ hmem, hframe,
        System.cids]
    rw [heq]
    exact .giveBack (System.cids db) l.vsockCid (Multiset.mem_add.mpr (.inl hmem))
  | retire v ht hv =>
  have hleases : leaseCids db' = leaseCids db := by rw [leaseCids, hv.frame, leaseCids]
  have hmem := mem_vmCids hv.mem
  have heq : System.cids db' = ⟨(System.cids db).held.erase v.vsockCid,
      insert v.vsockCid db.freedCids, db.nextCid⟩ := by
    rw [System.cids, Retires.vmCids hv, hleases, ← Multiset.erase_add_right_pos _ hmem, hv.frame,
      System.cids]
  rw [heq]
  exact .giveBack (System.cids db) v.vsockCid (Multiset.mem_add.mpr (.inr hmem))

lemma step_cids (h : (store c).step w e w') : Pool.Step (cids w.db) (cids w'.db) := by
  cases step_host h with
  | idle hsame =>
    rw [cids_of_sameHost hsame]
    exact .same _
  | commit t reply _ _ heffect => exact heffect.cids
  | purge base _ _ hdb =>
    rw [hdb]
    exact .forget (cids w.db) _ _ (Finset.filter_subset _ _) le_rfl
  | raise base _ _ hdb =>
    rw [hdb]
    exact .forget (cids w.db) _ _ (Finset.filter_subset _ _) (le_max_left _ _)

lemma Reachable.cids (hw : Reachable c w) : Pool.Sound 3 (cids w.db) := by
  obtain ⟨trace, hrun⟩ := hw
  exact hrun.invariant (I := fun w : World => Pool.Sound 3 (System.cids w.db)) (Pool.Sound.empty 3)
    fun _ _ _ hsound hstep => (step_cids hstep).sound hsound

/-! ## Where the CID of an entered lease goes -/

def Event.retires (e : Event) (vmId : Uuid) : Prop :=
  (e.call = .tx (.retireVm vmId) ∨ ∃ pool, e.call = .tx (.retirePoolTemplate pool vmId)) ∧
    ∃ reply, e.outcome = .ok reply

/-- The event released a lease that was destroyed or whose host had rebooted. -/
def ReleasesProven (leaseId : Uuid) (w : World) (e : Event) (_ : World) : Prop :=
  (∃ reply, e.call = .tx (.releaseHostResourceLease leaseId) ∧ e.outcome = .ok reply) ∧
    ∃ l ∈ w.db.leases.rows, l.id = leaseId ∧
      (l.vmDestroyed = true ∨ confirmedOn w.db leaseId = true)

/-- The run released the lease with a proof, or transferred it and then retired the record. -/
def Returned (c : Codec) (w : World) (l : LeaseRow) (trace : List Event) : Prop :=
  (store c).Visits w trace (ReleasesProven l.id) ∨
    ∃ record before after, trace = before ++ after ∧ (∃ e ∈ before, e.transfers l.id record) ∧
      ∃ e ∈ after, e.retires record.id

lemma Returned.snoc (h : Returned c w l trace) (e : Event) : Returned c w l (trace ++ [e]) := by
  rcases h with hvisits | ⟨record, before, after, rfl, htransfer, e', he', hretire⟩
  · exact .inl (hvisits.append [e])
  · exact .inr ⟨record, before, after ++ [e], by simp, htransfer, e',
      mem_append_left _ he', hretire⟩

inductive Holder (c : Codec) (w : World) (l : LeaseRow) (trace : List Event) (w' : World) : Prop
  | lease (x : LeaseRow) (hx : x ∈ w'.db.leases.rows) (hid : x.id = l.id)
      (hcid : x.vsockCid = l.vsockCid) (hentered : x.backendEntered = true)
  | record (v record : VmRow) (hv : v ∈ w'.db.vms.rows) (howner : owner v = owner record)
      (hcid : record.vsockCid = l.vsockCid) (htransfer : ∃ e ∈ trace, e.transfers l.id record)
  | nobody (h : Returned c w l trace)

lemma Holder.step {w₁ w₂ : World}
    (h : Holder c w l trace w₁) (hrun : (store c).Run w trace w₁) (hstep : (store c).step w₁ e w₂) :
    Holder c w l (trace ++ [e]) w₂ := by
  cases h with
  | lease x hx hid hcid hentered =>
    rcases step_keeps_lease hstep hx with ⟨x', hx', hchange⟩ |
      ⟨record, expiration, reply, hcall, hout, htransfer, hmem⟩ | ⟨reply, hcall, hout, hproof⟩
    · obtain ⟨hid', -, hcid'⟩ := hchange.identity
      exact .lease x' hx' (hid'.trans hid) (hcid'.trans hcid) (hchange.entered hentered)
    · refine .record record record hmem rfl ?_ ⟨e, by simp, expiration, reply, hid ▸ hcall, hout⟩
      exact (transfersTo_eq_true htransfer).2.2.2.2.symm.trans hcid
    · refine .nobody (.inl (hrun.visits hstep ⟨⟨reply, hid ▸ hcall, hout⟩, x, hx, hid, ?_⟩))
      rw [hentered, hid] at hproof
      simpa using hproof
  | record v record hv howner hcid htransfer =>
    obtain ⟨e', he', htransfer⟩ := htransfer
    rcases step_keeps_vm hstep hv with ⟨v', hv', howner'⟩ | hretire
    · exact .record v' record hv' (howner'.trans howner) hcid
        ⟨e', mem_append_left _ he', htransfer⟩
    · have hid : v.id = record.id := congrArg Prod.fst howner
      rw [hid] at hretire
      exact .nobody (.inr ⟨record, trace, [e], rfl, ⟨e', he', htransfer⟩, e, by simp, hretire⟩)
  | nobody h => exact .nobody (h.snoc e)

lemma holder_of_run (hl : l ∈ w.db.leases.rows)
    (hentered : l.backendEntered = true) (h : (store c).Run w trace w') : Holder c w l trace w' :=
  h.history (.lease l hl rfl rfl hentered) fun _ _ _ _ hrun hI hstep => hI.step hrun hstep

def ownedCids (db : Db) : List ℕ :=
  db.leases.rows.map LeaseRow.vsockCid ++ db.vms.rows.map VmRow.vsockCid

lemma held_cids (db : Db) : (cids db).held = ownedCids db := Multiset.coe_add _ _

lemma step_error (h : (store c).step w e w') {err : JournalError} (hout : e.outcome = .error err) :
    w'.db.leases = w.db.leases ∧ w'.db.vms = w.db.vms ∧ w'.db.nextCid = w.db.nextCid ∧
      (w'.db.freedCids = w.db.freedCids ∨ ∃ base, e.call = .ensureCidBase base ∧
        w'.db.freedCids = w.db.freedCids.filter fun cid => ¬cid < max base 3) := by
  cases step_host h with
  | idle h => exact ⟨h.leases, h.vms, h.nextCid, .inl h.freedCids⟩
  | commit t reply _ hok | raise base _ hok => cases hok.symm.trans hout
  | purge base hcall _ hdb =>
    rw [hdb]
    exact ⟨rfl, rfl, rfl, .inr ⟨base, hcall, rfl⟩⟩

/-- Every CID has one owner, over any calls in any order.

The CIDs of leases and VM records are pairwise distinct, none of them is offered again, and all
lie between 3 and the counter.  A failed call changes neither owners nor allocator, except that a
floor that could not be raised may already have dropped the free CIDs below it.  The CID of a
lease that was entered comes back only with a proof, or with the VM record that took it over. -/
theorem cids_have_one_owner (c : Codec) {before after : List Event}
    (hbefore : (store c).Run .init before w) (hafter : (store c).Run w after w') :
    (ownedCids w.db).Nodup ∧ (∀ cid ∈ ownedCids w.db, cid ∉ w.db.freedCids) ∧
    (∀ cid, cid ∈ ownedCids w.db ∨ cid ∈ w.db.freedCids → 3 ≤ cid ∧ cid < w.db.nextCid) ∧
    (∀ e err, after = [e] → e.outcome = .error err →
      w'.db.leases = w.db.leases ∧ w'.db.vms = w.db.vms ∧ w'.db.nextCid = w.db.nextCid ∧
        (w'.db.freedCids = w.db.freedCids ∨ ∃ base, e.call = .ensureCidBase base ∧
          w'.db.freedCids = w.db.freedCids.filter fun cid => ¬cid < max base 3)) ∧
    (∀ l ∈ w.db.leases.rows, l.backendEntered = true → l.vsockCid ∈ w'.db.freedCids →
      Returned c w l after) := by
  have hw : Reachable c w := ⟨before, hbefore⟩
  have hsound := Reachable.cids hw
  have hsound' := Reachable.cids (Reachable.run hw hafter)
  have hmem (cid : ℕ) : cid ∈ ownedCids w.db ↔ cid ∈ (cids w.db).held := by
    rw [held_cids, Multiset.mem_coe]
  refine ⟨?_, fun cid hcid => hsound.disjoint cid ((hmem cid).mp hcid),
    fun cid hcid => hsound.range cid (hcid.imp_left (hmem cid).mp), ?_, ?_⟩
  · rw [← Multiset.coe_nodup, ← held_cids]
    exact hsound.nodup
  · rintro e err rfl hout
    cases hafter with
    | cons hstep hnil =>
      cases hnil
      exact step_error hstep hout
  · intro l hl hentered hfree
    cases holder_of_run hl hentered hafter with
    | lease x hx hid hcid =>
      have hheld : x.vsockCid ∈ (cids w'.db).held := Multiset.mem_add.mpr (.inl (mem_leaseCids hx))
      exact absurd (hcid ▸ hfree) (hsound'.disjoint _ hheld)
    | record v record hv howner hcid =>
      have hheld : v.vsockCid ∈ (cids w'.db).held := Multiset.mem_add.mpr (.inr (mem_vmCids hv))
      have hsame : v.vsockCid = l.vsockCid := (congrArg (·.2.2) howner).trans hcid
      exact absurd (hsame ▸ hfree) (hsound'.disjoint _ hheld)
    | nobody h => exact h

/-- A lease that is begun and entered, next to one that is released unused. -/
def enteredLease : List Call := [
  .tx (.beginHostResourceLease ⟨.ofNat 1, .ofSeconds 0, none⟩ "spare"),
  .tx (.beginHostResourceLease ⟨.ofNat 2, .ofSeconds 0, none⟩ "vm"),
  .tx (.enterHostResourceLeaseBackend (.ofNat 2) (.ofNat 7) none),
  .tx (.releaseHostResourceLease (.ofNat 1))]

def destroyedRelease : List Call := [
  .tx (.releaseHostResourceLease (.ofNat 2)),
  .tx (.recordHostResourceLeaseDestruction (.ofNat 2) (.ofNat 7)),
  .tx (.releaseHostResourceLease (.ofNat 2))]

def enteredWorld : World := (World.init.calls .emptyObject enteredLease).2

def returnedWorld : World := (enteredWorld.calls .emptyObject destroyedRelease).2

theorem entered_cid_returns_proven :
    ownedCids enteredWorld.db = [4] ∧ enteredWorld.db.freedCids = {3} ∧
    returnedWorld.db.freedCids = {3, 4} ∧ ∃ l ∈ enteredWorld.db.leases.rows, l.vsockCid = 4 ∧
      Returned .emptyObject enteredWorld l (enteredWorld.calls .emptyObject destroyedRelease).1 := by
  have hbefore := World.calls_run .emptyObject .init enteredLease (by decide)
  have hafter := World.calls_run .emptyObject enteredWorld destroyedRelease (by decide)
  obtain ⟨l, hl, hcid, hentered⟩ : ∃ l ∈ enteredWorld.db.leases.rows, l.vsockCid = 4 ∧
      l.backendEntered = true := by decide +kernel
  have hfreed : returnedWorld.db.freedCids = {3, 4} := by decide +kernel
  refine ⟨by decide +kernel, by decide +kernel, hfreed, l, hl, hcid, ?_⟩
  apply (cids_have_one_owner .emptyObject hbefore hafter).2.2.2.2 l hl hentered
  have hmem : l.vsockCid ∈ returnedWorld.db.freedCids := by simp [hfreed, hcid]
  exact hmem

/-- Raising the floor is two statements; when the second one fails the free list has already
changed. -/
theorem failed_floor_forgets_freed :
    Reachable .emptyObject enteredWorld ∧ ∃ e w', (store .emptyObject).step enteredWorld e w' ∧
      e.call = .ensureCidBase 1000 ∧ e.outcome = .error storageFailure ∧
      enteredWorld.db.freedCids = {3} ∧ w'.db.freedCids = ∅ := by
  refine ⟨⟨_, World.calls_run .emptyObject .init enteredLease (by decide)⟩,
    ⟨.ensureCidBase 1000, some 1, .error storageFailure⟩,
    ⟨purgeFreedBelow enteredWorld.db 1000, enteredWorld.issued ++ []⟩, ⟨by decide, rfl, rfl⟩, rfl,
    rfl, by decide +kernel, by decide +kernel⟩

end

/-! ## The floor of the CID range

Two daemons on one host keep apart by the floor each one sets for its CIDs.  Setting it drops the
free CIDs below it once; a lease or a VM record from before may still give one back.
-/

variable {c : Codec} {db db' : Db} {w w' : World} {e : Event} {cid floor : ℕ}

def Event.leased (e : Event) : Option LeaseRow :=
  match e.outcome with
  | .ok (.lease lease) | .ok (.bound _ lease) => some lease
  | _ => none

def Event.handsOut (e : Event) (cid : ℕ) : Prop := e.leased.map LeaseRow.vsockCid = some cid

instance (e : Event) (cid : ℕ) : Decidable (e.handsOut cid) :=
  inferInstanceAs (Decidable (e.leased.map LeaseRow.vsockCid = some cid))

lemma Event.handsOut_cases (h : e.handsOut cid) : ∃ lease : LeaseRow, lease.vsockCid = cid ∧
    (e.outcome = .ok (.lease lease) ∨ ∃ record, e.outcome = .ok (.bound record lease)) := by
  obtain ⟨lease, hlease, hcid⟩ := Option.map_eq_some_iff.mp h
  unfold Event.leased at hlease
  split at hlease
  · rename_i hout
    cases hlease
    exact ⟨_, hcid, .inl hout⟩
  · rename_i record _ hout
    cases hlease
    exact ⟨_, hcid, .inr ⟨record, hout⟩⟩
  · cases hlease

def Call.returns (db : Db) : Call → List ℕ
  | .tx (.releaseHostResourceLease id) =>
    (db.leases.rows.filter fun l => l.id = id).map LeaseRow.vsockCid
  | .tx (.retireVm id) | .tx (.retirePoolTemplate _ id) =>
    (db.vms.rows.filter fun v => v.id = id).map VmRow.vsockCid
  | _ => []

def GivesBackAbove (floor : ℕ) (w : World) (e : Event) : Prop :=
  ∀ cid ∈ e.call.returns w.db, floor ≤ cid

instance (floor : ℕ) (w : World) (e : Event) : Decidable (GivesBackAbove floor w e) :=
  inferInstanceAs (Decidable (∀ cid ∈ e.call.returns w.db, floor ≤ cid))

structure Above (floor : ℕ) (db : Db) : Prop where
  freed : ∀ cid ∈ db.freedCids, floor ≤ cid
  next : floor ≤ db.nextCid

lemma returns_of_lease {l : LeaseRow} (hl : l ∈ db.leases.rows) :
    l.vsockCid ∈ Call.returns db (.tx (.releaseHostResourceLease l.id)) :=
  mem_map_of_mem (mem_filter.mpr ⟨hl, by simp⟩)

lemma returns_of_vm {v : VmRow} (hv : v ∈ db.vms.rows) :
    v.vsockCid ∈ (db.vms.rows.filter fun x => x.id = v.id).map VmRow.vsockCid :=
  mem_map_of_mem (mem_filter.mpr ⟨hv, by simp⟩)

variable {t : Tx} {lease : LeaseRow}

lemma HostEffect.freed (h : HostEffect db t db') (hcid : cid ∈ db'.freedCids) :
    cid ∈ db.freedCids ∨ cid ∈ (Call.tx t).returns db := by
  cases h with
  | idle h => exact .inl (h.freedCids ▸ hcid)
  | relabel hleases hepochs hnext hfreed => exact .inl (hfreed ▸ hcid)
  | begins seed name vmId lease hdraw _ h =>
    rcases h.cid with ⟨-, hfreed, -⟩ | ⟨-, hfreed, -⟩
    · rw [hfreed] at hcid
      exact .inl (Finset.mem_of_mem_erase hcid)
    · exact .inl (hfreed ▸ hcid)
  | enter _ _ _ _ _ _ _ hframe | destroy _ _ _ _ _ _ _ _ hframe | network _ _ _ _ _ _ hframe
  | abort _ _ _ _ _ _ _ hframe | observe _ _ hframe | confirm _ _ _ _ hframe
  | transfer _ _ _ _ _ _ hframe =>
    rw [hframe] at hcid
    exact .inl hcid
  | release l ht hl hproof hframe =>
    rw [hframe] at hcid
    rcases Finset.mem_insert.mp hcid with rfl | hcid
    · exact .inr (ht ▸ returns_of_lease hl.mem)
    · exact .inl hcid
  | retire v ht hv =>
  rw [hv.frame] at hcid
  rcases Finset.mem_insert.mp hcid with rfl | hcid
  · right
    rcases ht with rfl | ⟨pool, rfl⟩
    · exact returns_of_vm hv.mem
    · exact returns_of_vm hv.mem
  · exact .inl hcid

lemma step_above (h : ((store c).when (GivesBackAbove floor)).step w e w')
    (habove : Above floor w.db) : Above floor w'.db := by
  refine ⟨fun cid hcid => ?_, habove.next.trans (step_cids h.1).next_le⟩
  cases step_host h.1 with
  | idle hsame => exact habove.freed cid (hsame.freedCids ▸ hcid)
  | commit t reply hcall _ heffect =>
    rcases heffect.freed hcid with hold | hback
    · exact habove.freed cid hold
    · exact h.2 cid (hcall ▸ hback)
  | purge base _ _ hdb | raise base _ _ hdb =>
    rw [hdb] at hcid
    exact habove.freed cid (Finset.mem_of_mem_filter cid hcid)

lemma step_raises {base : ℕ} (h : (store c).step w e w') (hcall : e.call = .ensureCidBase base)
    (hok : e.outcome = .ok .done) : Above (max base 3) w'.db := by
  have hraise : ∀ x, perform c x w.db (.ensureCidBase base) = (.ok .done, w'.db) →
      w'.db = raiseNextCid (purgeFreedBelow w.db base) base := by
    intro x hx
    simp only [perform] at hx
    split at hx
    · cases hx
    · cases hx
    · exact (Prod.mk.inj hx).2.symm
  have hperform := h.2.1
  rw [hcall, hok] at hperform
  rw [hraise _ hperform]
  refine ⟨fun cid hcid => ?_, le_max_right _ _⟩
  exact not_lt.mp (Finset.mem_filter.mp hcid).2

lemma Begins.above {seed : LeaseSeed} {name : String} {vmId : Option Uuid}
    (h : Begins db db' seed name vmId lease) (habove : Above floor db) :
    floor ≤ lease.vsockCid := by
  rcases h.cid with ⟨hfree, -, -⟩ | ⟨hcid, -, -⟩
  · exact habove.freed _ hfree
  · exact hcid ▸ habove.next

lemma body_lease_above (habove : Above floor db)
    (h : body c db t = .ok (.lease lease, db')) : floor ≤ lease.vsockCid := by
  cases t with
  | beginHostResourceLease | beginHostResourceLeaseForVm =>
    obtain ⟨row, hbody, hreply⟩ := withReply_eq_ok.mp h
    cases hreply
    exact Begins.above (insertHostResourceLease_eq_ok (mapError_eq_ok.mp hbody)) habove
  | _ => simp [body, noReply_eq_ok, withReply_eq_ok] at h

lemma body_bound_above {record : JobRecord} (habove : Above floor db)
    (h : body c db t = .ok (.bound record lease, db')) : floor ≤ lease.vsockCid := by
  cases t with
  | bindJobVmWithLease =>
    rw [body] at h
    obtain ⟨⟨job, row⟩, hbody, hreply⟩ := withReply_eq_ok.mp h
    cases hreply
    exact Begins.above (bindJobVmWithLease_begins hbody) ⟨habove.freed, habove.next⟩
  | _ => simp [body, noReply_eq_ok, withReply_eq_ok] at h

lemma handsOut_tx (h : (store c).step w e w') (hcid : e.handsOut cid) : ∃ t, e.call = .tx t := by
  obtain ⟨lease, -, hout⟩ := Event.handsOut_cases hcid
  have hperform := h.2.1
  cases hcall : e.call with
  | tx t => exact ⟨t, rfl⟩
  | expireJobEvidence now =>
    rw [hcall] at hperform
    simp only [perform] at hperform
    have hresult := (Prod.mk.inj hperform).1
    cases hdelete : (deleteAll e.fault w.db (expiredJobs w.db now)).1 with
    | error err =>
      rcases hout with hout | ⟨record, hout⟩ <;> simp [hdelete, hout, Except.map] at hresult
    | ok u =>
      rcases hout with hout | ⟨record, hout⟩ <;> simp [hdelete, hout, Except.map] at hresult
  | ensureCidBase base =>
    rw [hcall] at hperform
    simp only [perform] at hperform
    split at hperform <;> rcases hout with hout | ⟨record, hout⟩ <;> simp [hout] at hperform

lemma step_handsOut (h : (store c).step w e w') (habove : Above floor w.db)
    (hcid : e.handsOut cid) : floor ≤ cid := by
  obtain ⟨t, ht⟩ := handsOut_tx h hcid
  obtain ⟨lease, rfl, hout | ⟨record, hout⟩⟩ := Event.handsOut_cases hcid
  · exact body_lease_above habove (step_body h ht hout)
  · exact body_bound_above habove (step_body h ht hout)

/-- Once the floor is raised, no CID below it is handed out, as long as none is given back.

The calls before may be any, and so may those after: leases, transfers, releases, retirements and
other floors, committed or refused. -/
theorem floor_is_kept (c : Codec) {base : ℕ} {w₁ w₂ : World} {after : List Event}
    (hraise : (store c).step w e w₁) (hcall : e.call = .ensureCidBase base)
    (hok : e.outcome = .ok .done)
    (hafter : ((store c).when (GivesBackAbove (max base 3))).Run w₁ after w₂) :
    ∀ e ∈ after, ∀ cid, e.handsOut cid → max base 3 ≤ cid := by
  have habove := step_raises hraise hcall hok
  clear hraise
  induction hafter with
  | nil => simp
  | cons hstep _ ih =>
  intro e he cid hcid
  rcases mem_cons.mp he with rfl | he
  · exact step_handsOut hstep.1 habove hcid
  · exact ih (step_above hstep habove) e he cid hcid

/-- Whether calls made one after another give back no CID below the floor. -/
def World.givesBackAbove (c : Codec) (floor : ℕ) : World → List Call → Bool
  | _, [] => true
  | w, call :: rest =>
    decide (GivesBackAbove floor w (w.call c call).1) &&
      World.givesBackAbove c floor (w.call c call).2 rest

lemma World.calls_run_above (c : Codec) (w : World) (calls : List Call)
    (hdraws : freshDraws w.issued calls = true) (habove : w.givesBackAbove c floor calls = true) :
    ((store c).when (GivesBackAbove floor)).Run w (w.calls c calls).1 (w.calls c calls).2 := by
  induction calls generalizing w with
  | nil => exact .nil w
  | cons call rest ih =>
    simp only [freshDraws, Bool.and_eq_true, all_eq_true, decide_eq_true_eq] at hdraws
    simp only [World.givesBackAbove, Bool.and_eq_true, decide_eq_true_eq] at habove
    exact .cons ⟨⟨hdraws.1, rfl, rfl⟩, habove.1⟩ (ih (w.call c call).2 hdraws.2 habove.2)

def leasedWorld : World :=
  (World.init.calls .emptyObject
    [.tx (.beginHostResourceLease ⟨.ofNat 1, .ofSeconds 0, none⟩ "old")]).2

def raised : Event × World := leasedWorld.call .emptyObject (.ensureCidBase 1000)

def newLeases : List Call := [
  .tx (.beginHostResourceLease ⟨.ofNat 2, .ofSeconds 0, none⟩ "first"),
  .tx (.releaseHostResourceLease (.ofNat 2)),
  .tx (.beginHostResourceLease ⟨.ofNat 3, .ofSeconds 0, none⟩ "second")]

def oldRelease : List Call := [
  .tx (.releaseHostResourceLease (.ofNat 1)),
  .tx (.beginHostResourceLease ⟨.ofNat 2, .ofSeconds 0, none⟩ "first")]

lemma raised_step : (store .emptyObject).step leasedWorld raised.1 raised.2 := ⟨by decide, rfl, rfl⟩

theorem new_leases_stay_above_floor : leasedWorld.db.leases.rows.map LeaseRow.vsockCid = [3] ∧
    (raised.2.calls .emptyObject newLeases).1.map (fun e => e.leased.map LeaseRow.vsockCid) =
      [some 1000, none, some 1000] ∧
    ∀ e ∈ (raised.2.calls .emptyObject newLeases).1, ∀ cid, e.handsOut cid → max 1000 3 ≤ cid := by
  refine ⟨by decide +kernel, by decide +kernel, ?_⟩
  apply floor_is_kept .emptyObject raised_step rfl rfl
  exact World.calls_run_above .emptyObject raised.2 newLeases (by decide +kernel) (by decide +kernel)

/-- The lease that had CID 3 before the floor was raised gives it back, and the next lease gets it. -/
theorem old_cid_is_handed_out_below_floor : Reachable .emptyObject leasedWorld ∧
    (store .emptyObject).step leasedWorld raised.1 raised.2 ∧
    raised.1.call = .ensureCidBase 1000 ∧ raised.1.outcome = .ok .done ∧
    ∃ after w, (store .emptyObject).Run raised.2 after w ∧ ∃ e ∈ after, e.handsOut 3 := by
  refine ⟨⟨_, World.calls_run .emptyObject .init _ (by decide)⟩, raised_step, rfl, rfl, _, _,
    World.calls_run .emptyObject raised.2 oldRelease (by decide +kernel), ?_⟩
  decide +kernel

end Husker.System
