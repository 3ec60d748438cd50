import Husker.System.Custody
import Husker.System.Ownership

/-! # The fence before backend entry

The worker that enters the backend and the recovery that aborts the allocation race for one
lease.  Both test the same row in one transaction, so at most one of them succeeds, and an
abort marks the lease and its job together.
-/
namespace Husker.System
open Relational Store Journal Lease List Rewritten Table

variable {c : Codec} {db db' : Db} {w w' : World} {e : Event} {id vmId leaseId : Uuid}
  {name : String}

def Tx.races : Tx → Bool
  | .enterHostResourceLeaseBackend .. | .recordJobLeasedPrebackendAbort ..
  | .recordHostResourceLeaseDestruction .. | .finishJob .. | .finishJobFailure ..
  | .markJobRunning .. | .commitVmFromHostResourceLease .. | .releaseHostResourceLease .. => true
  | _ => false

def Call.races : Call → Bool
  | .tx t => t.races
  | _ => false

def Event.aborts (e : Event) (leaseId : Uuid) : Prop :=
  ∃ id vmId reply, e.call = .tx (.recordJobLeasedPrebackendAbort id vmId leaseId) ∧
    e.outcome = .ok reply

lemma step_aborts (h : (store c).step w e w') (he : e.aborts leaseId) :
    (∃ l ∈ w.db.leases.rows, l.id = leaseId ∧ l.backendEntered = false) ∧
      ∀ l' ∈ w'.db.leases.rows, l'.id = leaseId → l'.allocationAborted = true := by
  obtain ⟨id, vmId, reply, hcall, hout⟩ := he
  have hbody := (noReply_eq_ok.mp (step_body h hcall hout)).1
  obtain ⟨-, -, -, -, -, -, -, -, l, hl, hfence, -⟩ := recordJobLeasedPrebackendAbort_eq_ok hbody
  obtain ⟨rfl, -, -, hentered, -⟩ := fenceable_eq_true hfence
  refine ⟨⟨l, hl.mem, rfl, hentered⟩, fun l' hl' hid => ?_⟩
  rw [at_id hl hl' hid]
  rfl

/-- What the events of a run say about a lease, and that they do not say both. -/
structure Exclusive (leaseId : Uuid) (trace : List Event) (w : World) : Prop where
  entered : (∃ e ∈ trace, e.enters leaseId) →
    ∀ l ∈ w.db.leases.rows, l.id = leaseId → l.backendEntered = true
  aborted : (∃ e ∈ trace, e.aborts leaseId) →
    ∀ l ∈ w.db.leases.rows, l.id = leaseId → l.allocationAborted = true
  one : ¬((∃ e ∈ trace, e.enters leaseId) ∧ ∃ e ∈ trace, e.aborts leaseId)

variable {trace : List Event} {t : Tx}

lemma Exclusive.step (hx : Exclusive leaseId trace w)
    (hissued : leaseId ∈ w.issued) (h : (store c).step w e w') :
    Exclusive leaseId (trace ++ [e]) w' := by
  have hback : ∀ l' ∈ w'.db.leases.rows, l'.id = leaseId →
      ∃ l ∈ w.db.leases.rows, l.id = leaseId ∧ LeaseChange l l' := by
    intro l' hl' hid
    rcases step_lease h hl' with ⟨l, hl, hchange⟩ | ⟨seed, name, cid, vmId, hdraw, rfl⟩
    · exact ⟨l, hl, hchange.identity.1.symm.trans hid, hchange⟩
    · rw [← hid] at hissued
      exact absurd hissued (h.1 _ hdraw)
  refine ⟨fun ⟨e', he', henters⟩ l' hl' hid => ?_, fun ⟨e', he', haborts⟩ l' hl' hid => ?_, ?_⟩
  · rcases mem_append.mp he' with he' | he'
    · obtain ⟨l, hl, hlid, hchange⟩ := hback l' hl' hid
      exact hchange.entered (hx.entered ⟨e', he', henters⟩ l hl hlid)
    · rw [mem_singleton.mp he'] at henters
      exact (step_enters h henters).2 l' hl' hid
  · rcases mem_append.mp he' with he' | he'
    · obtain ⟨l, hl, hlid, hchange⟩ := hback l' hl' hid
      exact hchange.aborted (hx.aborted ⟨e', he', haborts⟩ l hl hlid)
    · rw [mem_singleton.mp he'] at haborts
      exact (step_aborts h haborts).2 l' hl' hid
  · rintro ⟨⟨e₁, he₁, henters⟩, e₂, he₂, haborts⟩
    rcases mem_append.mp he₁ with he₁ | he₁ <;> rcases mem_append.mp he₂ with he₂ | he₂
    · exact hx.one ⟨⟨e₁, he₁, henters⟩, e₂, he₂, haborts⟩
    · rw [mem_singleton.mp he₂] at haborts
      obtain ⟨⟨l, hl, hid, hentered⟩, -⟩ := step_aborts h haborts
      simp [hx.entered ⟨e₁, he₁, henters⟩ l hl hid] at hentered
    · rw [mem_singleton.mp he₁] at henters
      obtain ⟨⟨l, hl, hid, haborted⟩, -⟩ := step_enters h henters
      simp [hx.aborted ⟨e₂, he₂, haborts⟩ l hl hid] at haborted
    · rw [mem_singleton.mp he₁] at henters
      rw [mem_singleton.mp he₂] at haborts
      obtain ⟨_, _, _, hcall, -⟩ := henters
      obtain ⟨_, _, _, hcall', -⟩ := haborts
      rw [hcall] at hcall'
      cases hcall'

lemma exclusive_of_run (hissued : leaseId ∈ w.issued)
    (h : (store c).Run w trace w') : Exclusive leaseId trace w' := by
  refine (h.history (I := fun trace w' => leaseId ∈ w'.issued ∧ Exclusive leaseId trace w')
    ⟨hissued, by simp, by simp, by simp⟩ ?_).2
  intro trace w₁ e w₂ _ ⟨hissued, hx⟩ hstep
  exact ⟨issued_mono hstep _ hissued, hx.step hissued hstep⟩

/-! ## The two abort flags -/

def generation (r : JobRow) : Uuid × Option Uuid × Option String × Bool :=
  (r.id, r.vmId, r.vmName, r.vmAllocationAborted)

lemma finishJobInner_generation {state : JobState} {collection : CollectionState}
    {manifest : String} {preserveStaged : Bool} {record : JobRecord}
    (h : finishJobInner c db id state collection manifest preserveStaged = .ok (record, db')) :
    db'.jobs.rows.map generation = db.jobs.rows.map generation := by
  rcases finishJobInner_eq_ok h with rfl | ⟨m, hupdate⟩
  · rfl
  · rw [(update?_eq_some (updateJob_eq_ok hupdate).2).1]
    exact map_updated fun _ => rfl

variable {reply : Reply}

lemma races_generation (ht : t.races = true)
    (habort : ∀ id vmId leaseId, t ≠ .recordJobLeasedPrebackendAbort id vmId leaseId)
    (h : body c db t = .ok (reply, db')) :
    db'.jobs.rows.map generation = db.jobs.rows.map generation := by
  have hsame (hjobs : db'.jobs = db.jobs) :
      db'.jobs.rows.map generation = db.jobs.rows.map generation := by rw [hjobs]
  cases t with
  | finishJob =>
    obtain ⟨_, h, -⟩ := withReply_eq_ok.mp h
    exact finishJobInner_generation h
  | finishJobFailure =>
    obtain ⟨_, h, -⟩ := withReply_eq_ok.mp h
    exact finishJobInner_generation (finishJobFailure_eq_ok h).2.2
  | markJobRunning =>
    obtain ⟨n, hupdate⟩ := markJobRunning_eq_ok (noReply_eq_ok.mp h).1
    rw [(update?_eq_some (updateJobs_eq_ok hupdate).2.2).1]
    exact map_updated fun _ => rfl
  | recordJobLeasedPrebackendAbort => exact absurd rfl (habort _ _ _)
  | enterHostResourceLeaseBackend =>
    obtain ⟨-, -, -, hframe, -⟩ := enterHostResourceLeaseBackend_eq_ok (quiet_ok h)
    exact hsame (by rw [hframe])
  | recordHostResourceLeaseDestruction =>
    obtain ⟨-, -, -, -, -, hframe⟩ := recordHostResourceLeaseDestruction_eq_ok (quiet_ok h)
    exact hsame (by rw [hframe])
  | commitVmFromHostResourceLease =>
    obtain ⟨-, -, -, -, hframe, -⟩ := commit_eq_ok (quiet_ok h)
    exact hsame (by rw [hframe])
  | releaseHostResourceLease =>
    rcases releaseHostResourceLease_eq_ok (quiet_ok h) with rfl | ⟨_, -, -, -, hframe⟩
    · rfl
    · exact hsame (by rw [hframe])
  | _ => simp [Tx.races] at ht

/-- A lease that was there before, under the same name and as free of an abort. -/
def Stays (db : Db) (l' : LeaseRow) : Prop :=
  ∃ l ∈ db.leases.rows, l'.id = l.id ∧ l'.vmName = l.vmName ∧
    l'.allocationAborted = l.allocationAborted ∧ ∀ vmId, l.vmId = some vmId → l'.vmId = some vmId

lemma HostEffect.unfenced (h : HostEffect db t db') (ht : t.draws = [])
    (habort : ∀ id vmId leaseId, t ≠ .recordJobLeasedPrebackendAbort id vmId leaseId)
    {l' : LeaseRow} (hl' : l' ∈ db'.leases.rows) : Stays db l' := by
  have hsame (hmem : l' ∈ db.leases.rows) : Stays db l' := ⟨l', hmem, rfl, rfl, rfl, fun _ h => h⟩
  have hrewritten {l : LeaseRow} {f : LeaseRow → LeaseRow} (hl : Rewritten db db' l f)
      (hf : (f l).id = l.id ∧ (f l).vmName = l.vmName ∧
        (f l).allocationAborted = l.allocationAborted ∧
        ∀ vmId, l.vmId = some vmId → (f l).vmId = some vmId) : Stays db l' := by
    rcases (mem_rows hl).mp hl' with rfl | hmem
    · exact ⟨l, hl.mem, hf⟩
    · exact hsame hmem.1
  cases h with
  | idle h => exact hsame (h.leases ▸ hl')
  | relabel hleases => exact hsame (hleases ▸ hl')
  | begins seed name vmId lease hdraw => simp [ht] at hdraw
  | enter id vmId identity l _ hl heligible =>
    obtain ⟨-, -, hvm, -⟩ := eligible_eq_true heligible
    refine hrewritten hl ⟨rfl, rfl, rfl, fun x hx => ?_⟩
    rcases hvm with hvm | hvm
    · cases hvm.symm.trans hx
    · exact hvm.symm.trans hx
  | destroy id vmId l _ hl => exact hrewritten hl ⟨rfl, rfl, rfl, fun _ h => h⟩
  | network tapDevice guestIp l _ hl => exact hrewritten hl ⟨rfl, rfl, rfl, fun _ h => h⟩
  | abort id vmId leaseId l h => exact absurd h (habort id vmId leaseId)
  | observe identity _ hframe | confirm id identity e _ hframe =>
    rw [hframe] at hl'
    exact hsame hl'
  | transfer record expiration l _ hl | release l _ hl =>
    rw [hl.leases] at hl'
    exact hsame (mem_of_mem_filter hl')
  | retire v _ hv =>
    rw [hv.frame] at hl'
    exact hsame hl'

/-- A job, its generation and the lease begun for it; their abort flags agree. -/
structure Linked (id vmId leaseId : Uuid) (name : String) (db : Db) : Prop where
  job : ∃ r ∈ db.jobs.rows, r.id = id ∧ r.vmId = some vmId ∧ r.vmName = some name ∧
    ∀ l ∈ db.leases.rows, l.id = leaseId → l.allocationAborted = r.vmAllocationAborted
  lease : ∀ l ∈ db.leases.rows, l.id = leaseId → l.vmId = some vmId ∧ l.vmName = name
  named : ∀ l ∈ db.leases.rows, l.vmName = name → l.id = leaseId

lemma linked_of_bind {seed : LeaseSeed} {now : DateTime} {job : JobRecord} {lease : LeaseRow}
    (h : bindJobVmWithLease db seed now id vmId name = .ok ((job, lease), db')) :
    Linked id vmId seed.id name db' ∧ (∀ r ∈ db.jobs.rows, r.vmId ≠ some vmId) ∧
      (∀ l ∈ db.leases.rows, l.id ≠ seed.id) ∧ lease ∈ db'.leases.rows ∧ lease.id = seed.id := by
  have hbegins := bindJobVmWithLease_begins h
  obtain ⟨db₁, hbind, hunbound, hbegins₁⟩ := bindJobVmWithLease_eq_ok h
  have hjobs : db'.jobs = db₁.jobs := by rw [hbegins₁.frame]
  obtain ⟨r, hr, hid, -, haborted, ⟨-, hbound, -⟩ | ⟨-, hfree, -, hupdate⟩⟩ := bindOn_eq_ok hbind
  · cases (hunbound r hr hid).symm.trans hbound
  have hr' : boundRow vmId name r ∈ db'.jobs.rows := by
    rw [hjobs, (update?_eq_some (updateJob_eq_ok hupdate).2).1, mem_updated]
    exact .inl ⟨r, hr, by simpa using hid, rfl⟩
  have hunused : ∀ l ∈ db.leases.rows, l.id ≠ seed.id ∧ l.vmName ≠ name := hbegins.unused
  have hrows : db'.leases.rows = db.leases.rows ++ [lease] := hbegins.rows
  have hlease := hbegins.lease_eq
  have hmem : ∀ l ∈ db'.leases.rows, l ∈ db.leases.rows ∨ l = lease := by
    intro l hl
    rw [hrows] at hl
    simpa using hl
  refine ⟨⟨⟨_, hr', hid, rfl, rfl, ?_⟩, ?_, ?_⟩, ?_, fun l hl => (hunused l hl).1, ?_, ?_⟩
  · intro l hl hlid
    rcases hmem l hl with hold | rfl
    · exact absurd hlid (hunused l hold).1
    · rw [hlease]
      exact haborted.symm
  · intro l hl hlid
    rcases hmem l hl with hold | rfl
    · exact absurd hlid (hunused l hold).1
    · rw [hlease]
      exact ⟨rfl, rfl⟩
  · intro l hl hname
    rcases hmem l hl with hold | rfl
    · exact absurd hname (hunused l hold).2
    · rw [hlease]
      rfl
  · intro x hx hvm
    simp only [vmOwned, any_eq_false] at hfree
    exact hfree x hx (by simp [hvm])
  · rw [hrows]
    simp
  · rw [hlease]
    rfl

variable {r : JobRow}

section
variable (h : Linked id vmId leaseId name db)
include h

lemma Linked.abort_iff {id' vmId' leaseId' : Uuid}
    {l : LeaseRow} (hr : r ∈ db.jobs.rows) (hid : r.id = id')
    (hvm : r.vmId = some vmId') (hname : r.vmName = some (jobVmName id')) (hl : l ∈ db.leases.rows)
    (hfence : fenceable vmId' leaseId' (jobVmName id') l = true) : id' = id ↔ leaseId' = leaseId := by
  obtain ⟨x, hx, hxid, hxvm, hxname, -⟩ := h.job
  obtain ⟨hlid, hlname, hlvm, -, -⟩ := fenceable_eq_true hfence
  constructor
  · intro heq
    obtain rfl := row_unique hr hx (hid.trans (heq.trans hxid.symm))
    have hsame : some (jobVmName id') = some name := hname.symm.trans hxname
    rw [Option.some.injEq] at hsame
    exact hlid.symm.trans (h.named l hl (hlname.trans hsame))
  intro heq
  have hlvm' := (h.lease l hl (hlid.trans heq)).1
  have hsame : some vmId' = some vmId := hlvm.symm.trans hlvm'
  rw [Option.some.injEq] at hsame
  obtain rfl := vmId_unique hr hx (hsame ▸ hvm) hxvm
  exact hid.symm.trans hxid

lemma Linked.abort {id' vmId' leaseId' : Uuid}
    (hok : recordJobLeasedPrebackendAbort db id' vmId' leaseId' = .ok db') :
    Linked id vmId leaseId name db' ∧ (id' = id ↔ leaseId' = leaseId) ∧
      (∃ l ∈ db.leases.rows, l.id = leaseId' ∧ abortedLease l ∈ db'.leases.rows) ∧
      ∀ r' ∈ db'.jobs.rows, r'.id ≠ id' → r' ∈ db.jobs.rows := by
  obtain ⟨r₀, hr₀, hid₀, hvm₀, hname₀, -, -, -, l₀, hl₀, hfence, hframe, hjobs⟩ :=
    recordJobLeasedPrebackendAbort_eq_ok hok
  have hiff := h.abort_iff hr₀ hid₀ hvm₀ hname₀ hl₀.mem hfence
  have hlid := (fenceable_eq_true hfence).1
  have hleases : ∀ l', l' ∈ db'.leases.rows ↔
      l' = abortedLease l₀ ∨ (l' ∈ db.leases.rows ∧ l'.id ≠ leaseId') := by
    intro l'
    rw [← hlid]
    exact mem_rows hl₀
  have hrows : ∀ r', r' ∈ db'.jobs.rows ↔
      r' = abortedRow r₀ ∨ (r' ∈ db.jobs.rows ∧ r'.id ≠ id') := by
    intro r'
    rw [hjobs]
    exact mem_updated_key (fun _ _ => clash_of_id) hr₀ hid₀
  obtain ⟨r, hr, hid, hvm, hname, hflags⟩ := h.job
  refine ⟨⟨?_, fun l' hl' hid' => ?_, fun l' hl' hname' => ?_⟩, hiff,
    ⟨l₀, hl₀.mem, hlid, (hleases _).mpr (.inl rfl)⟩,
    fun r' hr' hne => (((hrows r').mp hr').resolve_left fun heq => hne ?_).1⟩
  · by_cases heq : id' = id
    · obtain rfl := row_unique hr hr₀ (hid.trans (heq.symm.trans hid₀.symm))
      refine ⟨abortedRow r, (hrows _).mpr (.inl rfl), hid, hvm, hname, fun l' hl' hid' => ?_⟩
      rcases (hleases l').mp hl' with rfl | ⟨-, hne⟩
      · rfl
      · exact absurd (hid'.trans (hiff.mp heq).symm) hne
    · refine ⟨r, (hrows _).mpr (.inr ⟨hr, fun hrid => heq (hrid.symm.trans hid)⟩), hid, hvm, hname,
        fun l' hl' hid' => ?_⟩
      rcases (hleases l').mp hl' with rfl | ⟨hmem, -⟩
      · exact absurd (hiff.mpr (hlid.symm.trans hid')) heq
      · exact hflags l' hmem hid'
  · rcases (hleases l').mp hl' with rfl | ⟨hmem, -⟩
    · exact h.lease l₀ hl₀.mem hid'
    · exact h.lease l' hmem hid'
  · rcases (hleases l').mp hl' with rfl | ⟨hmem, -⟩
    · exact h.named l₀ hl₀.mem hname'
    · exact h.named l' hmem hname'
  · rw [heq]
    exact hid₀

lemma Linked.body (ht : t.races = true)
    (habort : ∀ id vmId leaseId, t ≠ .recordJobLeasedPrebackendAbort id vmId leaseId)
    (hbody : body c db t = .ok (reply, db')) : Linked id vmId leaseId name db' := by
  have hdraws : t.draws = [] := by cases t <;> first | rfl | simp [Tx.races] at ht
  have hleases : ∀ l' ∈ db'.leases.rows, Stays db l' :=
    fun _ hl' => (body_host hbody).unfenced hdraws habort hl'
  obtain ⟨r, hr, hid, hvm, hname, hflags⟩ := h.job
  obtain ⟨r', hr', hgen⟩ : ∃ r' ∈ db'.jobs.rows, generation r' = generation r := by
    apply mem_map.mp
    rw [races_generation ht habort hbody]
    exact mem_map_of_mem hr
  simp only [generation, Prod.mk.injEq] at hgen
  obtain ⟨hid', hvm', hname', hflag'⟩ := hgen
  refine ⟨⟨r', hr', hid'.trans hid, hvm'.trans hvm, hname'.trans hname, fun l' hl' hlid => ?_⟩,
    fun l' hl' hlid => ?_, fun l' hl' hlname => ?_⟩ <;>
  obtain ⟨l, hl, hlid', hlname', hlflag, hlvm⟩ := hleases l' hl'
  · rw [hlflag, hflag']
    exact hflags l hl (hlid'.symm.trans hlid)
  · obtain ⟨hold, hnamed⟩ := h.lease l hl (hlid'.symm.trans hlid)
    exact ⟨hlvm vmId hold, hlname'.trans hnamed⟩
  · exact hlid'.trans (h.named l hl (hlname'.symm.trans hlname))

end

/-- A racing call, committed or not, keeps a job and its lease tied, and sets both abort flags
or none. -/
lemma Linked.step (hlinked : Linked id vmId leaseId name w.db) (hcall : e.call.races = true)
    (h : (store c).step w e w') : Linked id vmId leaseId name w'.db ∧
      ∀ r ∈ w.db.jobs.rows, ∀ r' ∈ w'.db.jobs.rows, r.id = id → r'.id = id →
        r.vmAllocationAborted = false → r'.vmAllocationAborted = true →
        ∃ l ∈ w.db.leases.rows, l.id = leaseId ∧ abortedLease l ∈ w'.db.leases.rows := by
  have hsame (hdb : w'.db = w.db) : Linked id vmId leaseId name w'.db ∧
      ∀ r ∈ w.db.jobs.rows, ∀ r' ∈ w'.db.jobs.rows, r.id = id → r'.id = id →
        r.vmAllocationAborted = false → r'.vmAllocationAborted = true →
        ∃ l ∈ w.db.leases.rows, l.id = leaseId ∧ abortedLease l ∈ w'.db.leases.rows := by
    rw [hdb]
    refine ⟨hlinked, fun r hr r' hr' hid hid' hf ht => ?_⟩
    rw [row_unique hr hr' (hid.trans hid'.symm)] at hf
    cases hf.symm.trans ht
  cases htx : e.call with
  | expireJobEvidence | ensureCidBase => simp [htx, Call.races] at hcall
  | tx t =>
  rw [htx] at hcall
  have hperform := h.2.1
  rw [htx] at hperform
  rcases perform_tx c e.fault w.db t with ⟨reply, db', hbody, ht⟩ | ⟨err, ht⟩
  · rw [ht, Prod.mk.injEq] at hperform
    rw [hperform.2] at hbody
    by_cases habort : ∀ id vmId leaseId, t ≠ .recordJobLeasedPrebackendAbort id vmId leaseId
    · refine ⟨hlinked.body hcall habort hbody, fun r hr r' hr' hid hid' hf hflag => ?_⟩
      obtain ⟨x, hx, hgen⟩ : ∃ x ∈ w.db.jobs.rows, generation x = generation r' := by
        apply mem_map.mp
        rw [← races_generation hcall habort hbody]
        exact mem_map_of_mem hr'
      simp only [generation, Prod.mk.injEq] at hgen
      rw [row_unique hr hx (hid.trans (hgen.1.trans hid').symm)] at hf
      cases hf.symm.trans (hgen.2.2.2.trans hflag)
    · push Not at habort
      obtain ⟨id', vmId', leaseId', rfl⟩ := habort
      obtain ⟨hlinked', hiff, ⟨l, hl, hlid, hl'⟩, hothers⟩ :=
        hlinked.abort (noReply_eq_ok.mp hbody).1
      refine ⟨hlinked', fun r hr r' hr' hid hid' hf hflag => ?_⟩
      by_cases heq : id' = id
      · exact ⟨l, hl, hlid.trans (hiff.mp heq), hl'⟩
      · have hold := hothers r' hr' fun hne => heq (hne.symm.trans hid')
        rw [row_unique hr hold (hid.trans hid'.symm)] at hf
        cases hf.symm.trans hflag
  · rw [ht, Prod.mk.injEq] at hperform
    exact hsame hperform.2.symm

lemma linked_of_run (hlinked : Linked id vmId leaseId name w.db)
    (hraces : ∀ e ∈ trace, e.call.races = true) (h : (store c).Run w trace w') :
    Linked id vmId leaseId name w'.db := by
  refine h.history (I := fun trace w' => (∀ e ∈ trace, e.call.races = true) →
    Linked id vmId leaseId name w'.db) (fun _ => hlinked) ?_ hraces
  intro trace w₁ e w₂ _ hI hstep hraces
  have hold := hI fun e' he' => hraces e' (mem_append_left _ he')
  exact (hold.step (hraces e (by simp)) hstep).1

lemma aborted_never_ran (hr : r ∈ db.jobs.rows) (h : r.vmAllocationAborted = true) :
    r.state ∉ [.live .running, .live .completed, .live .commandFailed] := by
  have hcheck := db.jobs.checked r hr
  simp [jobSchema, JobRow.check, h] at hcheck ⊢
  exact ⟨hcheck.2.2.2.1, hcheck.2.2.2.2.1, hcheck.2.2.2.2.2⟩

/-- The race for the backend of a generation bound together with its lease.

The generation and the lease become durable together, or neither does.  Over any racing calls
the backend is entered or the allocation is aborted, never both; the two abort flags are set in
one step; and a job whose allocation was aborted never runs or finishes a command, whatever is
called afterwards. -/
theorem backend_entry_is_fenced (c : Codec) {w₀ w₁ : World} {e₀ : Event} {seed : LeaseSeed}
    {now : DateTime} {reply : Reply} {after : List Event} (hw : Reachable c w₀)
    (hbind : (store c).step w₀ e₀ w₁)
    (hcall : e₀.call = .tx (.bindJobVmWithLease seed now id vmId name))
    (hout : e₀.outcome = .ok reply) (hafter : (store c).Run w₁ after w)
    (hraces : ∀ e ∈ after, e.call.races = true) :
    ((∀ r ∈ w₀.db.jobs.rows, r.vmId ≠ some vmId) ∧ (∀ l ∈ w₀.db.leases.rows, l.id ≠ seed.id) ∧
      (∃ r ∈ w₁.db.jobs.rows, r.id = id ∧ r.vmId = some vmId ∧ r.vmName = some name) ∧
      ∃ l ∈ w₁.db.leases.rows, l.id = seed.id ∧ l.vmId = some vmId ∧ l.vmName = name) ∧
    (∀ e w', (store c).step w₀ e w' → e.call = e₀.call → ∀ err, e.outcome = .error err →
      w'.db = w₀.db) ∧
    ¬((∃ e ∈ after, e.enters seed.id) ∧ ∃ e ∈ after, e.aborts seed.id) ∧
    (∀ e w', (store c).step w e w' → e.call.races = true →
      ((∃ l ∈ w.db.leases.rows, ∃ l' ∈ w'.db.leases.rows, l.id = seed.id ∧ l'.id = seed.id ∧
          l.allocationAborted = false ∧ l'.allocationAborted = true) ↔
        ∃ r ∈ w.db.jobs.rows, ∃ r' ∈ w'.db.jobs.rows, r.id = id ∧ r'.id = id ∧
          r.vmAllocationAborted = false ∧ r'.vmAllocationAborted = true)) ∧
    (∀ r ∈ w.db.jobs.rows, r.vmAllocationAborted = true → ∀ later w', (store c).Run w later w' →
      ∀ r' ∈ w'.db.jobs.rows, r'.id = r.id →
        r'.state ∉ [.live .running, .live .completed, .live .commandFailed]) := by
  have hbody := step_body hbind hcall hout
  rw [body] at hbody
  obtain ⟨⟨job, lease⟩, hok, -⟩ := withReply_eq_ok.mp hbody
  obtain ⟨hlinked, hunbound, hunused, hlease, hlid⟩ := linked_of_bind hok
  have hw₁ := hw.step hbind
  have hlinked' := linked_of_run hlinked hraces hafter
  have hissued : seed.id ∈ w₁.issued := hlid ▸ lease_issued hw₁ lease hlease
  refine ⟨⟨hunbound, hunused, ?_, lease, hlease, hlid, hlinked.lease lease hlease hlid⟩, ?_,
    (exclusive_of_run hissued hafter).one, fun e w' hstep hrace => ⟨?_, ?_⟩, ?_⟩
  · obtain ⟨r, hr, hid, hvm, hname, -⟩ := hlinked.job
    exact ⟨r, hr, hid, hvm, hname⟩
  · intro e w' hstep hsame err herr
    exact step_failed hstep (hsame.trans hcall) herr
  · rintro ⟨l, hl, l', hl', hid, hid', hf, ht⟩
    obtain ⟨r, hr, hrid, -, -, hflags⟩ := hlinked'.job
    obtain ⟨r', hr', hrid', -, -, hflags'⟩ := (hlinked'.step hrace hstep).1.job
    exact ⟨r, hr, r', hr', hrid, hrid', (hflags l hl hid).symm.trans hf,
      (hflags' l' hl' hid').symm.trans ht⟩
  · rintro ⟨r, hr, r', hr', hid, hid', hf, ht⟩
    obtain ⟨l, hl, hlid, hl'⟩ := (hlinked'.step hrace hstep).2 r hr r' hr' hid hid' hf ht
    obtain ⟨x, hx, hxid, -, -, hflags⟩ := hlinked'.job
    rw [row_unique hr hx (hid.trans hxid.symm)] at hf
    exact ⟨l, hl, abortedLease l, hl', hlid, hlid, (hflags l hl hlid).trans hf, rfl⟩
  · intro r hr haborted later w' hlater r' hr' hid
    have hw' : Reachable c w := Reachable.run hw₁ hafter
    exact aborted_never_ran hr' ((run_holds hw' hlater hr hr' hid).aborted haborted)

def claimedJob : List Call := [
  .tx (.acceptJob ⟨.ofSeconds 0, .ofNat 1, .ofNat 2⟩
    ⟨"build", "\x7b\x7d", .ofSeconds 100, .ofSeconds 200⟩),
  .tx (.claimJobVm (.ofSeconds 1) (.ofNat 1))]

def bindClaimed : Call :=
  .tx (.bindJobVmWithLease ⟨.ofNat 3, .ofSeconds 1, none⟩ (.ofSeconds 1) (.ofNat 1) (.ofNat 7)
    (jobVmName (.ofNat 1)))

/-- Recovery aborts the allocation before the worker tries to enter the backend. -/
def lostRace : List Call := [
  .tx (.recordJobLeasedPrebackendAbort (.ofNat 1) (.ofNat 7) (.ofNat 3)),
  .tx (.enterHostResourceLeaseBackend (.ofNat 3) (.ofNat 7) none),
  .tx (.markJobRunning (.ofSeconds 2) (.ofNat 1))]

def claimedWorld : World := (World.init.calls .emptyObject claimedJob).2

def boundWorld : World := (claimedWorld.call .emptyObject bindClaimed).2

def racedWorld : World := (boundWorld.calls .emptyObject lostRace).2

theorem aborted_generation_is_fenced :
    (∃ e ∈ (boundWorld.calls .emptyObject lostRace).1, e.aborts (.ofNat 3)) ∧
    ¬(∃ e ∈ (boundWorld.calls .emptyObject lostRace).1, e.enters (.ofNat 3)) ∧
    ∃ r ∈ racedWorld.db.jobs.rows, r.vmAllocationAborted = true ∧
      r.state ∉ [.live .running, .live .completed, .live .commandFailed] := by
  have hclaimed : Reachable .emptyObject claimedWorld :=
    ⟨_, World.calls_run .emptyObject .init claimedJob (by decide)⟩
  have hbind : (store .emptyObject).step claimedWorld (claimedWorld.call .emptyObject bindClaimed).1
      boundWorld := ⟨by decide, rfl, rfl⟩
  have hafter := World.calls_run .emptyObject boundWorld lostRace (by decide)
  obtain ⟨reply, hout⟩ : ∃ reply,
      (claimedWorld.call .emptyObject bindClaimed).1.outcome = .ok reply := ⟨_, rfl⟩
  have hraces : ∀ e ∈ (boundWorld.calls .emptyObject lostRace).1, e.call.races = true := by
    decide +kernel
  obtain ⟨-, -, hone, -, hnever⟩ :=
    backend_entry_is_fenced .emptyObject hclaimed hbind rfl hout hafter hraces
  have haborts : ∃ e ∈ (boundWorld.calls .emptyObject lostRace).1, e.aborts (.ofNat 3) :=
    ⟨_, .head _, _, _, _, rfl, rfl⟩
  obtain ⟨r, hr, haborted⟩ : ∃ r ∈ racedWorld.db.jobs.rows, r.vmAllocationAborted = true := by
    decide +kernel
  exact ⟨haborts, fun henters => hone ⟨henters, haborts⟩, r, hr, haborted,
    hnever r hr haborted [] racedWorld (.nil _) r hr rfl⟩

end Husker.System
