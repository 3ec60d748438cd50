import Husker.System.Publication
import Husker.Journal.Budget

/-! # Cleanup ownership over whole runs

A job that named a VM owes its cleanup until a receipt releases it, once and for good, and
while it does no other job has the VM and nothing deletes the job's evidence.
-/
namespace Husker.System
open Relational Store Journal List

open Reachable FactoryResourceBudget

section
variable {c : Codec} {w w' : World} {e : Event}

lemma Reachable.owned (hw : Reachable c w) : ∀ r ∈ w.db.jobs.rows, Owned r := by
  refine view_invariant (I := fun v => Owned v.row) (fun seed s _ => ?_)
    (fun _ _ _ hv h => h.owned hv) hw
  exact ⟨by simp [acceptedRow], by simp [acceptedRow], by simp [acceptedRow]⟩

lemma run_holds {trace : List Event} (hw : Reachable c w) (hrun : (store c).Run w trace w')
    {r r' : JobRow} (hr : r ∈ w.db.jobs.rows) (hr' : r' ∈ w'.db.jobs.rows) (hid : r'.id = r.id) :
    Holds r r' :=
  run_tracks (R := fun v v' => Holds v.row v'.row) (I := fun _ => True) (fun v => .refl v.row)
    (fun _ _ _ => Holds.trans) (fun _ _ _ => trivial) (fun _ _ _ _ _ => trivial)
    (fun _ _ _ _ h => h.holds) hw hrun hr hr' hid

variable {db : Db}

lemma not_destroyed_and_aborted {r : JobRow} (hr : r ∈ db.jobs.rows) :
    ¬(r.vmDestroyed = true ∧ r.vmAllocationAborted = true) := by
  rintro ⟨hdestroyed, haborted⟩
  have hcheck := db.jobs.checked r hr
  simp [jobSchema, JobRow.check, hdestroyed, haborted] at hcheck

lemma vmId_unique {r₁ r₂ : JobRow} (h₁ : r₁ ∈ db.jobs.rows) (h₂ : r₂ ∈ db.jobs.rows)
    {vmId : Uuid} (hvm₁ : r₁.vmId = some vmId) (hvm₂ : r₂.vmId = some vmId) : r₁ = r₂ := by
  apply db.jobs.eq_of_clash h₁ h₂
  simp [jobSchema, JobRow.clash, hvm₁, hvm₂]

lemma vmName_unique {r₁ r₂ : JobRow} (h₁ : r₁ ∈ db.jobs.rows)
    (h₂ : r₂ ∈ db.jobs.rows) (hp₁ : r₁.cleanupPending = true) (hp₂ : r₂.cleanupPending = true)
    (hsome : r₁.vmName.isSome = true) (hname : r₁.vmName = r₂.vmName) : r₁ = r₂ := by
  apply db.jobs.eq_of_clash h₁ h₂
  simp [jobSchema, JobRow.clash, hp₁, hp₂, ← hname, hsome]

/-- Ownership of VMs by jobs, over any calls in any order.

In every state cleanup is owed until the job is decided and nothing of its generation is left;
no two jobs own one VM; what was bound, destroyed, aborted or released stays so; and a job that
owes cleanup keeps its evidence. -/
theorem cleanup_is_owned (c : Codec) {before after : List Event}
    (hbefore : (store c).Run .init before w) (hafter : (store c).Run w after w') :
    (∀ r ∈ w.db.jobs.rows, Owned r ∧ ¬(r.vmDestroyed = true ∧ r.vmAllocationAborted = true)) ∧
    (∀ r₁ ∈ w.db.jobs.rows, ∀ r₂ ∈ w.db.jobs.rows, r₁ ≠ r₂ →
      (r₁.cleanupPending = true → r₂.cleanupPending = true → r₁.vmName ≠ r₂.vmName) ∧
      ∀ vmId, r₁.vmId = some vmId → r₂.vmId ≠ some vmId) ∧
    (∀ r ∈ w.db.jobs.rows, ∀ r' ∈ w'.db.jobs.rows, r'.id = r.id → Holds r r') ∧
    (∀ e, after = [e] → ∀ r ∈ w.db.jobs.rows, r.cleanupPending = true →
      ∃ r' ∈ w'.db.jobs.rows, r'.id = r.id ∧ Retains (viewOf w.db r) (viewOf w'.db r')) := by
  have hw : Reachable c w := ⟨before, hbefore⟩
  refine ⟨fun r hr => ⟨owned hw r hr, not_destroyed_and_aborted hr⟩, ?_, ?_, ?_⟩
  · intro r₁ h₁ r₂ h₂ hne
    refine ⟨fun hp₁ hp₂ hname => hne ?_, fun vmId hvm₁ hvm₂ => hne (vmId_unique h₁ h₂ hvm₁ hvm₂)⟩
    exact vmName_unique h₁ h₂ hp₁ hp₂ ((owned hw r₁ h₁).pending hp₁).1 hname
  · exact fun r hr r' hr' hid => run_holds hw hafter hr hr' hid
  rintro e rfl r hr hp
  cases hafter with
  | cons hstep hnil =>
  cases hnil
  have howned := owned hw r hr
  obtain ⟨r', hr', hchange⟩ := step_keeps hstep hr (howned.pending hp).2
  exact ⟨r', hr', Change.id_eq hchange, hchange.retains howned hp⟩

def releasedJob : List Call := [
  .tx (.acceptJob ⟨.ofSeconds 0, .ofNat 1, .ofNat 2⟩
    ⟨"build", "\x7b\x7d", .ofSeconds 100, .ofSeconds 200⟩),
  .tx (.bindJobVm (.ofSeconds 1) (.ofNat 1) (.ofNat 7) (jobVmName (.ofNat 1))),
  .tx (.finishJob (.ofNat 1) .cancelled .failed "\x7b\x7d"),
  .tx (.recordJobVmDestruction (.ofNat 7)),
  .tx (.confirmJobCleanup (.ofNat 1) (.ofNat 7))]

def lateBindings : List Call := [
  .tx (.bindJobVm (.ofSeconds 2) (.ofNat 1) (.ofNat 8) (jobVmName (.ofNat 1))),
  .tx (.bindJobVm (.ofSeconds 2) (.ofNat 1) (.ofNat 7) (jobVmName (.ofNat 1)))]

def releasedWorld : World := (World.init.calls .emptyObject releasedJob).2

def reboundWorld : World := (releasedWorld.calls .emptyObject lateBindings).2

theorem released_job_stays_released :
    ∃ r ∈ releasedWorld.db.jobs.rows, ∃ r' ∈ reboundWorld.db.jobs.rows, r'.id = r.id ∧
      r.vmId = some (.ofNat 7) ∧ r.cleanupPending = false ∧ Released r ∧
      r'.vmId = some (.ofNat 7) ∧ r'.cleanupPending = false := by
  have hbefore := World.calls_run .emptyObject .init releasedJob (by decide)
  have hafter := World.calls_run .emptyObject releasedWorld lateBindings (by decide)
  obtain ⟨hstate, -, hholds, -⟩ := cleanup_is_owned .emptyObject hbefore hafter
  obtain ⟨r, hr, hid, hvm, hname, hpending⟩ : ∃ r ∈ releasedWorld.db.jobs.rows, r.id = .ofNat 1 ∧
      r.vmId = some (.ofNat 7) ∧ r.vmName.isSome = true ∧ r.cleanupPending = false := by
    decide +kernel
  obtain ⟨r', hr', hid'⟩ : ∃ r' ∈ reboundWorld.db.jobs.rows, r'.id = .ofNat 1 := by decide +kernel
  obtain ⟨hpending', hvm'⟩ := (hholds r hr r' hr' (hid'.trans hid.symm)).released hname hpending
  refine ⟨r, hr, r', hr', hid'.trans hid.symm, hvm, hpending, ?_, hvm'.trans hvm, hpending'⟩
  exact ((hstate r hr).1.named hname).resolve_left (by simp [hpending])

/-- A command result comes from a bound VM, and its job is clean once that VM is destroyed. -/
theorem command_result_owes_vm {trace : List Event} {r : JobRow} (hrun : (store c).Run .init trace w)
    (hr : r ∈ w.db.jobs.rows)
    (hresult : r.state = .live .completed ∨ r.state = .live .commandFailed) :
    r.vmId.isSome ∧ ¬r.vmAllocationAborted ∧ (r.cleanupPending ∨ r.vmDestroyed) := by
  have hran : r.vmId.isSome ∧ ¬r.vmAllocationAborted := by
    refine view_invariant (I := fun v => v.row.state ∈ [.running, .completed, .commandFailed].map .live →
      v.row.vmId.isSome ∧ ¬v.row.vmAllocationAborted) (by simp [acceptedRow]) (fun g v v' hv h => ?_)
      ⟨trace, hrun⟩ r hr (by simp [viewOf, hresult])
    cases h with
    | same | capture | stage | retain | destroy | confirm => exact hv
    | reserve | erase => simp [reservedRow, tombstone]
    | run _ _ _ _ hvm _ haborted => exact fun _ => ⟨hvm, by simp [runningRow, haborted]⟩
    | bind => grind [boundRow]
    | abort _ _ _ _ _ _ hstate => grind [abortable, abortedRow]
    | publish => grind [publishedRow, JobState.terminal]
  have hnamed := (owned ⟨trace, hrun⟩ r hr).named
  have hbound := (owned ⟨trace, hrun⟩ r hr).bound
  grind [Released]

theorem completed_job_owes_vm :
    ∃ r ∈ completedWorld.db.jobs.rows, r.cleanupPending ∨ r.vmDestroyed := by
  have hrun := World.calls_run .emptyObject .init completedJob (by decide)
  obtain ⟨r, hr, hstate⟩ : ∃ r ∈ completedWorld.db.jobs.rows, r.state = .live .completed := by
    decide +kernel
  exact ⟨r, hr, (command_result_owes_vm hrun hr (.inl hstate)).2.2⟩

end

/-! ## Budget safety over whole runs

The budget is checked only when a job is accepted.  No later operation makes a job hold a
reservation it did not hold, so what the check found stays true.
-/

variable {c : Codec} {w w' : World} {e : Event} {b : FactoryResourceBudget}

def Budgeted (b : FactoryResourceBudget) (trace : List Event) : Prop :=
  ∀ e ∈ trace, ∀ o, e.call.offer = some o → ∃ observed, o.request = some ⟨b, observed⟩

/-- One step keeps the budget: an acceptance was checked, anything else only releases. -/
lemma Covers.step (hw : Reachable c w) (h : (store c).step w e w')
    (hbudget : ∀ o, e.call.offer = some o → ∃ observed, o.request = some ⟨b, observed⟩)
    (hcovers : b.Covers c w.db.jobs.rows) : b.Covers c w'.db.jobs.rows := by
  cases step_effect h with
  | rewrite hrewrites =>
    obtain ⟨next, hrows, hnext⟩ := hrewrites.jobs
    rw [hrows]
    apply hcovers.of_sublist
    apply Table.filter_map_sublist
    exact fun r hr hcharged => (hnext r hr).reserved (owned hw r hr) hcharged
  | replay o record _ _ hdb =>
    rw [hdb]
    apply hcovers.of_sublist
    exact (filter_sublist.filter _).map _
  | accept o record hcall _ _ haccept =>
    obtain ⟨observed, hrequest⟩ := hbudget o hcall
    rw [haccept.rows]
    exact checkBudget_covers (haccept.budget ⟨b, observed⟩ hrequest) rfl rfl

variable {trace : List Event}

lemma covers_of_run (h : (store c).Run .init trace w)
    (hbudget : Budgeted b trace) : b.Covers c w.db.jobs.rows := by
  refine h.history (I := fun trace w => Budgeted b trace → b.Covers c w.db.jobs.rows) ?_ ?_ hbudget
  · exact fun _ => ⟨by simp [World.init, Db.fresh], [], rfl, .nil b⟩
  · intro trace w e w' hrun hcovers hstep hbudget
    apply Covers.step ⟨trace, hrun⟩ hstep
    · exact hbudget e (by simp)
    · exact hcovers fun e' he' => hbudget e' (mem_append_left _ he')

lemma run_uncharged (hw : Reachable c w) (hrun : (store c).Run w trace w')
    {r r' : JobRow} (hr : r ∈ w.db.jobs.rows) (hr' : r' ∈ w'.db.jobs.rows) (hid : r'.id = r.id)
    (h : charged r = false) : charged r' = false :=
  run_tracks (R := fun v v' => charged v.row = false → charged v'.row = false) (I := fun _ => True)
    (fun _ h => h) (fun _ _ _ h₁ h₂ h => h₂ (h₁ h)) (fun _ _ _ => trivial)
    (fun _ _ _ _ _ => trivial) (fun _ _ _ _ h => h.uncharged) hw hrun hr hr' hid h

lemma step_discharged (hw : Reachable c w) (h : (store c).step w e w') {r : JobRow}
    (hr : r ∈ w.db.jobs.rows) (hcharged : charged r = true) :
    ∃ r' ∈ w'.db.jobs.rows, r'.id = r.id ∧ (charged r' = true ∨
      (r'.state.settled = true ∧ r'.cleanupPending = false ∧
        (r'.vmName.isSome = true → Released r'))) := by
  have howned := owned hw r hr
  have hlive : r.state ≠ .deleted := by
    intro hdeleted
    have hp : r.cleanupPending = false := by
      simpa using fun hp => (howned.pending hp).2 hdeleted
    have := charged_eq_false.mpr ⟨hp, three_le_rank.mpr (.inr hdeleted)⟩
    cases this.symm.trans hcharged
  obtain ⟨r', hr', hchange⟩ := step_keeps h hr hlive
  refine ⟨r', hr', Change.id_eq hchange, ?_⟩
  cases hcharged' : charged r' with
  | true => exact .inl rfl
  | false =>
    obtain ⟨hsettled, hp⟩ := hchange.discharged howned hcharged hcharged'
    refine .inr ⟨hsettled, hp, fun hname => ?_⟩
    exact ((hchange.owned howned).named hname).resolve_left fun h => absurd (hp.symm.trans h) (by simp)

lemma step_refused (h : (store c).step w e w') {o : Offer} {err : JournalError}
    (hcall : e.call.offer = some o) (hout : e.outcome = .error err) : w'.db = w.db := by
  cases htx : e.call with
  | tx t => exact step_failed h htx hout
  | expireJobEvidence | ensureCidBase => simp [htx, Call.offer] at hcall

/-- One fixed budget is never exceeded, over any calls in any order.

The jobs that hold a reservation stay within the budget, in number and in each sum.  A
reservation is released by a job that is terminal and cleaned up, and never taken again.  A
refused acceptance changes nothing.  The checks decide exactly what they would decide over the
natural numbers: nothing wraps. -/
theorem budget_is_never_exceeded (c : Codec) (b : FactoryResourceBudget)
    {before after : List Event} (hbefore : (store c).Run .init before w)
    (hbudget : Budgeted b before) (hafter : (store c).Run w after w') : b.Covers c w.db.jobs.rows ∧
    (∀ r ∈ w.db.jobs.rows, ∀ r' ∈ w'.db.jobs.rows, r'.id = r.id → charged r = false →
      charged r' = false) ∧
    (∀ e, after = [e] →
      (∀ r ∈ w.db.jobs.rows, charged r = true → ∃ r' ∈ w'.db.jobs.rows, r'.id = r.id ∧
        (charged r' = true ∨ (r'.state.settled = true ∧ r'.cleanupPending = false ∧
          (r'.vmName.isSome = true → Released r')))) ∧
      (∀ o err, e.call.offer = some o → e.outcome = .error err → w'.db = w.db)) ∧
    (∀ specifications total, b.check c specifications = .ok total ↔
      ∃ rs, specifications.map (reservation c) = rs.map some ∧ b.Fits rs ∧
        total.toNat = (rs.map Reservation.bootStorage).sum) ∧
    ∀ retained : ℕ, retained < 2 ^ 64 →
      (∀ total storage, b.headroom retained total storage = .ok () ↔
        (b.bootNeed retained total.toNat storage ≤
          (if storage.sharedFilesystem then min storage.bootBytes.toNat storage.journalBytes.toNat
            else storage.bootBytes.toNat)) ∧
        (retained + 1) * journalHeadroomPerReceipt.toNat + b.minFreeStorageBytes.toNat ≤
          storage.journalBytes.toNat) ∧
      ∀ required, b.journalRequired retained = some required →
        b.minFreeStorageBytes ≤ required ∧ (required - b.minFreeStorageBytes).toNat =
          (retained + 1) * journalHeadroomPerReceipt.toNat := by
  have hw : Reachable c w := ⟨before, hbefore⟩
  refine ⟨covers_of_run hbefore hbudget, ?_, ?_, ?_, ?_⟩
  · exact fun r hr r' hr' hid => run_uncharged hw hafter hr hr' hid
  · rintro e rfl
    cases hafter with
    | cons hstep hnil =>
      cases hnil
      exact ⟨fun r hr => step_discharged hw hstep hr, fun o err => step_refused hstep⟩
  · exact fun _ _ => check_eq_ok
  · intro retained hlt
    exact ⟨fun _ _ => headroom_eq_ok hlt, fun _ => journalRequired_sub hlt⟩

/-- A specification that asks for two CPUs, half a gibibyte of memory and a mebibyte of disk. -/
def smallSpecification : String :=
  "\x7b\"resources\":\x7b\"vcpu_count\":2,\"mem_size_mib\":512,\"disk_size_bytes\":1048576\x7d\x7d"

/-- A codec restricted to that text, which it reads and hashes as the real ones do. -/
def smallCodec : Codec where
  sha256 data :=
    if data = asBytes smallSpecification then
      [0x29, 0x7f, 0x00, 0x43, 0x4e, 0x84, 0x9d, 0x88, 0x61, 0x28, 0x41, 0x82, 0xeb, 0x13, 0xa3, 0x80,
        0x68, 0x4e, 0x3c, 0x3f, 0x8a, 0x2e, 0xfa, 0xb4, 0xd7, 0xc0, 0xd9, 0xa4, 0x21, 0x31, 0x60, 0x9e]
    else []
  fromStr text :=
    if text = smallSpecification then
      some (.object [("resources", .object [("disk_size_bytes", .posInt 1048576),
        ("mem_size_mib", .posInt 512), ("vcpu_count", .posInt 2)])])
    else none
  toText _ := smallSpecification

def smallBudget : FactoryResourceBudget where
  maxJobs := 2
  maxVcpus := 4
  maxMemoryMib := 2048
  memoryOverheadMib := 64
  maxRootDiskBytes := 4194304
  maxBootStorageBytes := 2000000000
  minFreeStorageBytes := 1048576

def smallRequest : BudgetRequest := ⟨smallBudget, .ok ⟨true, 10000000000, 10000000000⟩⟩

/-- Three submissions; the third finds the budget used up. -/
def threeJobs : List Call := [
  .tx (.acceptJobWithBudget ⟨.ofSeconds 0, .ofNat 1, .ofNat 2⟩
    ⟨"first", smallSpecification, .ofSeconds 100, .ofSeconds 200⟩ smallRequest),
  .tx (.acceptJobWithBudget ⟨.ofSeconds 0, .ofNat 3, .ofNat 4⟩
    ⟨"second", smallSpecification, .ofSeconds 100, .ofSeconds 200⟩ smallRequest),
  .tx (.acceptJobWithBudget ⟨.ofSeconds 0, .ofNat 5, .ofNat 6⟩
    ⟨"third", smallSpecification, .ofSeconds 100, .ofSeconds 200⟩ smallRequest)]

def budgetedWorld : World := (World.init.calls smallCodec threeJobs).2

theorem two_of_three_jobs_fit : (budgetedWorld.db.jobs.rows.filter charged).length = 2 ∧
      smallBudget.Covers smallCodec budgetedWorld.db.jobs.rows := by
  have hbefore := World.calls_run smallCodec .init threeJobs (by decide)
  have hbudget : Budgeted smallBudget (World.init.calls smallCodec threeJobs).1 := by
    intro e he o ho
    simp only [World.calls, World.call, threeJobs, mem_cons, not_mem_nil, or_false] at he
    rcases he with rfl | rfl | rfl <;>
    · simp only [Call.offer, Tx.offer, Option.some.injEq] at ho
      rw [← ho]
      exact ⟨_, rfl⟩
  exact ⟨by decide +kernel,
    (budget_is_never_exceeded smallCodec smallBudget hbefore hbudget (.nil _)).1⟩

end Husker.System
