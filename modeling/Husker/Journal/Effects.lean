import Husker.Journal.Lifecycle
import Husker.Journal.Accept
import Husker.Lease.Effects

/-! # What each operation does to the journal

Every operation other than acceptance rewrites the jobs it finds by a `Change`.
-/
namespace Husker.Journal
open Relational Store Lease List Table

section
variable {c : Codec} {g : Grant} {db db' : Db} {now : DateTime} {id vmId : Uuid} {record : JobRecord} {name manifest : String}
    {state : JobState} {s s' : Capture} {seed : LeaseSeed} {ids : Set Uuid} {v : JobView}

lemma reserveJobVmInner_rewrites {replay : Bool}
    (h : reserveJobVmInner db now id replay = .ok (record, db')) : Rewrites (Change c g) db db' := by
  simp only [reserveJobVmInner, eq_ok] at h
  obtain ⟨job, hjob, -, -, h⟩ := h
  obtain ⟨r, hr, hid, s, spec, hstate, -, rfl⟩ := getOn_eq_ok.mp hjob
  split at h
  case isTrue hname =>
    simp only [eq_ok] at h
    obtain ⟨-, ⟨haccepted, -⟩, db₁, hupdate, -, -, -, rfl⟩ := h
    have haccepted : s = .accepted := haccepted
    refine updateJob_rewrites .same hupdate (fun _ => rfl) hr hid ?_
    exact .reserve r _ _ _ (by rw [hstate, haccepted]) hname
  case isFalse =>
    simp only [eq_ok] at h
    obtain ⟨db₁, rfl, -, -, -, rfl⟩ := h
    exact .of_same .same ⟨rfl, rfl, rfl⟩

/-- What `bind_on` found when it committed: a replay, or a claim it completed. -/
lemma bindOn_eq_ok (h : bindOn db now id vmId name = .ok db') :
    ∃ r ∈ db.jobs.rows, r.id = id ∧ r.state ≠ .deleted ∧ r.vmAllocationAborted = false ∧
      ((db' = db ∧ r.vmId = some vmId ∧ r.vmName = some name) ∨
        (r.vmId = none ∧ vmOwned db id vmId name = false ∧
          ((r.vmName = some name ∧ r.cleanupPending = true) ∨
            (r.vmName = none ∧ r.state = .live .accepted)) ∧
          updateJob db [.vmId, .vmName, .state, .cleanupPending] id (boundRow vmId name) =
            .ok db')) := by
  simp only [bindOn, eq_ok] at h
  obtain ⟨-, -, job, hjob, -, haborted, h⟩ := h
  obtain ⟨r, hr, hid, s, spec, hstate, -, rfl⟩ := getOn_eq_ok.mp hjob
  refine ⟨r, hr, hid, by simp [hstate], haborted, ?_⟩
  split at h
  case h_1 bound hbound =>
    simp only [eq_ok] at h
    obtain ⟨-, ⟨rfl, hname⟩, rfl⟩ := h
    exact .inl ⟨rfl, hbound, hname⟩
  case h_2 hbound =>
    right
    split at h
    case h_1 reserved hreserved =>
      simp only [eq_ok] at h
      obtain ⟨-, ⟨rfl, hpending⟩, -, howned, hupdate⟩ := h
      exact ⟨hbound, howned, .inl ⟨hreserved, hpending⟩, hupdate⟩
    case h_2 hreserved =>
      simp only [eq_ok] at h
      obtain ⟨-, ⟨haccepted, -⟩, -, howned, hupdate⟩ := h
      have haccepted : s = .accepted := haccepted
      exact ⟨hbound, howned, .inr ⟨hreserved, by rw [hstate, haccepted]⟩, hupdate⟩

lemma bindOn_rewrites (h : bindOn db now id vmId name = .ok db') :
    Rewrites (Change c g) db db' := by
  obtain ⟨r, hr, hid, hlive, -, ⟨rfl, -⟩ | ⟨hvm, -, hclaim, hupdate⟩⟩ := bindOn_eq_ok h
  · exact .of_same .same ⟨rfl, rfl, rfl⟩
  · refine updateJob_rewrites .same hupdate (fun _ => rfl) hr hid ?_
    exact .bind r _ _ _ _ hlive hvm hclaim

lemma markJobRunning_eq_ok (h : markJobRunning db now id = .ok db') :
    ∃ n, updateJobs db [.state] (fun r => r.id = id && runnable now r) runningRow = .ok (n, db') := by
  simp only [markJobRunning, eq_ok] at h
  obtain ⟨⟨n, db₁⟩, hupdate, h⟩ := h
  refine ⟨n, ?_⟩
  split at h
  · simp only [eq_ok] at h
    obtain ⟨-, -, -, -, rfl⟩ := h
    exact hupdate
  · simp only [eq_ok] at h
    exact h ▸ hupdate

lemma markJobRunning_rewrites (h : markJobRunning db now id = .ok db') :
    Rewrites (Change c g) db db' := by
  obtain ⟨n, hupdate⟩ := markJobRunning_eq_ok h
  refine updateJobs_rewrites .same hupdate (fun _ => rfl) fun r _ hp => ?_
  simp only [runnable, Bool.and_eq_true, decide_eq_true_eq, Bool.not_eq_true'] at hp
  exact .run r _ _ hp.2.1.1.1.1 hp.2.1.1.1.2 hp.2.1.1.2 hp.2.1.2

lemma stageJobManifest_rewrites (h : stageJobManifest c db id manifest = .ok db') :
    Rewrites (Change c g) db db' := by
  simp only [stageJobManifest, boundedJson, eq_ok] at h
  obtain ⟨-, hjson, job, hjob, -, ⟨hrunning, hpending⟩, -, -, hupdate⟩ := h
  obtain ⟨r, hr, hid, s, spec, hstate, -, rfl⟩ := getOn_eq_ok.mp hjob
  have hrunning : s = .running := hrunning
  refine updateJob_rewrites .same hupdate (fun _ => rfl) hr hid ?_
  exact .stage r _ _ _ (by rw [hstate, hrunning]) hpending hjson

variable {collection : CollectionState} {preserveStaged : Bool}

section
variable (h : finishJobInner c db id state collection manifest preserveStaged = .ok (record, db'))
include h

lemma finishJobInner_rewrites
    (hgrant : (id, state, collection) ∈ g.publishes) : Rewrites (Change c g) db db' := by
  simp only [finishJobInner, eq_ok] at h
  obtain ⟨-, ⟨hterminal, hcollection⟩, -, -, old, hold, h⟩ := h
  obtain ⟨r, hr, hid, s, spec, hstate, -, rfl⟩ := getOn_eq_ok.mp hold
  split at h
  case isTrue =>
    simp only [eq_ok] at h
    obtain ⟨-, -, -, -, -, rfl, -, -, -, rfl⟩ := h
    exact .of_same .same ⟨rfl, rfl, rfl⟩
  case isFalse hopen =>
    simp only [eq_ok] at h
    obtain ⟨-, hcommand, -, htruncated, m, -, -, -, db₁, hupdate, -, -, -, rfl⟩ := h
    have hopen : ¬s.terminal = true := hopen
    refine updateJob_rewrites .same hupdate (fun _ => rfl) hr hid ?_
    exact .publish r _ _ s state collection m hstate (by simpa using hopen) hterminal hcollection
      hcommand htruncated (hid ▸ hgrant)

lemma finishJobInner_published : state.terminal = true ∧
      ∃ r ∈ db'.jobs.rows, r.id = id ∧ r.state = .live state ∧ r.collection = collection := by
  simp only [finishJobInner, eq_ok] at h
  obtain ⟨-, ⟨hterminal, -⟩, -, -, old, hold, h⟩ := h
  refine ⟨hterminal, ?_⟩
  obtain ⟨r, hr, hid, s, spec, hstate, -, rfl⟩ := getOn_eq_ok.mp hold
  split at h
  case isTrue =>
    simp only [eq_ok] at h
    obtain ⟨-, -, -, ⟨hsame, hcollection, -⟩, _, rfl, -, -, -, rfl⟩ := h
    have hsame : s = state := hsame
    exact ⟨r, hr, hid, by rw [hstate, hsame], hcollection⟩
  case isFalse =>
    simp only [eq_ok] at h
    obtain ⟨-, -, -, -, m, -, -, -, db₁, hupdate, -, -, -, rfl⟩ := h
    obtain ⟨-, hupdate⟩ := updateJob_eq_ok hupdate
    refine ⟨publishedRow state collection m r, ?_, hid, rfl, rfl⟩
    rw [(update?_eq_some hupdate).1, mem_updated]
    exact .inl ⟨r, hr, by simpa using hid, rfl⟩

end

variable {envelope : String}

section
variable (h : finishJobFailure c db id state envelope = .ok (record, db'))
include h

lemma finishJobFailure_eq_ok : state ≠ .completed ∧ state ≠ .commandFailed ∧
      finishJobInner c db id state .failed envelope true = .ok (record, db') := by
  simp only [finishJobFailure, eq_ok] at h
  obtain ⟨-, ⟨hc, hf⟩, -, -, -, -, -, -, h⟩ := h
  exact ⟨hc, hf, h⟩

lemma finishJobFailure_publishes :
    ∃ r ∈ db.jobs.rows, r.id = id ∧ (∃ s, r.state = .live s ∧ s.terminal = false) ∧
      ∃ m, updateJob db [.state, .collection, .manifest] id (publishedRow state .failed m) =
        .ok db' := by
  have h := (finishJobFailure_eq_ok h).2.2
  simp only [finishJobInner, eq_ok] at h
  obtain ⟨-, -, -, -, old, hold, h⟩ := h
  obtain ⟨r, hr, hid, s, spec, hstate, -, rfl⟩ := getOn_eq_ok.mp hold
  split at h
  case isTrue => simp [bind_eq_ok, ensure_eq_ok] at h
  case isFalse hopen =>
    simp only [eq_ok] at h
    obtain ⟨-, -, -, -, m, -, -, -, db₁, hupdate, -, -, -, rfl⟩ := h
    exact ⟨r, hr, hid, ⟨s, hstate, by simpa [recordOf] using hopen⟩, m, hupdate⟩

end

lemma recordJobVmDestruction_rewrites (h : recordJobVmDestruction db vmId = .ok db') :
    Rewrites (Change c g) db db' := by
  simp only [recordJobVmDestruction, eq_ok] at h
  obtain ⟨⟨n, db₁⟩, hupdate, rfl⟩ := h
  refine updateJobs_rewrites .same hupdate (fun _ => rfl) fun r _ hp => ?_
  exact .destroy r _ _ (by rw [of_decide_eq_true hp]; rfl)

lemma updateExact_eq_ok {columns : List JobColumn} {p : JobRow → Bool}
    {f : JobRow → JobRow} {reason : String} (h : updateExact db columns id p f reason = .ok db') :
    (∃ r ∈ db.jobs.rows, r.id = id ∧ p r = true) ∧
      ∃ n, updateJobs db columns (fun r => r.id = id && p r) f = .ok (n, db') := by
  simp only [updateExact, eq_ok] at h
  obtain ⟨⟨n, db₁⟩, hupdate, h⟩ := h
  split at h
  · simp [bind_eq_ok] at h
  rename_i hn
  simp only [eq_ok] at h
  subst h
  refine ⟨?_, n, hupdate⟩
  rw [(updateJobs_eq_ok hupdate).1, matched_eq_zero] at hn
  push Not at hn
  obtain ⟨r, hr, hp⟩ := hn
  simp only [Bool.and_eq_true, decide_eq_true_eq, ne_eq, Bool.not_eq_false] at hp
  exact ⟨r, hr, hp.1, hp.2⟩

lemma recordJobVmAllocationAbort_rewrites (h : recordJobVmAllocationAbort db id vmId = .ok db') :
    Rewrites (Change c g) db db' := by
  obtain ⟨-, n, hupdate⟩ := updateExact_eq_ok h
  refine updateJobs_rewrites .same hupdate (fun _ => rfl) fun r _ hp => ?_
  simp only [Bool.and_eq_true, decide_eq_true_eq, Bool.not_eq_true'] at hp
  exact .abort r _ _ (by rw [hp.2.1.1.1]; rfl) hp.2.1.1.2 hp.2.1.2 hp.2.2

lemma confirmJobCleanup_rewrites (h : confirmJobCleanup db id vmId = .ok db') :
    Rewrites (Change c g) db db' := by
  obtain ⟨-, n, hupdate⟩ := updateExact_eq_ok h
  refine updateJobs_rewrites .same hupdate (fun _ => rfl) fun r _ hp => ?_
  simp only [Bool.and_eq_true, Bool.or_eq_true, decide_eq_true_eq] at hp
  exact .confirm r _ _ hp.2.2 (.inl ⟨by rw [hp.2.1.1]; rfl, hp.2.1.2⟩)

lemma confirmUnallocatedJobCleanup_rewrites
    (h : confirmUnallocatedJobCleanup db id name = .ok db') : Rewrites (Change c g) db db' := by
  obtain ⟨-, n, hupdate⟩ := updateExact_eq_ok h
  refine updateJobs_rewrites .same hupdate (fun _ => rfl) fun r _ hp => ?_
  simp only [Bool.and_eq_true, decide_eq_true_eq, Option.isNone_iff_eq_none] at hp
  exact .confirm r _ _ hp.2.2 (.inr ⟨hp.2.1.1, by rw [hp.2.1.2]; rfl⟩)

/-! ## Operations that also write evidence rows -/

lemma evidenceRows_insertArtifact {a : ArtifactRow} {artifacts : Table artifactSchema}
    (h : db.artifacts.insert? a = some artifacts) (id : Uuid) :
    evidenceRows { db with artifacts } id =
      (eventsOf db id, artifactsOf db id ++ if a.jobId = id then [a] else []) := by
  obtain ⟨-, -, hrows⟩ := insert?_eq_some.mp h
  simp only [evidenceRows, eventsOf, artifactsOf, hrows, filter_append, Prod.mk.injEq, true_and]
  split_ifs with ha <;> simp [ha]

lemma retainJobArtifact_rewrites {index : ℕ} {path digest : String} {data : Bytes}
    {record : JobArtifactRecord}
    (h : retainJobArtifact c db id index path digest data = .ok (record, db')) :
    Rewrites (Change c g) db db' := by
  simp only [retainJobArtifact, eq_ok] at h
  obtain ⟨-, -, -, -, job, hjob, h⟩ := h
  obtain ⟨r, hr, hid, s, spec, hstate, -, rfl⟩ := getOn_eq_ok.mp hjob
  split at h
  case h_1 =>
    simp only [eq_ok] at h
    obtain ⟨-, -, -, rfl, -, rfl⟩ := h
    exact .of_same .same ⟨rfl, rfl, rfl⟩
  case h_2 =>
    simp only [eq_ok] at h
    obtain ⟨-, ⟨hrunning, hpending⟩, -, -, -, -, -, -, artifacts, hinsert, -, rfl, -, rfl⟩ := h
    have hrun : s = .running := hrunning
    refine .of_updated .same (p := fun x => decide (x.id = id)) (f := fun x => x)
      (by simp [Table.updated]) (fun x hx hp => ?_) fun i hi => ?_
    · obtain rfl := row_unique hx hr ((of_decide_eq_true hp).trans hid.symm)
      rw [viewOf_eq, viewOf_eq, evidenceRows_insertArtifact hinsert, if_pos hid.symm]
      exact .retain x _ _ _ (by rw [hstate, hrun]) hpending
    · rw [evidenceRows_insertArtifact hinsert, if_neg, append_nil]
      · rfl
      · rintro rfl
        exact absurd (hi r hr hid) (by simp [hid])

lemma appendEvent_eq_ok {e : JobEvent} (h : appendEvent c id (s, db) e = .ok (s', db')) :
    (s' = s ∧ db' = db) ∨
      (e.sequence = s.cursor + 1 ∧ s' = s.advance e.sequence e.data.length ∧
        ∃ events, db.events.insert? (s.row c id e) = some events ∧ db' = { db with events }) := by
  simp only [appendEvent, eq_ok] at h
  obtain ⟨-, -, h⟩ := h
  split at h
  · simp only [eq_ok] at h
    obtain ⟨-, -, rfl, rfl⟩ := h
    exact .inl ⟨rfl, rfl⟩
  · simp only [eq_ok] at h
    obtain ⟨-, hseq, events, hinsert, rfl, rfl⟩ := h
    exact .inr ⟨hseq, rfl, events, hinsert, rfl⟩

variable {es : List JobEvent}

/-- The append loop adds the rows of the events beyond the cursor to its job, and touches
nothing else. -/
lemma appendEvents_eq_ok (h : es.foldlM (appendEvent c id) (s, db) = .ok (s', db')) :
    ∃ rows, Captures c id s rows s' ∧ db' = { db with events := db'.events } ∧
      db'.events.rows = db.events.rows ++ rows := by
  induction es generalizing s db with
  | nil =>
    simp only [foldlM_nil, eq_ok] at h
    obtain ⟨rfl, rfl⟩ := h
    exact ⟨[], .nil s, rfl, (append_nil _).symm⟩
  | cons e es ih =>
  rw [foldlM_cons, bind_eq_ok] at h
  obtain ⟨⟨s₁, db₁⟩, hone, hrest⟩ := h
  obtain ⟨rows, hrows, hdb, hevents⟩ := ih hrest
  rcases appendEvent_eq_ok hone with ⟨rfl, rfl⟩ | ⟨hseq, rfl, events, hinsert, rfl⟩
  · exact ⟨rows, hrows, hdb, hevents⟩
  · refine ⟨_ :: rows, .cons e hseq hrows, hdb, ?_⟩
    rw [hevents, (insert?_eq_some.mp hinsert).2.2]
    simp

lemma Captures.jobId {rows : List EventRow}
    (h : Captures c id s rows s') : ∀ e ∈ rows, e.jobId = id := by
  induction h with
  | nil s => simp
  | cons e _ _ ih => simpa [Capture.row] using ih

lemma appendJobEvents_rewrites {guestTruncated : Bool}
    (h : appendJobEvents c db id es guestTruncated = .ok db') : Rewrites (Change c g) db db' := by
  simp only [appendJobEvents, eq_ok] at h
  obtain ⟨-, -, job, hjob, -, hpending, ⟨s, db₁⟩, hloop, hupdate⟩ := h
  obtain ⟨r, hr, hid, st, spec, hstate, -, rfl⟩ := getOn_eq_ok.mp hjob
  obtain ⟨rows, hrows, hdb, hevents⟩ := appendEvents_eq_ok hloop
  obtain ⟨hdb', hupdate⟩ := updateJob_eq_ok hupdate
  have hjobs : db₁.jobs = db.jobs := by rw [hdb]
  have hview : ∀ i, evidenceRows db' i =
      (eventsOf db i ++ if id = i then rows else [], artifactsOf db i) := by
    intro i
    have hrow : ∀ e ∈ rows, (e.jobId = i ↔ id = i) := fun e he => by rw [hrows.jobId e he]
    rw [hdb', hdb]
    simp only [evidenceRows, eventsOf, artifactsOf, hevents, filter_append, Prod.mk.injEq,
      and_true, append_cancel_left_eq]
    split_ifs with hi
    · exact filter_eq_self.mpr fun e he => by simpa using (hrow e he).mpr hi
    · exact filter_eq_nil_iff.mpr fun e he => by simpa using mt (hrow e he).mp hi
  refine .of_updated .same (by rw [(update?_eq_some hupdate).1, hjobs]) ?_ ?_
  · intro x hx hp
    have hxid : x.id = id := of_decide_eq_true hp
    obtain rfl := row_unique hx hr (hxid.trans hid.symm)
    change Change c g _ ⟨_, (evidenceRows db' x.id).1, (evidenceRows db' x.id).2⟩
    rw [hview, if_pos hxid.symm]
    refine .capture x _ rows _ (captureStart db (recordOf x st spec) guestTruncated) s
      (by simp [hstate]) hpending rfl rfl (fun ht => ?_) rfl (hxid ▸ hrows)
    simp [captureStart, recordOf, ht]
  · intro i hi
    rw [hview, if_neg, append_nil]
    · rfl
    · rintro rfl
      exact absurd (hi r hr hid) (by simp [hid])

/-! ## Operations that also write leases -/

variable {lease : LeaseRow}

lemma bindJobVmWithLease_eq_ok {job : JobRecord} (h : bindJobVmWithLease db seed now id vmId name = .ok ((job, lease), db')) :
    ∃ db₁, bindOn db now id vmId name = .ok db₁ ∧
      (∀ r ∈ db.jobs.rows, r.id = id → r.vmId = none) ∧
      Begins db₁ db' seed name (some vmId) lease := by
  simp only [bindJobVmWithLease, eq_ok] at h
  obtain ⟨old, hold, -, hunbound, db₁, hbind, ⟨l, db₂⟩, hlease, -, -, ⟨-, rfl⟩, rfl⟩ := h
  obtain ⟨r, hr, hid, s, spec, -, -, rfl⟩ := getOn_eq_ok.mp hold
  refine ⟨db₁, hbind, fun x hx hxid => ?_, insertHostResourceLease_eq_ok hlease⟩
  rw [row_unique hx hr (hxid.trans hid.symm)]
  exact hunbound

lemma Begins.sameJournal {vmId : Option Uuid}
    (h : Begins db db' seed name vmId lease) : SameJournal db db' := by
  constructor <;> rw [h.frame]

lemma bindJobVmWithLease_rewrites {reply : JobRecord × LeaseRow}
    (h : bindJobVmWithLease db seed now id vmId name = .ok (reply, db')) :
    Rewrites (Change c g) db db' := by
  obtain ⟨db₁, hbind, -, hbegins⟩ := bindJobVmWithLease_eq_ok h
  exact (bindOn_rewrites hbind).same_right (Begins.sameJournal hbegins)

variable {leaseId : Uuid}

section
variable (h : recordJobLeasedPrebackendAbort db id vmId leaseId = .ok db')
include h

/-- What the pre-backend abort found: the exact planned lease of this job, not entered.  It
marks that lease and that job. -/
lemma recordJobLeasedPrebackendAbort_eq_ok :
    ∃ r ∈ db.jobs.rows, r.id = id ∧ r.vmId = some vmId ∧ r.vmName = some (jobVmName id) ∧
      r.vmDestroyed = false ∧ r.cleanupPending = true ∧
      r.state ∈ abortable.map StoredState.live ∧
      ∃ l, Rewritten db db' l abortedLease ∧ fenceable vmId leaseId (jobVmName id) l = true ∧
        db' = { db with leases := db'.leases, jobs := db'.jobs } ∧
        db'.jobs.rows = Table.updated db.jobs.rows (fun r => decide (r.id = id)) abortedRow := by
  simp only [recordJobLeasedPrebackendAbort, eq_ok] at h
  obtain ⟨job, hjob, -, ⟨hvm, hname, hdestroyed, hpending, hstate⟩, -, -, ⟨n, db₁⟩, hupdate, -,
    rfl, habort⟩ := h
  obtain ⟨r, hr, hid, s, spec, hlive, -, rfl⟩ := getOn_eq_ok.mp hjob
  have hlease : ∀ l, fenceable vmId leaseId (jobVmName id) l = true → l.id = leaseId := by
    intro l hl
    simp only [fenceable, Bool.and_eq_true, decide_eq_true_eq] at hl
    exact hl.1.1.1.1
  obtain ⟨hdb₁, hrows, l, hl, hp, -⟩ := updateLeases_exact hupdate one_ne_zero hlease
  obtain ⟨hdb', hjobs⟩ := updateJob_eq_ok habort
  have hleases : db'.leases = db₁.leases := by rw [hdb']
  have hold : db₁.jobs = db.jobs := by rw [hdb₁]
  refine ⟨r, hr, hid, hvm, hname, hdestroyed, hpending, ?_, l, ⟨hl, ?_⟩, hp, ?_, ?_⟩
  · rw [hlive]
    exact mem_map_of_mem hstate
  · rw [hleases, hrows, hlease l hp]
  · rw [hleases, hdb', hdb₁]
  · rw [(update?_eq_some hjobs).1, hold]

lemma recordJobLeasedPrebackendAbort_rewrites : Rewrites (Change c g) db db' := by
  obtain ⟨r, hr, hid, hvm, -, hdestroyed, hpending, hstate, l, -, -, hframe, hjobs⟩ :=
    recordJobLeasedPrebackendAbort_eq_ok h
  have hevidence (i : Uuid) : evidenceRows db' i = evidenceRows db i := by
    rw [hframe]
    rfl
  refine .of_updated .same hjobs (fun x hx hp => ?_) fun i _ => hevidence i
  obtain rfl := row_unique hx hr ((of_decide_eq_true hp).trans hid.symm)
  rw [viewOf_eq, viewOf_eq, hevidence]
  exact .abort x _ _ (by rw [hvm]; rfl) hdestroyed hpending hstate

end

/-! ## Deletion -/

inductive Erases (ids : Set Uuid) : JobView → JobView → Prop
  | same (v : JobView) : Erases ids v v
  | erase (r : JobRow) (es : List EventRow) (as : List ArtifactRow)
      (hsettled : r.state.settled = true) (hpending : r.cleanupPending = false)
      (hid : r.id ∈ ids) : Erases ids ⟨r, es, as⟩ ⟨tombstone r, [], []⟩

variable {v' : JobView}

lemma Erases.change (h : Erases ids v v') (hids : ids ⊆ g.deletes) : Change c g v v' := by
  cases h with
  | same => exact .same v
  | erase r es as hsettled hpending hid => exact .erase r es as hsettled hpending (hids hid)

lemma Erases.id_eq (h : Erases ids v v') : v'.row.id = v.row.id := by
  cases h <;> rfl

lemma Erases.trans {u w : JobView} (h₁ : Erases ids u v)
    (h₂ : Erases ids v w) : Erases ids u w := by
  cases h₁ with
  | same => exact h₂
  | erase r es as hsettled hpending hid =>
    cases h₂ with
    | same => exact .erase r es as hsettled hpending hid
    | erase _ _ _ hdeleted => simp [tombstone, StoredState.settled] at hdeleted

lemma deleteJobEvidence_rewrites (h : deleteJobEvidence db id = .ok db') (hids : id ∈ ids) :
    Rewrites (Erases ids) db db' := by
  simp only [deleteJobEvidence, eq_ok] at h
  obtain ⟨job, hjob, -, ⟨hterminal, hpending⟩, hupdate⟩ := h
  obtain ⟨r, hr, hid, s, spec, hstate, -, rfl⟩ := getOn_eq_ok.mp hjob
  obtain ⟨hdb', hupdate⟩ := updateJob_eq_ok hupdate
  refine .of_updated .same (update?_eq_some hupdate).1 (fun x hx hp => ?_) fun i hi => ?_
  · obtain rfl := row_unique hx hr ((of_decide_eq_true hp).trans hid.symm)
    have hview : viewOf db' (tombstone x) = ⟨tombstone x, [], []⟩ := by
      rw [hdb']
      simp [viewOf, eventsOf, artifactsOf, tombstone, hid, filter_filter]
    rw [hview]
    exact .erase x _ _ (by rw [hstate]; exact hterminal) hpending (hid ▸ hids)
  · have hne : i ≠ id := by
      rintro rfl
      exact absurd (hi r hr hid) (by simp [hid])
    rw [hdb']
    simp only [evidenceRows, eventsOf, artifactsOf, rows_delete, filter_filter, Prod.mk.injEq]
    constructor <;>
    · refine filter_congr fun e _ => ?_
      by_cases he : e.jobId = i <;> simp [he, hne]

/-! ## Acceptance -/

structure Replays (c : Codec) (db : Db) (seed : AcceptSeed) (s : Submission)
    (record : JobRecord) : Prop where
  found : ∃ r ∈ (purgeTombstones db seed.now).jobs.rows, r.submissionKey = s.key ∧
    r.state ≠ .deleted ∧ r.specDigest = c.digest (asBytes s.specification) ∧
    r.deadline = s.deadline.timestamp ∧ record.id = r.id

structure Admissible (c : Codec) (s : Submission) : Prop where
  key : printable 128 s.key = true
  bounded : c.boundedObject s.specification maxSpecBytes = true

structure Accepts (c : Codec) (db : Db) (seed : AcceptSeed) (s : Submission)
    (request : Option BudgetRequest) (db' : Db) : Prop where
  admissible : Admissible c s
  unused : ∀ r ∈ (purgeTombstones db seed.now).jobs.rows, r.submissionKey ≠ s.key ∧ r.id ≠ seed.id
  future : seed.now.timestamp < s.deadline.timestamp
  budget : ∀ q ∈ request, checkBudget c (purgeTombstones db seed.now) s.specification q = .ok ()
  frame : db' = { purgeTombstones db seed.now with jobs := db'.jobs }
  rows : db'.jobs.rows = (purgeTombstones db seed.now).jobs.rows ++ [acceptedRow c seed s]

variable {fresh : Bool} {request : Option BudgetRequest}

lemma acceptFresh_eq_ok {seed : AcceptSeed} {s : Submission} (h : acceptFresh c db seed s request = .ok ((record, fresh), db')) :
    fresh = true ∧ record.id = seed.id ∧ seed.now.timestamp < s.deadline.timestamp ∧
      (∀ q ∈ request, checkBudget c db s.specification q = .ok ()) ∧
      db.jobs.insert? (acceptedRow c seed s) = some db'.jobs ∧
      db' = { db with jobs := db'.jobs } := by
  simp only [acceptFresh, eq_ok] at h
  obtain ⟨-, ⟨hfuture, -⟩, -, -, -, -, -, -, h⟩ := h
  have hrest : (∀ q ∈ request, checkBudget c db s.specification q = .ok ()) ∧
      ∃ jobs, db.jobs.insert? (acceptedRow c seed s) = some jobs ∧
        ∃ job, getOn { db with jobs } seed.id = .ok job ∧
          (job = record ∧ true = fresh) ∧ { db with jobs } = db' := by
    cases request with
    | none =>
      simp only [eq_ok] at h
      exact ⟨by simp, h⟩
    | some q =>
      simp only [eq_ok] at h
      obtain ⟨_, hbudget, h⟩ := h
      exact ⟨by simpa using hbudget, h⟩
  obtain ⟨hbudget, jobs, hinsert, job, hjob, ⟨rfl, rfl⟩, rfl⟩ := hrest
  obtain ⟨r, -, hid, -, -, -, -, rfl⟩ := getOn_eq_ok.mp hjob
  exact ⟨rfl, hid, hfuture, hbudget, hinsert, rfl⟩

lemma acceptJobInner_eq_ok {seed : AcceptSeed} {s : Submission} (h : acceptJobInner c db seed s request = .ok ((record, fresh), db')) :
    (fresh = false ∧ db' = purgeTombstones db seed.now ∧ Replays c db seed s record) ∨
      (fresh = true ∧ record.id = seed.id ∧ Accepts c db seed s request db') := by
  simp only [acceptJobInner, boundedJson, eq_ok] at h
  obtain ⟨-, hkey, -, hbounded, h⟩ := h
  split at h
  case h_1 old hfind =>
    obtain ⟨hold, hold_key⟩ := get?_mem hfind
    simp only [eq_ok] at h
    obtain ⟨-, hlive, -, ⟨hdigest, hdeadline⟩, job, hjob, ⟨rfl, rfl⟩, rfl⟩ := h
    obtain ⟨r, -, hid, -, -, -, -, rfl⟩ := getOn_eq_ok.mp hjob
    exact .inl ⟨rfl, rfl, ⟨old, hold, hold_key, hlive, hdigest, hdeadline, hid⟩⟩
  case h_2 hfind =>
    obtain ⟨hfresh, hid, hfuture, hbudget, hinsert, hdb'⟩ := acceptFresh_eq_ok h
    obtain ⟨-, hclash, hrows⟩ := insert?_eq_some.mp hinsert
    refine .inr ⟨hfresh, hid, ⟨⟨hkey, hbounded⟩, fun r hr => ⟨?_, fun hrid => ?_⟩, hfuture,
      hbudget, hdb', hrows⟩⟩
    · exact get?_eq_none.mp hfind r hr
    · exact hclash r hr (clash_of_id hrid)

variable {r : JobRow}

lemma mem_purgeTombstones : r ∈ (purgeTombstones db now).jobs.rows ↔
      r ∈ db.jobs.rows ∧ ¬(r.state = .deleted ∧ r.deadline ≤ now.timestamp) := by
  simp only [purgeTombstones, mem_delete, Bool.and_eq_false_iff, decide_eq_false_iff_not]
  tauto

lemma viewOf_purgeTombstones (hr : r ∈ (purgeTombstones db now).jobs.rows) :
    viewOf (purgeTombstones db now) r = viewOf db r := by
  obtain ⟨hmem, hkept⟩ := mem_purgeTombstones.mp hr
  have hid : r.id ∉ (db.jobs.rows.filter fun r =>
      r.state = .deleted && r.deadline ≤ now.timestamp).map JobRow.id := by
    simp only [mem_map, mem_filter, Bool.and_eq_true, decide_eq_true_eq, not_exists, not_and]
    intro x ⟨hx, hgone⟩ hxid
    rw [row_unique hx hmem hxid] at hgone
    exact hkept hgone
  simp only [viewOf, eventsOf, artifactsOf, purgeTombstones, rows_delete, filter_filter,
    JobView.mk.injEq, true_and]
  constructor <;>
  · refine filter_congr fun e _ => ?_
    by_cases he : e.jobId = r.id
    · simp [he] at hid ⊢
      exact hid
    · simp [he]

end

/-! ## What the journal operations leave alone

None of them writes the tables of leases, boot evidence and VM records or the CID allocator,
except where a job and a lease change in one transaction.
-/

variable {c : Codec} {db db' db'' : Db}

structure SameHost (db db' : Db) : Prop where
  leases : db'.leases = db.leases
  epochs : db'.epochs = db.epochs
  vms : db'.vms = db.vms
  nextCid : db'.nextCid = db.nextCid
  freedCids : db'.freedCids = db.freedCids

lemma SameHost.refl (db : Db) : SameHost db db := ⟨rfl, rfl, rfl, rfl, rfl⟩

lemma SameHost.trans (h₁ : SameHost db db') (h₂ : SameHost db' db'') : SameHost db db'' :=
  ⟨h₂.leases.trans h₁.leases, h₂.epochs.trans h₁.epochs, h₂.vms.trans h₁.vms,
    h₂.nextCid.trans h₁.nextCid, h₂.freedCids.trans h₁.freedCids⟩

variable {columns : List JobColumn} {f : JobRow → JobRow} {id : Uuid} {now : DateTime}
    {record : JobRecord} {manifest : String} {p : JobRow → Bool}

lemma updateJobs_sameHost {n : ℕ}
    (h : updateJobs db columns p f = .ok (n, db')) : SameHost db db' := by
  obtain ⟨-, hdb, -⟩ := updateJobs_eq_ok h
  constructor <;> rw [hdb]

lemma updateJob_sameHost (h : updateJob db columns id f = .ok db') : SameHost db db' := by
  obtain ⟨hdb, -⟩ := updateJob_eq_ok h
  constructor <;> rw [hdb]

lemma reserveJobVmInner_sameHost {replay : Bool}
    (h : reserveJobVmInner db now id replay = .ok (record, db')) : SameHost db db' := by
  simp only [reserveJobVmInner, eq_ok] at h
  obtain ⟨job, -, -, -, h⟩ := h
  split at h
  · simp only [eq_ok] at h
    obtain ⟨-, -, db₁, hupdate, -, -, -, rfl⟩ := h
    exact updateJob_sameHost hupdate
  · simp only [eq_ok] at h
    obtain ⟨db₁, rfl, -, -, -, rfl⟩ := h
    exact .refl _

lemma bindOn_sameHost {vmId : Uuid} {name : String}
    (h : bindOn db now id vmId name = .ok db') : SameHost db db' := by
  obtain ⟨r, -, -, -, -, ⟨rfl, -⟩ | ⟨-, -, -, hupdate⟩⟩ := bindOn_eq_ok h
  · exact .refl _
  · exact updateJob_sameHost hupdate

lemma markJobRunning_sameHost (h : markJobRunning db now id = .ok db') : SameHost db db' := by
  obtain ⟨n, hupdate⟩ := markJobRunning_eq_ok h
  exact updateJobs_sameHost hupdate

lemma stageJobManifest_sameHost (h : stageJobManifest c db id manifest = .ok db') :
    SameHost db db' := by
  simp only [stageJobManifest, eq_ok] at h
  obtain ⟨-, -, job, -, -, -, -, -, hupdate⟩ := h
  exact updateJob_sameHost hupdate

variable {collection : CollectionState} {preserveStaged : Bool} {state : JobState}

section
variable (h : finishJobInner c db id state collection manifest preserveStaged = .ok (record, db'))
include h

lemma finishJobInner_eq_ok : db' = db ∨ ∃ m, updateJob db [.state, .collection, .manifest] id
      (publishedRow state collection m) = .ok db' := by
  simp only [finishJobInner, eq_ok] at h
  obtain ⟨-, -, -, -, old, -, h⟩ := h
  split at h
  · simp only [eq_ok] at h
    obtain ⟨-, -, -, -, -, rfl, -, -, -, rfl⟩ := h
    exact .inl rfl
  · simp only [eq_ok] at h
    obtain ⟨-, -, -, -, m, -, -, -, db₁, hupdate, -, -, -, rfl⟩ := h
    exact .inr ⟨m, hupdate⟩

lemma finishJobInner_sameHost : SameHost db db' := by
  rcases finishJobInner_eq_ok h with rfl | ⟨m, hupdate⟩
  · exact .refl _
  · exact updateJob_sameHost hupdate

end

lemma updateExact_sameHost {reason : String} (h : updateExact db columns id p f reason = .ok db') : SameHost db db' := by
  obtain ⟨-, n, hupdate⟩ := updateExact_eq_ok h
  exact updateJobs_sameHost hupdate

lemma retainJobArtifact_sameHost {index : ℕ} {path digest : String} {data : Bytes}
    {record : JobArtifactRecord}
    (h : retainJobArtifact c db id index path digest data = .ok (record, db')) :
    SameHost db db' := by
  simp only [retainJobArtifact, eq_ok] at h
  obtain ⟨-, -, -, -, job, -, h⟩ := h
  split at h
  · simp only [eq_ok] at h
    obtain ⟨-, -, -, rfl, -, rfl⟩ := h
    exact .refl _
  · simp only [eq_ok] at h
    obtain ⟨-, -, -, -, -, -, -, -, artifacts, -, -, rfl, -, rfl⟩ := h
    exact ⟨rfl, rfl, rfl, rfl, rfl⟩

lemma appendJobEvents_sameHost {es : List JobEvent} {guestTruncated : Bool}
    (h : appendJobEvents c db id es guestTruncated = .ok db') : SameHost db db' := by
  simp only [appendJobEvents, eq_ok] at h
  obtain ⟨-, -, job, -, -, -, ⟨s, db₁⟩, hloop, hupdate⟩ := h
  obtain ⟨rows, -, hdb, -⟩ := appendEvents_eq_ok hloop
  have hevents : SameHost db db₁ := by constructor <;> rw [hdb]
  exact hevents.trans (updateJob_sameHost hupdate)

lemma deleteJobEvidence_sameHost (h : deleteJobEvidence db id = .ok db') : SameHost db db' := by
  simp only [deleteJobEvidence, eq_ok] at h
  obtain ⟨job, -, -, -, hupdate⟩ := h
  have hdeleted := updateJob_sameHost hupdate
  exact ⟨hdeleted.leases, hdeleted.epochs, hdeleted.vms, hdeleted.nextCid, hdeleted.freedCids⟩

lemma acceptJobInner_sameHost {seed : AcceptSeed} {s : Submission}
    {request : Option BudgetRequest} {reply : JobRecord × Bool}
    (h : acceptJobInner c db seed s request = .ok (reply, db')) : SameHost db db' := by
  rcases acceptJobInner_eq_ok h with ⟨-, hdb, -⟩ | ⟨-, -, haccept⟩
  · constructor <;> rw [hdb] <;> rfl
  · constructor <;> rw [haccept.frame] <;> rfl

end Husker.Journal
