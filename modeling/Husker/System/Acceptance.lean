import Husker.System.Track

/-! # At-most-once acceptance

A tombstone is purged only after its deadline, and an acceptance asks for a deadline ahead of
the clock, so under a clock that does not run backwards no submission is accepted twice.
-/
namespace Husker.System
open Relational Store Journal Lease List Option

variable {c : Codec} {w w' : World} {e : Event}

/-! ## The clock -/

def Nondecreasing (trace : List Event) : Prop :=
  (trace.flatMap fun e => e.call.readings).Pairwise fun a b => a.nanos ≤ b.nanos

variable {o : Offer} {trace : List Event} {r : JobRow} {seed : AcceptSeed} {s : Submission}

lemma Nondecreasing.left (h : Nondecreasing (trace ++ [e])) : Nondecreasing trace := by
  rw [Nondecreasing, flatMap_append] at h
  exact (pairwise_append.mp h).1

lemma Nondecreasing.offer_le (h : Nondecreasing (trace ++ [e])) {e' : Event}
    {o' : Offer} (he' : e' ∈ trace) (ho' : e'.call.offer = some o') (ho : e.call.offer = some o) :
    o'.seed.now.timestamp ≤ o.seed.now.timestamp := by
  rw [Nondecreasing, flatMap_append] at h
  apply DateTime.timestamp_mono
  apply (pairwise_append.mp h).2.2
  · exact mem_flatMap.mpr ⟨e', he', (offer_seed ho').1⟩
  · simpa using (offer_seed ho).1

/-! ## Fresh acceptances -/

/-- The submission an event freshly accepted: key, specification text and deadline. -/
def freshlyAccepted (e : Event) : Option (String × String × DateTime) :=
  match e.call.offer, e.outcome with
  | some o, .ok (.accepted _ true) =>
    some (o.submission.key, o.submission.specification, o.submission.deadline)
  | _, _ => none

/-- What was accepted still holds its key, or the clock has passed its deadline. -/
structure Remembers (trace : List Event) (w : World) : Prop where
  nodup : (trace.filterMap freshlyAccepted).Nodup
  kept : ∀ p ∈ trace.filterMap freshlyAccepted,
    (∃ r ∈ w.db.jobs.rows, r.submissionKey = p.1 ∧ r.deadline = p.2.2.timestamp) ∨
      ∃ e ∈ trace, ∃ o, e.call.offer = some o ∧ p.2.2.timestamp ≤ o.seed.now.timestamp

lemma freshlyAccepted_of_rewrite
    (hreply : ∀ record fresh, e.outcome ≠ .ok (.accepted record fresh)) :
    freshlyAccepted e = none := by
  unfold freshlyAccepted
  split
  · rename_i record _ hout
    exact absurd hout (hreply record true)
  · rfl

variable {record : JobRecord}

lemma freshlyAccepted_of_replay (hout : e.outcome = .ok (.accepted record false)) : freshlyAccepted e = none := by
  simp [freshlyAccepted, hout]

lemma freshlyAccepted_of_accept (hcall : e.call.offer = some o)
    (hout : e.outcome = .ok (.accepted record true)) : freshlyAccepted e =
      some (o.submission.key, o.submission.specification, o.submission.deadline) := by
  simp [freshlyAccepted, hcall, hout]

/-- A row keeps its key and deadline across a step, unless an acceptance past its deadline
purges it. -/
lemma step_keeps_identity (h : (store c).step w e w') (hr : r ∈ w.db.jobs.rows) :
    (∃ r' ∈ w'.db.jobs.rows, r'.submissionKey = r.submissionKey ∧ r'.deadline = r.deadline) ∨
      ∃ o, e.call.offer = some o ∧ r.deadline ≤ o.seed.now.timestamp := by
  have hpurge (o : Offer) (hcall : e.call.offer = some o)
      (hrows : ∀ x ∈ (purgeTombstones w.db o.seed.now).jobs.rows, x ∈ w'.db.jobs.rows) :
      (∃ r' ∈ w'.db.jobs.rows, r'.submissionKey = r.submissionKey ∧ r'.deadline = r.deadline) ∨
        ∃ o, e.call.offer = some o ∧ r.deadline ≤ o.seed.now.timestamp := by
    by_cases hgone : r.state = .deleted ∧ r.deadline ≤ o.seed.now.timestamp
    · exact .inr ⟨o, hcall, hgone.2⟩
    · exact .inl ⟨r, hrows r (mem_purgeTombstones.mpr ⟨hr, hgone⟩), rfl, rfl⟩
  cases step_effect h with
  | rewrite hrewrites =>
    obtain ⟨next, hrows, hnext⟩ := hrewrites.jobs
    obtain ⟨-, hkey, -, hdeadline, -⟩ := (hnext r hr).identity
    refine .inl ⟨next r, ?_, hkey, hdeadline⟩
    rw [hrows]
    exact List.mem_map_of_mem hr
  | replay o record hcall _ hdb =>
    apply hpurge o hcall
    rw [hdb]
    exact fun x hx => hx
  | accept o record hcall _ _ haccept =>
    apply hpurge o hcall
    rw [haccept.rows]
    exact fun x hx => mem_append_left _ hx

lemma Remembers.step (hm : Remembers trace w) (h : (store c).step w e w')
    (hclock : Nondecreasing (trace ++ [e])) : Remembers (trace ++ [e]) w' := by
  have hkept : ∀ p ∈ trace.filterMap freshlyAccepted,
      (∃ r ∈ w'.db.jobs.rows, r.submissionKey = p.1 ∧ r.deadline = p.2.2.timestamp) ∨
        ∃ e' ∈ trace ++ [e], ∃ o, e'.call.offer = some o ∧
          p.2.2.timestamp ≤ o.seed.now.timestamp := by
    intro p hp
    rcases hm.kept p hp with ⟨r, hr, hkey, hdeadline⟩ | ⟨e', he', o, ho, hle⟩
    · rcases step_keeps_identity h hr with ⟨r', hr', hkey', hdeadline'⟩ | ⟨o, ho, hle⟩
      · exact .inl ⟨r', hr', hkey'.trans hkey, hdeadline'.trans hdeadline⟩
      · exact .inr ⟨e, by simp, o, ho, hdeadline ▸ hle⟩
    · exact .inr ⟨e', mem_append_left _ he', o, ho, hle⟩
  cases hfresh : freshlyAccepted e with
  | none =>
    have hsame : (trace ++ [e]).filterMap freshlyAccepted = trace.filterMap freshlyAccepted := by
      simp [hfresh]
    exact ⟨by rw [hsame]; exact hm.nodup, by rw [hsame]; exact hkept⟩
  | some p =>
  have happend : (trace ++ [e]).filterMap freshlyAccepted =
      trace.filterMap freshlyAccepted ++ [p] := by simp [hfresh]
  cases step_effect h with
  | rewrite _ hreply => simp [freshlyAccepted_of_rewrite hreply] at hfresh
  | replay o record _ hout => simp [freshlyAccepted_of_replay hout] at hfresh
  | accept o record hcall hout _ haccept =>
  rw [freshlyAccepted_of_accept hcall hout, some.injEq] at hfresh
  subst hfresh
  constructor
  · rw [happend]
    refine hm.nodup.append (nodup_singleton _) ?_
    rw [disjoint_singleton]
    intro hold
    -- the earlier row would still hold the key, or the deadline would lie behind the clock
    rcases hm.kept _ hold with ⟨r, hr, hkey, hdeadline⟩ | ⟨e', he', o', ho', hle⟩
    · have hgone : ¬(r.state = .deleted ∧ r.deadline ≤ o.seed.now.timestamp) := by
        rintro ⟨-, hle⟩
        rw [hdeadline] at hle
        exact absurd haccept.future (not_lt.mpr hle)
      exact (haccept.unused r (mem_purgeTombstones.mpr ⟨hr, hgone⟩)).1 hkey
    · exact absurd haccept.future (not_lt.mpr (hle.trans (hclock.offer_le he' ho' hcall)))
  · rw [happend]
    intro p hp
    rcases mem_append.mp hp with hp | hp
    · exact hkept p hp
    · rw [mem_singleton.mp hp]
      refine .inl ⟨acceptedRow c o.seed o.submission, ?_, rfl, rfl⟩
      rw [haccept.rows]
      simp

lemma remembers_of_run (h : (store c).Run .init trace w)
    (hclock : Nondecreasing trace) : Remembers trace w := by
  refine h.history (I := fun trace w => Nondecreasing trace → Remembers trace w) ?_ ?_ hclock
  · exact fun _ => ⟨nodup_nil, by simp⟩
  · exact fun trace w e w' _ hm hstep hclock => (hm hclock.left).step hstep hclock

/-! ## Resubmissions -/

def submitted (trace : List Event) : List String :=
  trace.filterMap fun e => e.call.offer.map fun o => o.submission.specification

def NoCollision (c : Codec) (specifications : List String) : Prop :=
  ∀ a ∈ specifications, ∀ b ∈ specifications, c.sha256 (asBytes a) = c.sha256 (asBytes b) → a = b

/-- A row was admitted, and its digest is that of its text as long as it has one. -/
structure Recorded (c : Codec) (v : JobView) : Prop where
  key : printable 128 v.row.submissionKey = true
  live : v.row.state ≠ .deleted → ∃ spec, v.row.specification = some spec ∧
    v.row.specDigest = c.digest (asBytes spec) ∧ c.boundedObject spec maxSpecBytes = true

lemma recorded_accepted (seed : AcceptSeed) (s : Submission) (h : Admissible c s) :
    Recorded c ⟨acceptedRow c seed s, [], []⟩ :=
  ⟨h.key, fun _ => ⟨s.specification, rfl, rfl, h.bounded⟩⟩

lemma Change.recorded {g : Grant} {v v' : JobView} (hv : Recorded c v) (h : Change c g v v') :
    Recorded c v' := by
  obtain ⟨-, hkey, hdigest, -, -⟩ := h.identity
  refine ⟨by rw [hkey]; exact hv.key, fun hlive => ?_⟩
  obtain ⟨spec, hspec, hsha, hbounded⟩ := hv.live fun hdeleted => hlive (h.deleted hdeleted)
  rcases h.specification with hsame | ⟨hdeleted, -⟩
  · exact ⟨spec, hsame.trans hspec, hdigest.trans hsha, hbounded⟩
  · exact absurd hdeleted hlive

lemma Reachable.recorded (hw : Reachable c w) : ∀ r ∈ w.db.jobs.rows, Recorded c (viewOf w.db r) :=
  view_invariant recorded_accepted (fun _ _ _ hv h => Change.recorded hv h) hw

lemma Reachable.retired (hw : Reachable c w) :
    ∀ r ∈ w.db.jobs.rows, r.state = .deleted → r.cleanupPending = false :=
  view_invariant (I := fun v => v.row.state = .deleted → v.row.cleanupPending = false)
    (fun _ _ _ => by simp [acceptedRow]) (fun _ _ _ hv h => h.retired hv) hw

lemma specification_submitted (h : (store c).Run .init trace w) :
    ∀ r ∈ w.db.jobs.rows, ∀ spec ∈ r.specification, spec ∈ submitted trace := by
  refine h.history (I := fun trace w => ∀ r ∈ w.db.jobs.rows, ∀ spec ∈ r.specification,
    spec ∈ submitted trace) (by simp [World.init, Db.fresh]) ?_
  intro trace w e w' _ hI hstep r' hr' spec hspec
  rw [submitted, filterMap_append, mem_append]
  rcases step_rows hstep hr' with ⟨r, hr, hchange⟩ | ⟨o, -, hcall, -, -, rfl⟩
  · left
    rcases hchange.specification with hsame | ⟨-, hnone⟩
    · exact hI r hr spec (hsame ▸ hspec)
    · cases hnone.symm.trans hspec
  · right
    simp only [acceptedRow, mem_def, some.injEq] at hspec
    simp [hcall, hspec]

variable {db : Db}

/-- An admissible submission whose key has a row is answered from that row, unless the row is
a tombstone past its deadline. -/
lemma acceptJobInner_of_row (request : Option BudgetRequest)
    (hadmissible : Admissible c s) (hr : r ∈ db.jobs.rows) (hkey : r.submissionKey = s.key)
    (hkept : ¬(r.state = .deleted ∧ r.deadline ≤ seed.now.timestamp)) :
    acceptJobInner c db seed s request = (do
      ensure (r.state ≠ .deleted) (.conflict "evidence explicitly deleted; use a new key")
      ensure (r.specDigest = c.digest (asBytes s.specification) ∧
          r.deadline = s.deadline.timestamp)
        (.conflict "immutable specification or deadline changed")
      let record ← getOn (purgeTombstones db seed.now) r.id
      return ((record, false), purgeTombstones db seed.now)) := by
  have hfind : (purgeTombstones db seed.now).jobs.get? JobRow.submissionKey s.key = some r := by
    refine (Table.get?_eq_some fun a b hab => ?_).mpr ⟨mem_purgeTombstones.mpr ⟨hr, hkept⟩, hkey⟩
    simp [jobSchema, JobRow.clash, hab]
  simp only [acceptJobInner, boundedJson, ensure_of_true _ hadmissible.key,
    ensure_of_true _ hadmissible.bounded, ok_bind, hfind]

lemma filter_charged_purgeTombstones {now : DateTime}
    (hretired : ∀ r ∈ db.jobs.rows, r.state = .deleted → r.cleanupPending = false) :
    (purgeTombstones db now).jobs.rows.filter charged = db.jobs.rows.filter charged := by
  simp only [purgeTombstones, Table.rows_delete, List.filter_filter]
  refine filter_congr fun r hr => ?_
  by_cases hdeleted : r.state = .deleted
  · simp [charged, hdeleted, hretired r hr hdeleted]
  · simp [hdeleted]

lemma resubmission_identical (hrun : (store c).Run .init trace w)
    (request : Option BudgetRequest) (hr : r ∈ w.db.jobs.rows) (hkey : r.submissionKey = s.key)
    (hspec : r.specification = some s.specification)
    (hdeadline : r.deadline = s.deadline.timestamp) (hlive : r.state ≠ .deleted) :
    ∃ record, record.id = r.id ∧
      acceptJobInner c w.db seed s request =
        .ok ((record, false), purgeTombstones w.db seed.now) := by
  have hrecorded := Reachable.recorded ⟨trace, hrun⟩ r hr
  obtain ⟨spec, hspec', hdigest, hbounded⟩ := hrecorded.live hlive
  obtain rfl : s.specification = spec := by
    have := hspec.symm.trans hspec'
    simpa using this
  have hkept : ¬(r.state = .deleted ∧ r.deadline ≤ seed.now.timestamp) := fun h => hlive h.1
  rw [acceptJobInner_of_row request ⟨hkey ▸ hrecorded.key, hbounded⟩ hr hkey hkept,
    ensure_of_true _ hlive, ensure_of_true _ ⟨hdigest, hdeadline⟩, ok_bind, ok_bind]
  obtain ⟨st, hstate⟩ : ∃ st, r.state = .live st := by
    cases hstate : r.state with
    | live st => exact ⟨st, rfl⟩
    | deleted => exact absurd hstate hlive
  have hget : getOn (purgeTombstones w.db seed.now) r.id = .ok (recordOf r st s.specification) :=
    getOn_eq_ok.mpr
      ⟨r, mem_purgeTombstones.mpr ⟨hr, hkept⟩, rfl, st, s.specification, hstate, hspec, rfl⟩
  exact ⟨recordOf r st s.specification, rfl, by rw [hget]; rfl⟩

lemma resubmission_conflict (hrun : (store c).Run .init trace w)
    (request : Option BudgetRequest) (hr : r ∈ w.db.jobs.rows) (hkey : r.submissionKey = s.key)
    (hkept : ¬(r.state = .deleted ∧ r.deadline ≤ seed.now.timestamp))
    (hbounded : c.boundedObject s.specification maxSpecBytes = true)
    (hsha : NoCollision c (s.specification :: submitted trace))
    (hchanged : r.state = .deleted ∨ r.specification ≠ some s.specification ∨
      r.deadline ≠ s.deadline.timestamp) :
    ∃ reason, acceptJobInner c w.db seed s request = .error (.conflict reason) := by
  have hrecorded := Reachable.recorded ⟨trace, hrun⟩ r hr
  rw [acceptJobInner_of_row request ⟨hkey ▸ hrecorded.key, hbounded⟩ hr hkey hkept]
  by_cases hlive : r.state ≠ .deleted
  · obtain ⟨spec, hspec, hdigest, -⟩ := hrecorded.live hlive
    have hother : ¬(r.specDigest = c.digest (asBytes s.specification) ∧
        r.deadline = s.deadline.timestamp) := by
      rintro ⟨hsame, hdeadline⟩
      have hdigests : c.digest (asBytes spec) = c.digest (asBytes s.specification) :=
        hdigest.symm.trans hsame
      have htext : spec = s.specification := by
        apply hsha spec (.tail _ ?_) _ (.head _)
        · exact (c.digest_eq_iff _ _).mp hdigests
        · exact specification_submitted hrun r hr spec hspec
      rcases hchanged with h | h | h
      · exact hlive h
      · exact h (htext ▸ hspec)
      · exact h hdeadline
    rw [ensure_of_true _ hlive, ok_bind, ensure_of_false _ hother, error_bind]
    exact ⟨_, rfl⟩
  · rw [ensure_of_false _ hlive, error_bind]
    exact ⟨_, rfl⟩

/-- Acceptance is at most once, under a clock that does not run backwards.

No key, specification and deadline is freshly accepted twice.  While the key has a row that is
not a tombstone past its deadline, the same submission is answered with the same job and no new
reservation; a well-formed submission that differs, or whose key was deleted, conflicts and
changes nothing. -/
theorem acceptance_is_at_most_once (c : Codec) {trace : List Event}
    (hrun : (store c).Run .init trace w) (hclock : Nondecreasing trace) :
    (trace.filterMap freshlyAccepted).Nodup ∧
    ∀ (seed : AcceptSeed) (s : Submission) (request : Option BudgetRequest),
      ∀ r ∈ w.db.jobs.rows, r.submissionKey = s.key →
        ¬(r.state = .deleted ∧ r.deadline ≤ seed.now.timestamp) →
      (r.specification = some s.specification → r.deadline = s.deadline.timestamp →
        r.state ≠ .deleted →
        ∃ record w', transact w.db (acceptJobInner c w.db seed s request) =
            (.ok (record, false), w') ∧
          record.id = r.id ∧ (∀ r' ∈ w'.jobs.rows, r' ∈ w.db.jobs.rows) ∧
          w'.jobs.rows.filter charged = w.db.jobs.rows.filter charged) ∧
      (c.boundedObject s.specification maxSpecBytes = true →
        NoCollision c (s.specification :: submitted trace) →
        r.state = .deleted ∨ r.specification ≠ some s.specification ∨
          r.deadline ≠ s.deadline.timestamp →
        ∃ reason, transact w.db (acceptJobInner c w.db seed s request) =
          (.error (.conflict reason), w.db)) := by
  refine ⟨(remembers_of_run hrun hclock).nodup, fun seed s request r hr hkey hkept => ⟨?_, ?_⟩⟩
  · intro hspec hdeadline hlive
    obtain ⟨record, hid, hok⟩ := resubmission_identical hrun request hr hkey hspec hdeadline hlive
    refine ⟨record, _, transact_ok hok, hid, fun r' hr' => (mem_purgeTombstones.mp hr').1, ?_⟩
    exact filter_charged_purgeTombstones (Reachable.retired ⟨trace, hrun⟩)
  · intro hbounded hsha hchanged
    obtain ⟨reason, herror⟩ :=
      resubmission_conflict hrun request hr hkey hkept hbounded hsha hchanged
    exact ⟨reason, transact_error herror⟩

def deletedJob : List Call := [
  .tx (.acceptJob ⟨.ofSeconds 0, .ofNat 1, .ofNat 2⟩
    ⟨"build", "\x7b\x7d", .ofSeconds 100, .ofSeconds 200⟩),
  .tx (.finishJob (.ofNat 1) .cancelled .failed "\x7b\x7d"),
  .tx (.deleteJobEvidence (.ofNat 1)),
  .tx (.acceptJob ⟨.ofSeconds 10, .ofNat 3, .ofNat 4⟩
    ⟨"test", "\x7b\x7d", .ofSeconds 100, .ofSeconds 200⟩)]

def deletedTrace : List Event := (World.init.calls .emptyObject deletedJob).1

def deletedWorld : World := (World.init.calls .emptyObject deletedJob).2

/-- Submit again under a key of `deletedWorld`. -/
def resubmit (now : ℤ) (key specification : String) (deadline : DateTime) :
    Except JournalError (JobRecord × Bool) × Db :=
  transact deletedWorld.db (acceptJobInner .emptyObject deletedWorld.db
    ⟨.ofSeconds now, .ofNat 5, .ofNat 6⟩ ⟨key, specification, deadline, .ofSeconds 400⟩ none)

theorem resubmissions_answered : (deletedTrace.filterMap freshlyAccepted).length = 2 ∧
    (deletedTrace.filterMap freshlyAccepted).Nodup ∧
    (∃ reason, resubmit 50 "build" "\x7b\x7d" (.ofSeconds 100) =
      (.error (.conflict reason), deletedWorld.db)) ∧
    (∃ reason, resubmit 50 "test" "\x7b\x7d" (.ofSeconds 101) =
      (.error (.conflict reason), deletedWorld.db)) ∧
    ∃ record db', resubmit 50 "test" "\x7b\x7d" (.ofSeconds 100) = (.ok (record, false), db') ∧
      record.id = .ofNat 3 := by
  have hrun := World.calls_run .emptyObject .init deletedJob (by decide)
  have hclock : Nondecreasing deletedTrace := by
    simp [Nondecreasing, deletedTrace, deletedJob, World.calls, World.call, Call.readings,
      Tx.readings, DateTime.ofSeconds]
  have hsha : NoCollision .emptyObject ("\x7b\x7d" :: submitted deletedTrace) := by
    simp [NoCollision, submitted, deletedTrace, deletedJob, World.calls, World.call, Call.offer,
      Tx.offer]
  obtain ⟨hnodup, hanswer⟩ := acceptance_is_at_most_once .emptyObject hrun hclock
  obtain ⟨r, hr, hkey, hdeleted, hdeadline⟩ : ∃ r ∈ deletedWorld.db.jobs.rows,
      r.submissionKey = "build" ∧ r.state = .deleted ∧ r.deadline = 100 := by decide +kernel
  obtain ⟨r', hr', hkey', hstate, hspec, hdeadline', hid⟩ : ∃ r ∈ deletedWorld.db.jobs.rows,
      r.submissionKey = "test" ∧ r.state = .live .accepted ∧ r.specification = some "\x7b\x7d" ∧
        r.deadline = 100 ∧ r.id = .ofNat 3 := by decide +kernel
  have hlive : r'.state ≠ .deleted := by simp [hstate]
  refine ⟨by decide +kernel, hnodup, ?_, ?_, ?_⟩
  · apply (hanswer _ _ none r hr hkey ?_).2 (by decide +kernel) hsha (.inl hdeleted)
    rintro ⟨-, hle⟩
    rw [hdeadline] at hle
    exact absurd hle (by decide)
  · apply (hanswer _ _ none r' hr' hkey' fun h => hlive h.1).2 (by decide +kernel) hsha
    exact .inr (.inr (by rw [hdeadline']; decide))
  · obtain ⟨record, db', hok, hrecord, -⟩ := (hanswer ⟨.ofSeconds 50, .ofNat 5, .ofNat 6⟩
      ⟨"test", "\x7b\x7d", .ofSeconds 100, .ofSeconds 400⟩ none r' hr' hkey'
      fun h => hlive h.1).1 hspec (by rw [hdeadline']; decide) hlive
    exact ⟨record, db', hok, hrecord.trans hid⟩

/-- A key with a row may be accepted again, refused as malformed, or answered in spite of a
changed deadline: its tombstone is past its deadline, the new text is no bounded object, or the
deadlines fall into the same second. -/
theorem resubmission_not_conflicting :
    (store .emptyObject).Run .init deletedTrace deletedWorld ∧ Nondecreasing deletedTrace ∧
    (∃ r ∈ deletedWorld.db.jobs.rows, r.submissionKey = "build" ∧ r.state = .deleted) ∧
    (resubmit 150 "build" "\x7b\x7d" (.ofSeconds 300)).1.map Prod.snd = .ok true ∧
    (∃ r ∈ deletedWorld.db.jobs.rows, r.submissionKey = "test" ∧
      r.specification = some "\x7b\x7d" ∧ r.deadline = 100) ∧
    (∃ reason, (resubmit 50 "test" "[]" (.ofSeconds 100)).1 = .error (.invalid reason)) ∧
    (resubmit 50 "test" "\x7b\x7d" ⟨100 * 1000000000 + 1⟩).1.map Prod.snd = .ok false := by
  refine ⟨World.calls_run .emptyObject .init deletedJob (by decide), ?_, by decide +kernel,
    rfl, by decide +kernel, ⟨_, rfl⟩, by decide +kernel⟩
  simp [Nondecreasing, deletedTrace, deletedJob, World.calls, World.call, Call.readings,
    Tx.readings, DateTime.ofSeconds]

end Husker.System
