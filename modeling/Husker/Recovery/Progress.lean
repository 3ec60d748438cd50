import Husker.Recovery.Completion

/-! # Attempts that are not interrupted complete

Recovery publishes one fixed envelope, alone or around the receipt a guest had staged.  As
long as these texts can be read back, an attempt whose transactions all commit completes.
-/
namespace Husker.Recovery
open Relational Store Journal Lease Husker.System List Table

section
variable {c : Codec} {env : Conditions} {db db' : Db} {r : JobRow}

/-! ## The published texts -/

def nestedEnvelope (guest : Json) : Json :=
  .object [
    ("collection", .string "failed"),
    ("guest_result", guest),
    ("host_error", .string restartError),
    ("retained_output", .string "journaled prefix; final tail may be unavailable")]

def truncatedEnvelope (digest : String) : Json :=
  .object [
    ("collection", .string "failed"),
    ("guest_result_body_truncated", .bool true),
    ("guest_result_sha256", .string digest),
    ("host_error", .string restartError),
    ("retained_output", .string "journaled prefix; final tail may be unavailable")]

/-- What the JSON and hash crates do with these envelopes: the plain one is printed and read
back, and both it and the one with a digest stay far below the limit. -/
structure Legible (c : Codec) : Prop where
  envelope : c.fromStr (c.toText (hostError restartError)) = some (hostError restartError)
  small : (c.toText (hostError restartError)).utf8ByteSize ≤ maxManifestBytes
  truncated : ∀ data, c.boundedObject (c.toText (truncatedEnvelope (c.digest data)))
    maxManifestBytes = true

/-- A staged receipt reads back, also inside the envelope: the parser refuses deep nesting, and
the envelope adds one level. -/
def Nests (c : Codec) (db : Db) : Prop :=
  ∀ r ∈ db.jobs.rows, ∀ s, r.state = .live s → s.terminal = false → ∀ staged ∈ r.manifest,
    ∀ guest, c.fromStr staged = some guest →
      (c.fromStr (c.toText (nestedEnvelope guest))).any Json.isObject = true

lemma hostError_restart : hostError restartError = .object [ ("collection", .string "failed"),
    ("host_error", .string restartError),
    ("retained_output", .string "journaled prefix; final tail may be unavailable")] := by
  have hshort : String.ofList (restartError.toList.take 512) = restartError := by decide +kernel
  rw [hostError, hshort]

lemma mergeStaged_restart (c : Codec) (guest : Json) (staged : String) :
    mergeStaged c (hostError restartError) guest staged =
      if (c.toText (nestedEnvelope guest)).utf8ByteSize ≤ maxManifestBytes then nestedEnvelope guest
      else truncatedEnvelope (c.digest (asBytes staged)) := by
  -- the members stand in key order: collection, guest_…, host_error, retained_output
  rw [hostError_restart, mergeStaged,
    Json.insertMember_between _ _ _ _ (by decide +kernel) (by decide +kernel)]
  have hremove : Json.removeMember "guest_result" [
      ("collection", .string "failed"), ("guest_result", guest),
      ("host_error", .string restartError),
      ("retained_output", .string "journaled prefix; final tail may be unavailable")] = [
      ("collection", .string "failed"), ("host_error", .string restartError),
      ("retained_output", .string "journaled prefix; final tail may be unavailable")] := by
    simp [Json.removeMember]
  rw [hremove, Json.insertMember_between _ _ _ _ (by decide +kernel) (by decide +kernel),
    Json.insertMember_between _ _ _ _ (by decide +kernel) (by decide +kernel)]
  rfl

variable {w : World}

lemma Reachable.staged (hw : Reachable c w) : ∀ r ∈ w.db.jobs.rows, ∀ s,
    r.state = .live s → s.terminal = false → ∀ staged ∈ r.manifest,
      c.boundedObject staged maxManifestBytes = true := by
  have hopen : ∀ r ∈ w.db.jobs.rows, rank r.state ≤ 2 → ∀ staged ∈ r.manifest,
      c.boundedObject staged maxManifestBytes = true := by
    refine view_invariant (I := fun v => rank v.row.state ≤ 2 → ∀ staged ∈ v.row.manifest,
      c.boundedObject staged maxManifestBytes = true) (by simp [acceptedRow])
      (fun g v v' hv h hrank => ?_) hw
    have hold := hv (h.rank_le.trans hrank)
    cases h with
    | stage _ _ _ manifest _ _ hjson =>
      intro staged hstaged
      obtain rfl : manifest = staged := by simpa [stagedRow] using hstaged
      exact hjson
    | publish _ _ _ _ new _ _ _ _ hterminal => simp [publishedRow, rank_terminal hterminal] at hrank
    | erase => simp [tombstone, rank] at hrank
    | _ => exact hold
  intro r hr s hs hterminal
  exact hopen r hr (hs ▸ rank_open hterminal)

/-- The receipts recovery has to publish are readable, alone and inside the envelope. -/
def Receipts (c : Codec) (db : Db) : Prop :=
  ∀ r ∈ db.jobs.rows, ∀ s, r.state = .live s → s.terminal = false → ∀ staged ∈ r.manifest,
    ∃ guest, c.fromStr staged = some guest ∧
      (c.fromStr (c.toText (nestedEnvelope guest))).any Json.isObject = true

lemma Nests.receipts (h : Nests c w.db) (hw : Reachable c w) : Receipts c w.db := by
  intro r hr s hs hopen staged hstaged
  have hbounded := Reachable.staged hw r hr s hs hopen staged hstaged
  simp only [Codec.boundedObject, Bool.and_eq_true] at hbounded
  cases hguest : c.fromStr staged with
  | none => simp [hguest] at hbounded
  | some guest => exact ⟨guest, rfl, h r hr s hs hopen staged hstaged guest hguest⟩

lemma Receipts.recovers (hreceipts : Receipts c db) (h : Recovers db db') : Receipts c db' := by
  intro r' hr' s hs hopen staged hstaged
  obtain ⟨r, hr, hstep⟩ := h.jobs_back r' hr'
  rcases hstep.state with ⟨hstate, hmanifest⟩ | ⟨-, t, ht, ht'⟩
  · exact hreceipts r hr s (hstate ▸ hs) hopen staged (hmanifest ▸ hstaged)
  · rw [hs, StoredState.live.injEq] at ht'
    rw [ht', terminal_of_mem ht] at hopen
    contradiction

/-! ## Publishing -/

lemma Legible.bounded (hc : Legible c) :
    c.boundedObject (c.toText (hostError restartError)) maxManifestBytes = true := by
  simp only [Codec.boundedObject, hc.envelope, hc.small, decide_true, Bool.true_and]
  rfl

variable {s : JobState}

lemma publishedManifest_restart (hc : Legible c) (hreceipts : Receipts c db)
    (hr : r ∈ db.jobs.rows) (hs : r.state = .live s) (hopen : s.terminal = false) (spec : String) :
    ∃ m, publishedManifest c (recordOf r s spec) (c.toText (hostError restartError)) true = .ok m ∧
      c.boundedObject m maxManifestBytes = true := by
  simp only [publishedManifest, if_true, hc.envelope, orError, ok_bind]
  cases hmanifest : r.manifest with
  | none => exact ⟨_, by simp [recordOf, hmanifest, pure_eq_ok], hc.bounded⟩
  | some staged =>
  obtain ⟨guest, hguest, hnested⟩ := hreceipts r hr s hs hopen staged hmanifest
  refine ⟨c.toText (mergeStaged c (hostError restartError) guest staged),
    by simp [recordOf, hmanifest, hguest, ok_bind, pure_eq_ok], ?_⟩
  rw [mergeStaged_restart]
  split_ifs with hfits
  · simp [Codec.boundedObject, hfits, hnested]
  · exact hc.truncated _

variable {state : JobState}

lemma updateJob_publish (db : Db) (id : Uuid) (hstate : state ∈ restartOutcomes) {m : String}
    (hm : c.boundedObject m maxManifestBytes = true) :
    ∃ db', updateJob db [.state, .collection, .manifest] id (publishedRow state .failed m) =
      .ok db' := by
  obtain ⟨jobs, hjobs⟩ : ∃ jobs, db.jobs.update? [.state, .collection, .manifest]
      (fun x => decide (x.id = id)) (publishedRow state .failed m) = some jobs := by
    refine update?_isSome (fun x _ _ => ?_) (fun x hx hp => ?_) fun a _ b _ h => ?_
    · simp [Schema.aborts, jobSchema, jobTriggers]
    · have hcheck : x.check = true := db.jobs.checked x hx
      simp only [Codec.boundedObject, Bool.and_eq_true, decide_eq_true_eq] at hm
      have hsize : m.utf8ByteSize ≤ 65536 := hm.1
      simp only [jobSchema, JobRow.check, publishedRow, Bool.and_eq_true, Bool.or_eq_true,
        Option.all_some, decide_eq_true_eq] at hcheck ⊢
      refine ⟨⟨hcheck.1.1, hsize⟩, hcheck.2.imp_right fun h => ⟨h.1, ?_⟩⟩
      fin_cases hstate <;> decide
    · simp only [jobSchema, JobRow.clash, publishedRow] at h ⊢
      split_ifs at h <;> exact h
  refine ⟨{ db with jobs }, ?_⟩
  simp only [updateJob, updateJobs, eq_ok]
  exact ⟨(_, _), ⟨jobs, hjobs, rfl⟩, rfl⟩

lemma finishJobFailure_restart (hc : Legible c) (hsane : Sane db) (hreceipts : Receipts c db)
    (hr : r ∈ db.jobs.rows) (hs : r.state = .live s) (hopen : s.terminal = false)
    (hstate : state ∈ restartOutcomes) :
    ∃ record db', finishJobFailure c db r.id state (c.toText (hostError restartError)) =
      .ok (record, db') := by
  obtain ⟨spec, hget⟩ := hsane.getOn hr hs
  obtain ⟨m, hm, hbounded⟩ := publishedManifest_restart hc hreceipts hr hs hopen spec
  obtain ⟨db', hupdate⟩ := updateJob_publish db r.id hstate hbounded
  have hterminal := terminal_of_mem hstate
  have hcommand : state ≠ .completed ∧ state ≠ .commandFailed := by fin_cases hstate <;> decide
  have howned : ∀ key ∈ journalOwned, ((hostError restartError).get? key).isNone = true := by
    decide +kernel
  have hr' : publishedRow state .failed m r ∈ db'.jobs.rows := by
    rw [(update?_eq_some (updateJob_eq_ok hupdate).2).1]
    exact (mem_updated_key (fun _ _ => clash_of_id) hr rfl).mpr (.inl rfl)
  have hspec := hsane.readable r hr (by rw [hs]; simp)
  obtain ⟨spec', hspec'⟩ := Option.isSome_iff_exists.mp hspec
  have hread : getOn db' r.id = .ok (recordOf (publishedRow state .failed m r) state spec') :=
    getOn_eq_ok.mpr ⟨_, hr', rfl, state, spec', rfl, hspec', rfl⟩
  refine ⟨recordOf (publishedRow state .failed m r) state spec', db', ?_⟩
  simp only [finishJobFailure, finishJobInner, boundedJson, eq_ok, hc.bounded, hc.envelope, hget]
  refine ⟨(), hcommand, (), trivial, _, rfl, (), howned, (), ⟨hterminal, by simp⟩, (), trivial, _,
    rfl, ?_⟩
  rw [if_neg (by simp [recordOf, hopen])]
  simp only [eq_ok]
  exact ⟨(), by simp [hcommand], (), by simp, m, hm, (), hbounded, db', hupdate, _, hread, rfl, rfl⟩

/-! ## The two loops -/

lemma sealAll_completes (hc : Legible c) (hsane : Sane db) (hreceipts : Receipts c db)
    (hquiet : ∀ id, env.sealing id = .commit) {jobs : List JobRecord}
    (hjobs : ∀ job ∈ jobs, ∃ r ∈ db.jobs.rows, r.id = job.id ∧ r.state ≠ .deleted) :
    ∃ n, (sealAll c env db jobs).1 = .ok n := by
  induction jobs generalizing db with
  | nil => exact ⟨0, rfl⟩
  | cons job jobs ih =>
  have htail (db' : Db) (h : Recovers db db') :
      ∀ x ∈ jobs, ∃ r ∈ db'.jobs.rows, r.id = x.id ∧ r.state ≠ .deleted := by
    intro x hx
    obtain ⟨r, hr, hid, hlive⟩ := hjobs x (.tail _ hx)
    obtain ⟨r', hr', hstep⟩ := h.jobs r hr
    refine ⟨r', hr', hstep.id_eq.trans hid, fun hdeleted => hlive ?_⟩
    rcases hstep.state with ⟨heq, -⟩ | ⟨-, s, -, hs⟩
    · exact heq.symm.trans hdeleted
    · cases hs.symm.trans hdeleted
  rw [sealAll]
  split_ifs with hterminal hcrash
  · exact ih hsane hreceipts (htail db (.refl db))
  · simp [hquiet] at hcrash
  have hrecovers := sealing_recovers (c := c) db (env.sealing job.id).fault (env.clock job.id) job
  have hdone : ∃ r ∈ (perform c (env.sealing job.id).fault db
      (.tx (sealing c (env.clock job.id) job))).2.jobs.rows, ∃ s, r.id = job.id ∧
        r.state = .live s ∧ s.terminal = true := by
    obtain ⟨r, hr, hid, hlive⟩ := hjobs job (.head _)
    obtain ⟨s, spec, hs, -⟩ := hsane.read hr hlive
    cases hsettled : s.terminal with
    | true =>
      obtain ⟨r', hr', hstep⟩ := hrecovers.jobs r hr
      have hsame := hstep.settled (by rw [hs]; exact hsettled)
      exact ⟨r', hr', s, hstep.id_eq.trans hid, hsame.trans hs, hsettled⟩
    | false =>
    obtain ⟨record, db', hok⟩ := finishJobFailure_restart hc hsane hreceipts hr hs hsettled
      (restartOutcome_mem (env.clock job.id) job)
    have hbody : body c db (sealing c (env.clock job.id) job) = .ok (.job record, db') := by
      rw [hid] at hok
      rw [sealing, body, hok]
      rfl
    have hperform : (perform c (env.sealing job.id).fault db
        (.tx (sealing c (env.clock job.id) job))).2 = db' := by
      rw [hquiet]
      exact congrArg Prod.snd (transact_ok hbody)
    obtain ⟨hterminal', r', hr', hid', hs', -⟩ :=
      finishJobInner_published (finishJobFailure_eq_ok hok).2.2
    rw [hperform]
    exact ⟨r', hr', _, hid'.trans hid, hs', hterminal'⟩
  dsimp only
  generalize (perform c (env.sealing job.id).fault db
    (.tx (sealing c (env.clock job.id) job))).2 = db₁ at hrecovers hdone ⊢
  obtain ⟨r, hr, s, hid, hs, hterminal⟩ := hdone
  obtain ⟨spec, hget⟩ := (hsane.recovers hrecovers).getOn hr hs
  obtain ⟨n, hn⟩ := ih (hsane.recovers hrecovers) (hreceipts.recovers hrecovers)
    (htail db₁ hrecovers)
  refine ⟨n + 1, ?_⟩
  rw [← hid, hget]
  simp [recordOf, hterminal, hn, Except.map]

lemma fenceAll_completes (hsane : Sane db) (hquiet : ∀ id, env.fencing id = .commit)
    (leases : List LeaseRow) : (fenceAll c env db leases).1 = .ok () := by
  induction leases generalizing db with
  | nil => rfl
  | cons lease leases ih =>
  rw [fenceAll]
  rcases fencedJob_readable hsane lease with hnone | ⟨job, vmId, hsome, hget⟩
  · rw [hnone]
    exact ih hsane
  rw [hsome]
  dsimp only
  rw [if_neg (by simp [hquiet]), hquiet]
  have hfault : Fate.commit.fault = none := rfl
  have hrecovers := fencing_recovers (c := c) db none job.id vmId lease.id
  rcases abort_ok_or_conflict hsane hget with ⟨db', hok⟩ | ⟨⟨reason, hconflict⟩, -⟩
  · have hperform : perform c none db (.tx (.recordJobLeasedPrebackendAbort job.id vmId lease.id)) =
        (.ok .done, db') := transact_ok (noReply_eq_ok.mpr ⟨hok, rfl⟩)
    rw [hperform] at hrecovers
    rw [hfault, hperform]
    exact ih (hsane.recovers hrecovers)
  have hperform : perform c none db (.tx (.recordJobLeasedPrebackendAbort job.id vmId lease.id)) =
      (.error (.conflict reason), db) := by
    apply transact_error
    rw [body, hconflict]
    rfl
  rw [hfault, hperform]
  exact ih hsane

def Conditions.quiet (env : Conditions) : Prop :=
  ∀ id, env.sealing id = .commit ∧ env.fencing id = .commit

lemma recoverableJobs_readable (hsane : Sane db) : ∃ jobs, recoverableJobs db = .ok jobs ∧
    ∀ job ∈ jobs, ∃ r ∈ db.jobs.rows, r.id = job.id ∧ r.state ≠ .deleted := by
  obtain ⟨read, hread⟩ : ∃ read, (db.jobs.rows.filter recoverable).mapM readRecord = .ok read := by
    refine mapM_isOk fun r hr => ?_
    obtain ⟨hr, hrecoverable⟩ := mem_filter.mp hr
    have hlive : r.state ≠ .deleted := by
      intro hdeleted
      simp [recoverable, hdeleted, hsane.retired r hr hdeleted] at hrecoverable
    obtain ⟨s, spec, -, hok⟩ := hsane.read hr hlive
    exact ⟨_, hok⟩
  have hjobs : recoverableJobs db = .ok (read.insertionSort recoverBefore) := by
    simp only [recoverableJobs, eq_ok]
    exact ⟨read, hread, rfl⟩
  refine ⟨_, hjobs, fun job hjob => ?_⟩
  obtain ⟨r, hr, -, hok⟩ := (recoverableJobs_eq_ok hjobs).2 job hjob
  obtain ⟨s, spec, hs, -, rfl⟩ := readRecord_eq_ok.mp hok
  exact ⟨r, hr, rfl, by rw [hs]; simp⟩

lemma recoverAfterRestart_quiet (hc : Legible c) (hsane : Sane db) (hreceipts : Receipts c db)
    (hquiet : env.quiet) : ∃ n, (recoverAfterRestart c env db).1 = .ok n := by
  obtain ⟨jobs, hjobs, hrows⟩ := recoverableJobs_readable hsane
  obtain ⟨n, hn⟩ := sealAll_completes hc hsane hreceipts (fun id => (hquiet id).1) hrows
  have hsane₁ := hsane.recovers (sealAll_recovers (c := c) env db jobs)
  have hfence := fenceAll_completes (c := c) hsane₁ (fun id => (hquiet id).2)
    (listHostResourceLeases (sealAll c env db jobs).2)
  refine ⟨n, ?_⟩
  rw [recoverAfterRestart, hjobs]
  cases hseal : sealAll c env db jobs with
  | mk result db₁ =>
    rw [hseal] at hn hfence
    obtain rfl : result = .ok n := hn
    simp [hseal, hfence, Except.map]

end

/-! ## What restart recovery guarantees -/

variable {c : Codec} {db db' : Db} {r : JobRow} {l : LeaseRow} {vmId : Uuid}

lemma afterAttempts_concat (db : Db) (attempts : List Conditions) (env : Conditions) :
    afterAttempts c db (attempts ++ [env]) =
      (recoverAfterRestart c env (afterAttempts c db attempts)).2 := by
  rw [afterAttempts, foldl_append]
  rfl

lemma Settled.outcome {r' : JobRow} (hsettled : Settled db') (hr' : r' ∈ db'.jobs.rows)
    (h : JobRecovers r r') (hopen : r.state.settled = false) (hlive : r.state ≠ .deleted) :
    ∃ s ∈ restartOutcomes, r'.state = .live s := by
  rcases h.state with ⟨heq, -⟩ | ⟨-, hdecided⟩
  · rcases hsettled r' hr' with hterminal | hdeleted
    · rw [heq, hopen] at hterminal
      contradiction
    · exact absurd (heq.symm.trans hdeleted) hlive
  · exact hdecided

lemma AllFenced.aborted (hfenced : AllFenced db') (hsettled : Settled db') (hsane : Sane db')
    (h : Recovers db db') (hplanned : Planned db r l vmId) (hcompleted : r.state ≠ .live .completed)
    (hfailed : r.state ≠ .live .commandFailed) :
    ∀ x ∈ db'.leases.rows, x.id = l.id → x.allocationAborted = true := by
  obtain ⟨r', l', hplanned', hjob, hlease⟩ := hplanned.recovers h
  have hlive : r'.state ≠ .deleted := by
    intro hdeleted
    have := hsane.retired r' hplanned'.job hdeleted
    simp [hplanned'.pending] at this
  have hstate : r'.state ∈ abortable.map StoredState.live := by
    have hdone := (hsettled r' hplanned'.job).resolve_right hlive
    rcases hjob.state with ⟨heq, -⟩ | ⟨-, s, hs, heq⟩
    · rw [← heq] at hcompleted hfailed
      cases hr' : r'.state with
      | deleted => exact absurd hr' hlive
      | live s =>
        rw [hr'] at hcompleted hfailed hdone
        cases s <;> simp [abortable, StoredState.settled, JobState.terminal] at hcompleted hfailed hdone ⊢
    · have habort : ∀ s ∈ restartOutcomes, s ∈ abortable := by decide
      rw [heq]
      exact mem_map_of_mem (habort s hs)
  obtain ⟨-, x', hx', hid', haborted⟩ := hfenced r' l' vmId hplanned' hstate
  intro x hx hid
  rwa [lease_unique hx hx' (hid.trans (hlease.id_eq.symm.trans hid'.symm))]

/-- Recovery, started from any reachable state and repeated until it completes, decides every
open job, touches no decided one, fences every planned generation for good, and then has
nothing left to do.  An attempt that is not interrupted completes. -/
theorem restart_recovery_settles (c : Codec) {w : World} (hw : Reachable c w)
    (attempts : List Conditions) {env : Conditions} {n : ℕ} {db' : Db}
    (hdone : recoverAfterRestart c env (afterAttempts c w.db attempts) = (.ok n, db')) :
    (∀ r' ∈ db'.jobs.rows, r'.state.settled = true ∨ r'.state = .deleted) ∧
    (∀ r ∈ w.db.jobs.rows, r.state.settled = true → ∃ r' ∈ db'.jobs.rows, r'.id = r.id ∧
      evidenceOf (viewOf db' r') = evidenceOf (viewOf w.db r)) ∧
    (∀ r ∈ w.db.jobs.rows, ∀ r' ∈ db'.jobs.rows, r'.id = r.id → r.state.settled = false →
      r.state ≠ .deleted → ∃ s ∈ restartOutcomes, r'.state = .live s) ∧
    (∀ r l vmId, Planned w.db r l vmId → r.state ≠ .live .completed →
      r.state ≠ .live .commandFailed → ∀ trace w', (store c).Run ⟨db', w.issued⟩ trace w' →
        ∀ e ∈ trace, ¬e.enters l.id) ∧
    (∀ env', (recoverAfterRestart c env' db').2 = db') ∧
    (Legible c → Nests c w.db → ∀ env' : Conditions, env'.quiet →
      ∃ n, (recoverAfterRestart c env' (afterAttempts c w.db attempts)).1 = .ok n) := by
  have hsane := Reachable.sane hw
  have hstart := afterAttempts_recovers (c := c) w.db attempts
  have hsane₀ := hsane.recovers hstart
  have hrecovers : Recovers w.db db' := by
    have := hstart.trans (recoverAfterRestart_recovers (c := c) env _)
    rwa [hdone] at this
  obtain ⟨hsettled, hfenced⟩ : Settled db' ∧ AllFenced db' := by
    have hok : (recoverAfterRestart c env (afterAttempts c w.db attempts)).1 = .ok n := by
      rw [hdone]
    have := recoverAfterRestart_completes hsane₀ hok
    rwa [hdone] at this
  refine ⟨hsettled, fun r hr hterminal => ?_, fun r hr r' hr' hid hopen hlive => ?_,
    fun r l vmId hplanned hcompleted hfailed trace w' hrun => ?_, recover_again hsettled hfenced,
    fun hc hnests env' hquiet => ?_⟩
  · have hcalled := afterAttempts_called (c := c) w.db (attempts ++ [env])
    rw [afterAttempts_concat, hdone] at hcalled
    obtain ⟨trace, hrun, hkeep⟩ := hcalled w.issued
    exact run_keeps_evidence hw hrun hr hterminal fun e he => by rw [hkeep e he]; simp
  · obtain ⟨x, hx, hstep⟩ := hrecovers.jobs_back r' hr'
    obtain rfl := row_unique hx hr (hstep.id_eq.symm.trans hid)
    exact hsettled.outcome hr' hstep hopen hlive
  · have haborted := hfenced.aborted hsettled (hsane.recovers hrecovers) hrecovers hplanned
      hcompleted hfailed
    exact run_never_enters (w := ⟨db', w.issued⟩) (lease_issued hw l hplanned.lease) haborted hrun
  · exact recoverAfterRestart_quiet hc hsane₀ ((hnests.receipts hw).recovers hstart) hquiet

/-! ## Runs -/

def envelopeText : String :=
  "\x7b\"collection\":\"failed\",\"host_error\":\"" ++ restartError ++
    "\",\"retained_output\":\"journaled prefix; final tail may be unavailable\"\x7d"

def envelopeCodec : Codec where
  sha256 := Codec.emptyObject.sha256
  fromStr text :=
    if text = envelopeText then some (hostError restartError) else Codec.emptyObject.fromStr text
  toText
    | .object [] => "\x7b\x7d"
    | _ => envelopeText

def calm : Conditions := ⟨fun _ => .ofSeconds 50, fun _ => .commit, fun _ => .commit⟩

def dying : Conditions := { calm with sealing := fun id => if id = .ofNat 4 then .crash else .commit }

def restartCalls : List Call := [
  .tx (.acceptJob ⟨.ofSeconds 0, .ofNat 1, .ofNat 2⟩ ⟨"build", "\x7b\x7d", .ofSeconds 100, .ofSeconds 200⟩),
  .tx (.claimJobVm (.ofSeconds 1) (.ofNat 1)),
  .tx (.bindJobVmWithLease ⟨.ofNat 3, .ofSeconds 1, none⟩ (.ofSeconds 1) (.ofNat 1) (.ofNat 7)
    (jobVmName (.ofNat 1))),
  .tx (.acceptJob ⟨.ofSeconds 2, .ofNat 4, .ofNat 5⟩ ⟨"test", "\x7b\x7d", .ofSeconds 100, .ofSeconds 200⟩)]

def beforeRestart : World := (World.init.calls envelopeCodec restartCalls).2

def recovered : Db :=
  (recoverAfterRestart envelopeCodec calm (afterAttempts envelopeCodec beforeRestart.db [dying])).2

theorem interrupted_recovery_completes :
    recovered.jobs.rows.map (·.state) = [.live .unknown, .live .interrupted] ∧
    (∀ trace w', (store envelopeCodec).Run ⟨recovered, beforeRestart.issued⟩ trace w' →
      ∀ e ∈ trace, ¬e.enters (.ofNat 3)) ∧
    ∀ env, (recoverAfterRestart envelopeCodec env recovered).2 = recovered := by
  have hw : Reachable envelopeCodec beforeRestart :=
    ⟨_, World.calls_run envelopeCodec .init restartCalls (by decide)⟩
  have hdone : recoverAfterRestart envelopeCodec calm
      (afterAttempts envelopeCodec beforeRestart.db [dying]) = (.ok 1, recovered) := by
    refine Prod.ext ?_ ?_
    · decide +kernel
    · rw [recovered]
  have hbound : ∃ r ∈ beforeRestart.db.jobs.rows, ∃ l ∈ beforeRestart.db.leases.rows,
      l.id = .ofNat 3 ∧ r.state = .live .preparing ∧ r.vmId = some (.ofNat 7) ∧
      l.vmId = some (.ofNat 7) ∧ r.vmName = some (jobVmName r.id) ∧ l.vmName = jobVmName r.id ∧
      r.vmDestroyed = false ∧ r.cleanupPending = true ∧ l.backendEntered = false ∧
      generationHeld beforeRestart.db (.ofNat 7) l.id (jobVmName r.id) = false := by
    decide +kernel
  obtain ⟨r, hr, l, hl, hid, hstate, hvm, hplan, hname, hlname, hintact, hpending, hentered,
    hfree⟩ := hbound
  obtain ⟨-, -, -, hfenced, hagain, -⟩ := restart_recovery_settles envelopeCodec hw [dying] hdone
  refine ⟨by decide +kernel, ?_, hagain⟩
  rw [← hid]
  exact hfenced r l (.ofNat 7)
    ⟨hr, hl, hvm, hplan, hname, hlname, hintact, hpending, hentered, hfree⟩ (by simp [hstate])
    (by simp [hstate])

/-- Whether a job is marked running only after its lease entered the backend. -/
def entersFirst : List Call → Bool
  | [] => true
  | .tx (.markJobRunning _ _) :: _ => false
  | .tx (.enterHostResourceLeaseBackend _ _ _) :: _ => true
  | _ :: calls => entersFirst calls

/-- Recovery completes, but a generation its job had bound, and nothing else holds, can still
enter the backend. -/
def entersAfterwards (calls : List Call) : Bool :=
  let db := (World.init.calls envelopeCodec calls).2.db
  let after := recoverAfterRestart envelopeCodec calm db
  after.1.isOk && db.jobs.rows.any fun r => db.leases.rows.any fun l =>
    match l.vmId with
    | none => false
    | some vmId =>
      r.vmId = some vmId && !l.backendEntered &&
      !generationHeld db vmId l.id l.vmName &&
      (perform envelopeCodec none after.2
        (.tx (.enterHostResourceLeaseBackend l.id vmId none))).1.isOk

def Escapes (calls : List Call) : Prop :=
  Reachable envelopeCodec (World.init.calls envelopeCodec calls).2 ∧
    entersFirst calls = true ∧ entersAfterwards calls = true

lemma escapes_of_eval {calls : List Call} (hfresh : freshDraws [] calls = true)
    (hfirst : entersFirst calls = true) (hafter : entersAfterwards calls = true) : Escapes calls :=
  ⟨⟨_, World.calls_run envelopeCodec .init calls hfresh⟩, hfirst, hafter⟩

def acceptedCall : Call :=
  .tx (.acceptJob ⟨.ofSeconds 0, .ofNat 1, .ofNat 2⟩ ⟨"build", "\x7b\x7d", .ofSeconds 100, .ofSeconds 200⟩)

def boundCall (name : String) : Call :=
  .tx (.bindJobVmWithLease ⟨.ofNat 3, .ofSeconds 1, none⟩ (.ofSeconds 1) (.ofNat 1) (.ofNat 7) name)

/-- The generation was bound under a name that is not derived from the job. -/
def foreignName : List Call := [acceptedCall, boundCall "vm"]

/-- The lease of the generation was begun apart, under a name of its own. -/
def foreignLease : List Call := [acceptedCall,
  .tx (.claimJobVm (.ofSeconds 1) (.ofNat 1)),
  .tx (.bindJobVm (.ofSeconds 1) (.ofNat 1) (.ofNat 7) (jobVmName (.ofNat 1))),
  .tx (.beginHostResourceLeaseForVm ⟨.ofNat 3, .ofSeconds 1, none⟩ "vm" (.ofNat 7))]

/-- The generation was recorded as destroyed before its lease was entered. -/
def earlyDestruction : List Call := [acceptedCall, boundCall (jobVmName (.ofNat 1)),
  .tx (.recordJobVmDestruction (.ofNat 7))]

def confirmedCleanup : List Call := [acceptedCall, boundCall (jobVmName (.ofNat 1)),
  .tx (.recordJobVmAllocationAbort (.ofNat 1) (.ofNat 7)),
  .tx (.finishJobFailure (.ofNat 1) .cancelled "\x7b\x7d"),
  .tx (.confirmJobCleanup (.ofNat 1) (.ofNat 7))]

/-- The command completed, and a second lease was begun for its generation. -/
def secondLease : List Call := [acceptedCall, boundCall (jobVmName (.ofNat 1)),
  .tx (.enterHostResourceLeaseBackend (.ofNat 3) (.ofNat 7) none),
  .tx (.markJobRunning (.ofSeconds 2) (.ofNat 1)),
  .tx (.finishJob (.ofNat 1) .completed .complete "\x7b\x7d"),
  .tx (.recordHostResourceLeaseDestruction (.ofNat 3) (.ofNat 7)),
  .tx (.releaseHostResourceLease (.ofNat 3)),
  .tx (.beginHostResourceLeaseForVm ⟨.ofNat 4, .ofSeconds 3, none⟩ (jobVmName (.ofNat 1))
    (.ofNat 7))]

theorem unentered_generation_escapes_recovery :
    Escapes foreignName ∧ Escapes foreignLease ∧ Escapes earlyDestruction ∧
      Escapes confirmedCleanup ∧ Escapes secondLease := by
  refine ⟨?_, ?_, ?_, ?_, ?_⟩ <;>
    exact escapes_of_eval (by decide +kernel) (by decide +kernel) (by decide +kernel)

/-! # Which cleanups a tick retries

A tick retries up to four terminal jobs, from where a counter that all ticks share points to.
-/
open Nat

/-- What a tick meets: the two reads of the recoverable jobs, and the cleanups that succeed in time. -/
structure Tick where
  recoverable : Except JournalError (List JobRecord)
  cleanupJobVm : Uuid → Bool
  remaining : Except JournalError (List JobRecord)

structure FactoryCleanupReport where
  attempted : ℕ
  confirmed : ℕ
  pending : ℕ

def Tick.pending (t : Tick) : Except JournalError (List JobRecord) :=
  t.recoverable.map (·.filter fun job => job.state.terminal && job.cleanupPending)

/-- A list read in a cycle from a place on is the list rotated to that place. -/
def cleanupIds (pending : List JobRecord) (cursor : ℕ) : List Uuid :=
  ((pending.rotate (cursor % pending.length)).take (min pending.length 4)).map (·.id)

/-- The jobs it attempts, the counter it leaves and what it reports. -/
def factoryCleanupTick (t : Tick) (cursor : ℕ) :
    List Uuid × ℕ × Except JournalError FactoryCleanupReport :=
  match t.pending with
  | .error e => ([], cursor, .error e)
  | .ok pending =>
    let (ids, cursor') :=
      if pending = [] then ([], cursor) else (cleanupIds pending cursor, (cursor + 4) % 2 ^ 64)
    (ids, cursor', t.remaining.map fun jobs =>
      ⟨ids.length, ids.countP t.cleanupJobVm, jobs.countP (·.cleanupPending)⟩)

def attempts : List Tick → ℕ → List (List Uuid)
  | [], _ => []
  | t :: ts, cursor =>
    let (ids, cursor', _) := factoryCleanupTick t cursor
    ids :: attempts ts cursor'

variable {pending : List JobRecord} {ticks : List Tick} {cursor d : ℕ}

lemma mem_cleanupIds {i : ℕ} (hi : i < pending.length) (hd : d < min pending.length 4)
    (hplace : (cursor + d) % pending.length = i) : pending[i].id ∈ cleanupIds pending cursor := by
  subst hplace
  apply mem_map_of_mem
  rw [mem_take_iff_getElem]
  exact ⟨d, by simpa using hd, by simp [getElem_rotate, Nat.add_comm d]⟩

lemma cleanupIds_nodup (hids : (pending.map (·.id)).Nodup) : (cleanupIds pending cursor).Nodup := by
  rw [cleanupIds, map_take, map_rotate]
  exact (nodup_rotate.mpr hids).take

lemma attempts_eq (hne : pending ≠ []) (hfixed : ∀ t ∈ ticks, t.pending = .ok pending)
    (hwrap : cursor + 4 * ticks.length ≤ 2 ^ 64) :
    attempts ticks cursor =
      (List.range ticks.length).map fun k => cleanupIds pending (cursor + 4 * k) := by
  induction ticks generalizing cursor with
  | nil => rfl
  | cons t ts ih =>
    rw [forall_mem_cons] at hfixed
    rw [length_cons] at hwrap
    have hhead : attempts (t :: ts) cursor =
        cleanupIds pending cursor :: attempts ts ((cursor + 4) % 2 ^ 64) := by
      simp [attempts, factoryCleanupTick, hfixed.1, hne]
    rw [hhead, length_cons, range_succ_eq_map]
    cases ts with
    | nil => simp [attempts]
    | cons t' ts' =>
    have hlt : cursor + 4 < 2 ^ 64 := by
      rw [length_cons] at hwrap
      omega
    rw [mod_eq_of_lt hlt, ih hfixed.2 (by omega)]
    simp [Function.comp_def, Nat.mul_add, Nat.add_assoc, Nat.add_comm 4]

theorem cleanup_rotation_fair (hne : pending ≠ []) (hids : (pending.map (·.id)).Nodup)
    (hfixed : ∀ t ∈ ticks, t.pending = .ok pending)
    (hticks : ticks.length = (pending.length + 3) / 4)
    (hwrap : cursor + 4 * ticks.length ≤ 2 ^ 64) :
    (∀ job ∈ pending, ∃ ids ∈ attempts ticks cursor, job.id ∈ ids) ∧
      ∀ ids ∈ attempts ticks cursor, ids.Nodup := by
  rw [attempts_eq hne hfixed hwrap]
  refine ⟨fun job hjob => ?_, fun ids hin => ?_⟩
  · obtain ⟨i, hi, rfl⟩ := mem_iff_getElem.mp hjob
    -- The job stands this far behind the place the counter points to.
    let d := (i + (pending.length - cursor % pending.length)) % pending.length
    have hd : d < pending.length := mod_lt _ (by omega)
    have hplace : (cursor + 4 * (d / 4) + d % 4) % pending.length = i := by
      have hcycle : cursor + (i + (pending.length - cursor % pending.length)) =
          i + pending.length * (cursor / pending.length + 1) := by
        have hcursor := mod_lt cursor (show 0 < pending.length by omega)
        have hdiv := div_add_mod cursor pending.length
        rw [Nat.mul_add_one]
        omega
      rw [Nat.add_assoc, div_add_mod, add_mod_mod, hcycle, add_mul_mod_self_left, mod_eq_of_lt hi]
    exact ⟨_, mem_map_of_mem (mem_range.mpr (show d / 4 < _ by omega)),
      mem_cleanupIds hi (by omega) hplace⟩
  · obtain ⟨k, -, rfl⟩ := mem_map.mp hin
    exact cleanupIds_nodup hids

def failedJob (n : ℕ) : JobRecord :=
  ⟨.ofNat n, "", "", .unknown, 0, 0, 0, none, none, .ofNat 0, 0, 0, false, .failed, none, true, false,
    false⟩

theorem five_cleanups_attempted : let jobs := (List.range 5).map failedJob
    ∀ job ∈ jobs, ∃ ids ∈ attempts (.replicate 2 ⟨.ok jobs, fun _ => false, .ok jobs⟩) 3, job.id ∈ ids :=
  (cleanup_rotation_fair (by decide) (by decide) (by simp [Tick.pending]; rfl) rfl (by decide)).1

end Husker.Recovery
