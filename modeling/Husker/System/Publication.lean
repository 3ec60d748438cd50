import Husker.System.Track

/-! # The first publication decides

Over any sequence of calls a job moves forward only, the first publication that commits is
its outcome, and the published evidence stays until it is deleted.
-/
namespace Husker.System
open Relational Store Journal List TerminalEvidence StoredState Call

variable {c : Codec} {w w' : World} {e : Event}

/-- A later view of a job: further along, with the same evidence once it is published. -/
structure Follows (v v' : JobView) : Prop where
  rank_le : rank v.row.state ≤ rank v'.row.state
  frozen : v.row.state.settled = true → v'.row.state ≠ .deleted → evidenceOf v' = evidenceOf v

lemma Follows.refl (v : JobView) : Follows v v := ⟨le_rfl, fun _ _ => rfl⟩

lemma Follows.trans {u v w : JobView} (h₁ : Follows u v) (h₂ : Follows v w) : Follows u w := by
  refine ⟨h₁.rank_le.trans h₂.rank_le, fun hsettled hlive => ?_⟩
  have hv : v.row.state ≠ .deleted := by
    intro hv
    have hrank := h₂.rank_le
    rw [hv] at hrank
    exact hlive (rank_eq_deleted (le_antisymm (rank_le_deleted _) hrank))
  have huv := h₁.frozen hsettled hv
  have hstate : v.row.state = u.row.state := congrArg state huv
  rw [← huv]
  exact h₂.frozen (hstate ▸ hsettled) hlive

lemma Change.follows {g : Grant} {v v' : JobView} (h : Change c g v v') (hv : Sealed v) :
    Follows v v' := by
  refine ⟨h.rank_le, fun hsettled hlive => ?_⟩
  rcases h.frozen hv hsettled with heq | ⟨hdeleted, -⟩
  · exact heq
  · exact absurd hdeleted hlive

lemma sealed_accepted (seed : AcceptSeed) (s : Submission) (_ : Admissible c s) :
    Sealed ⟨acceptedRow c seed s, [], []⟩ := by
  simp [Sealed, acceptedRow, settled, JobState.terminal]

lemma Reachable.sealed (hw : Reachable c w) : ∀ r ∈ w.db.jobs.rows, Sealed (viewOf w.db r) :=
  view_invariant sealed_accepted (fun _ _ _ hv h => h.sealed hv) hw

variable {trace : List Event} {r : JobRow} {s : JobState} {r' : JobRow}

lemma run_follows (hw : Reachable c w) (hrun : (store c).Run w trace w')
    (hr : r ∈ w.db.jobs.rows) (hr' : r' ∈ w'.db.jobs.rows) (hid : r'.id = r.id) :
    Follows (viewOf w.db r) (viewOf w'.db r') :=
  run_tracks Follows.refl (fun _ _ _ => Follows.trans) sealed_accepted
    (fun _ _ _ hv h => h.sealed hv) (fun _ _ _ hv h => Change.follows h hv) hw hrun hr hr' hid

lemma run_keeps_evidence (hw : Reachable c w)
    (hrun : (store c).Run w trace w') (hr : r ∈ w.db.jobs.rows)
    (hsettled : r.state.settled = true) (hkeep : ∀ e ∈ trace, r.id ∉ e.call.grant.deletes) :
    ∃ r' ∈ w'.db.jobs.rows, r'.id = r.id ∧
      evidenceOf (viewOf w'.db r') = evidenceOf (viewOf w.db r) := by
  induction hrun generalizing r with
  | nil w => exact ⟨r, hr, rfl, rfl⟩
  | @cons w₁ w₂ w₃ e trace hstep _ ih =>
  have hw₂ : Reachable c w₂ := hw.elim fun t ht => ⟨_, ht.snoc hstep⟩
  have hlive : r.state ≠ .deleted := by
    intro hdeleted
    simp [hdeleted, settled] at hsettled
  obtain ⟨r₂, hr₂, hchange⟩ := step_keeps hstep hr hlive
  have hid₂ := Change.id_eq hchange
  rcases hchange.frozen (Reachable.sealed hw r hr) hsettled with heq | ⟨-, hdelete⟩
  · have hstate : r₂.state = r.state := congrArg state heq
    obtain ⟨r₃, hr₃, hid₃, heq₃⟩ := ih hw₂ hr₂ (hstate ▸ hsettled) fun e he =>
      hid₂ ▸ hkeep e (.tail _ he)
    exact ⟨r₃, hr₃, hid₃.trans hid₂, heq₃.trans heq⟩
  · exact absurd hdelete (hkeep e (.head _))

def publication (id : Uuid) (e : Event) : Option (JobState × CollectionState) :=
  match e.call, e.outcome with
  | .tx (.finishJob i state collection _), .ok _ => if i = id then some (state, collection) else none
  | .tx (.finishJobFailure i state _), .ok _ => if i = id then some (state, .failed) else none
  | _, _ => none

lemma publication_stored (h : (store c).step w e w') {id : Uuid} {collection : CollectionState}
    (hpub : publication id e = some (s, collection)) :
    s.terminal = true ∧ ∃ r ∈ w'.db.jobs.rows, r.id = id ∧ r.state = .live s ∧ r.collection = collection := by
  unfold publication at hpub
  split at hpub
  · rename_i i state coll manifest reply hcall hout
    split_ifs at hpub with hid
    obtain ⟨rfl, rfl⟩ : state = s ∧ coll = collection := by simpa using hpub
    obtain ⟨_, hbody, -⟩ := withReply_eq_ok.mp (step_body h hcall hout)
    exact hid ▸ finishJobInner_published hbody
  · rename_i i state envelope reply hcall hout
    split_ifs at hpub with hid
    obtain ⟨rfl, rfl⟩ : state = s ∧ CollectionState.failed = collection := by simpa using hpub
    obtain ⟨_, hbody, -⟩ := withReply_eq_ok.mp (step_body h hcall hout)
    exact hid ▸ finishJobInner_published (finishJobFailure_eq_ok hbody).2.2
  · simp at hpub

lemma publication_of_change (h : (store c).step w e w') (hr : r ∈ w.db.jobs.rows) (hr' : r' ∈ w'.db.jobs.rows)
    (hchange : Change c e.call.grant (viewOf w.db r) (viewOf w'.db r'))
    (hopen : r.state.settled = false) (hs : r'.state = .live s)
    (hterminal : s.terminal = true) : publication r.id e = some (s, r'.collection) := by
  have hpub : (r.id, s, r'.collection) ∈ e.call.grant.publishes :=
    hchange.published hopen hs hterminal
  have hid : r'.id = r.id := Change.id_eq hchange
  cases hcall : e.call with
  | expireJobEvidence | ensureCidBase => simp [hcall, grant] at hpub
  | tx t =>
  -- a failed transaction leaves the row open
  obtain ⟨reply, hout⟩ : ∃ reply, e.outcome = .ok reply := by
    rcases perform_tx c e.fault w.db t with ⟨reply, db', -, ht⟩ | ⟨err, ht⟩
    · exact ⟨reply, by rw [← hcall, h.2.1] at ht; exact congrArg Prod.fst ht⟩
    · rw [← hcall, h.2.1, Prod.mk.injEq] at ht
      rw [ht.2] at hr'
      obtain rfl := row_unique hr' hr hid
      simp [hs, settled, hterminal] at hopen
  cases t with
  | finishJob | finishJobFailure =>
    simp only [hcall, grant, Tx.grant, Set.mem_singleton_iff, Prod.mk.injEq] at hpub
    simp [publication, hcall, hout, hpub]
  | _ => simp [hcall, grant, Tx.grant] at hpub

lemma publication_of_offer {o : Offer} (h : e.call.offer = some o) (id : Uuid) :
    publication id e = none := by
  unfold publication
  split
  · rename_i hcall _
    simp [hcall, offer, Tx.offer] at h
  · rename_i hcall _
    simp [hcall, offer, Tx.offer] at h
  · rfl

/-- A live job holds what the first successful publication said, and is open before it. -/
structure Decided (trace : List Event) (w : World) : Prop where
  drawn : ∀ id, id ∉ w.issued → trace.findSome? (publication id) = none
  rows : ∀ r ∈ w.db.jobs.rows, ∀ s, r.state = .live s →
    trace.findSome? (publication r.id) = if s.terminal then some (s, r.collection) else none

lemma publication_agrees (h : (store c).step w e w') (hr : r ∈ w'.db.jobs.rows)
    (hs : r.state = .live s) (hopen : s.terminal = false) : publication r.id e = none := by
  cases hpub : publication r.id e with
  | none => rfl
  | some p =>
  obtain ⟨hterminal, r₀, hr₀, hid, hstate, -⟩ := publication_stored h hpub
  rw [row_unique hr₀ hr hid, hs, live.injEq] at hstate
  rw [hstate, hterminal] at hopen
  contradiction

lemma Decided.step (hd : Decided trace w) (hw : Reachable c w)
    (h : (store c).step w e w') : Decided (trace ++ [e]) w' := by
  have hissued' := (Reachable.issued hw).step h
  have hsplit (id : Uuid) : (trace ++ [e]).findSome? (publication id) =
      (trace.findSome? (publication id)).or (publication id e) := by
    rw [findSome?_append, findSome?_singleton]
  constructor
  · intro id hid
    have hold : id ∉ w.issued := fun hmem => hid (by rw [h.2.2]; exact mem_append_left _ hmem)
    rw [hsplit, hd.drawn id hold, Option.none_or]
    cases hpub : publication id e with
    | none => rfl
    | some p =>
      obtain ⟨-, r, hr, rfl, -⟩ := publication_stored h hpub
      exact absurd (hissued'.jobs r hr) hid
  · intro r' hr' s' hs'
    rw [hsplit]
    rcases step_rows h hr' with ⟨r, hr, hchange⟩ | ⟨o, -, hcall, -, -, rfl⟩
    · have hid : r'.id = r.id := Change.id_eq hchange
      obtain ⟨s, hs⟩ : ∃ s, r.state = .live s := by
        cases hr_state : r.state with
        | live s => exact ⟨s, rfl⟩
        | deleted =>
        have hrank : rank r.state ≤ rank r'.state := hchange.rank_le
        rw [hr_state] at hrank
        have := rank_eq_deleted (le_antisymm (rank_le_deleted _) hrank)
        rw [this] at hs'
        contradiction
      rw [hid, hd.rows r hr s hs]
      cases hterminal : s.terminal with
      | true =>
        -- decided before: the evidence is frozen
        have hsettled : r.state.settled = true := by rw [hs]; exact hterminal
        rcases hchange.frozen (Reachable.sealed hw r hr) hsettled with heq | ⟨hdeleted, -⟩
        · have hstate : r'.state = r.state := congrArg state heq
          have hcollection : r'.collection = r.collection := congrArg collection heq
          rw [hs', hs, StoredState.live.injEq] at hstate
          simp [hstate, hterminal, hcollection]
        · cases hs'.symm.trans hdeleted
      | false =>
        have hopen : r.state.settled = false := by rw [hs]; exact hterminal
        cases hterminal' : s'.terminal with
        | true => simpa using publication_of_change h hr hr' hchange hopen hs' hterminal'
        | false => simpa [hid] using publication_agrees h hr' hs' hterminal'
    · have hfresh : (acceptedRow c o.seed o.submission).id ∉ w.issued := h.1 _ (offer_seed hcall).2
      rw [hd.drawn _ hfresh, publication_of_offer hcall]
      obtain rfl : JobState.accepted = s' := by simpa [acceptedRow] using hs'
      rfl

lemma decided_of_run (h : (store c).Run .init trace w) : Decided trace w :=
  h.history ⟨fun _ _ => rfl, by simp [World.init, Db.fresh]⟩
    fun _ _ _ _ hrun hd hstep => hd.step ⟨_, hrun⟩ hstep

/-- The life of a job over any calls, in any order and at any clock readings.

States only move forward; a command result comes from a running job; the outcome is the one
the first successful publication named; and from then on the evidence stays as published as
long as no call deletes it. -/
theorem terminal_evidence_is_immutable (c : Codec) {before after : List Event}
    (hbefore : (store c).Run .init before w) (hafter : (store c).Run w after w') :
    (∀ r ∈ w.db.jobs.rows, ∀ r' ∈ w'.db.jobs.rows, r'.id = r.id →
      rank r.state ≤ rank r'.state ∧
      (r.state.settled = true → r'.state ≠ .deleted →
        evidenceOf (viewOf w'.db r') = evidenceOf (viewOf w.db r))) ∧
    (∀ r ∈ w.db.jobs.rows, r.state.settled = true →
      (∀ e ∈ after, r.id ∉ e.call.grant.deletes) →
      ∃ r' ∈ w'.db.jobs.rows, r'.id = r.id ∧
        evidenceOf (viewOf w'.db r') = evidenceOf (viewOf w.db r)) ∧
    (∀ e, after = [e] → ∀ r' ∈ w'.db.jobs.rows,
      r'.state = .live .completed ∨ r'.state = .live .commandFailed →
      ∃ r ∈ w.db.jobs.rows, r.id = r'.id ∧ (r.state = r'.state ∨ r.state = .live .running)) ∧
    (∀ r ∈ w.db.jobs.rows, ∀ s, r.state = .live s →
      before.findSome? (publication r.id) =
        if s.terminal then some (s, r.collection) else none) := by
  have hw : Reachable c w := ⟨before, hbefore⟩
  refine ⟨fun r hr r' hr' hid => ?_, fun r hr hsettled hkeep => ?_, ?_, ?_⟩
  · have hfollows := run_follows hw hafter hr hr' hid
    exact ⟨hfollows.rank_le, hfollows.frozen⟩
  · exact run_keeps_evidence hw hafter hr hsettled hkeep
  · rintro e rfl r' hr' hcommand
    cases hafter with
    | cons hstep hnil =>
    cases hnil
    rcases step_rows hstep hr' with ⟨r, hr, hchange⟩ | ⟨o, -, -, -, -, rfl⟩
    · exact ⟨r, hr, (Change.id_eq hchange).symm, hchange.command hcommand⟩
    · simp [acceptedRow] at hcommand
  · exact (decided_of_run hbefore).rows

def completedJob : List Call := [
  .tx (.acceptJob ⟨.ofSeconds 0, .ofNat 1, .ofNat 2⟩
    ⟨"build", "\x7b\x7d", .ofSeconds 100, .ofSeconds 200⟩),
  .tx (.claimJobVm (.ofSeconds 1) (.ofNat 1)),
  .tx (.bindJobVm (.ofSeconds 1) (.ofNat 1) (.ofNat 7) (jobVmName (.ofNat 1))),
  .tx (.markJobRunning (.ofSeconds 2) (.ofNat 1)),
  .tx (.finishJob (.ofNat 1) .completed .complete "\x7b\x7d")]

def lateAttempts : List Call := [
  .tx (.finishJob (.ofNat 1) .cancelled .failed "\x7b\x7d"),
  .tx (.appendJobEvents (.ofNat 1) [⟨1, "stdout", [104, 105]⟩] false)]

def completedWorld : World := (World.init.calls .emptyObject completedJob).2

def attemptedWorld : World := (completedWorld.calls .emptyObject lateAttempts).2

theorem completed_evidence_survives :
    ∃ r ∈ completedWorld.db.jobs.rows, r.state = .live .completed ∧
      ∃ r' ∈ attemptedWorld.db.jobs.rows, r'.id = r.id ∧
        evidenceOf (viewOf attemptedWorld.db r') = evidenceOf (viewOf completedWorld.db r) := by
  have hbefore := World.calls_run .emptyObject .init completedJob (by decide)
  have hafter := World.calls_run .emptyObject completedWorld lateAttempts (by decide)
  obtain ⟨r, hr, hstate⟩ : ∃ r ∈ completedWorld.db.jobs.rows, r.state = .live .completed := by
    decide +kernel
  refine ⟨r, hr, hstate, ?_⟩
  apply (terminal_evidence_is_immutable .emptyObject hbefore hafter).2.1 r hr (by rw [hstate]; rfl)
  intro e he
  simp only [World.calls, World.call, lateAttempts, mem_cons, not_mem_nil, or_false] at he
  rcases he with rfl | rfl <;> simp [grant, Tx.grant]

end Husker.System
