import Husker.System.Acceptance
import Husker.Journal.Retention

/-! # Captured output over a whole run

Whatever calls are made between them, the accepted batches of a job make one log without gaps, of
which the beginning is retained.
-/
namespace Husker.System
open Relational Store Journal List

/-! ## A client that reads captured output

The client asks for the page after its cursor and moves the cursor to where the page ended,
while calls of any kind change the journal in between.
-/

open Reachable

section
variable {c : Codec} {id : Uuid} {w : World}

structure Reader where
  world : World
  cursor : ℕ
  received : List JobEvent

inductive Turn where
  | call (e : Event)
  | page (result : Except JournalError JobEventPage)

def Reader.after (s : Reader) : Except JournalError JobEventPage → Reader
  | .ok p => { s with cursor := p.nextCursor, received := s.received ++ p.events }
  | .error _ => s

/-- Calls on the store, and requests of the client for the output of one job. -/
def reading (c : Codec) (id : Uuid) : Machine Reader Turn where
  step s
    | .call e, s' => (store c).step s.world e s'.world ∧ s' = { s with world := s'.world }
    | .page result, s' => jobEvents s.world.db id s.cursor = result ∧ s' = s.after result

def Reader.init (w : World) : Reader := ⟨w, 0, []⟩

lemma Reachable.logged (hw : Reachable c w) :
    ∀ r ∈ w.db.jobs.rows, r.state ≠ .deleted → Logged (viewOf w.db r) :=
  view_invariant (I := fun v => v.row.state ≠ .deleted → Logged v)
    (fun _ _ _ _ => ⟨rfl, .nil⟩) (fun _ _ _ hv h => h.logged hv) hw

structure CaughtUp (c : Codec) (id : Uuid) (s : Reader) : Prop where
  reachable : Reachable c s.world
  read : ∀ r ∈ s.world.db.jobs.rows, r.id = id → r.state ≠ .deleted →
    s.received = upTo JobEvent.sequence s.cursor (retainedEvents s.world.db id) ∧
      s.cursor ≤ r.captureCursor
  fresh : id ∉ s.world.issued → s = .init s.world

variable {s s' : Reader}

section
variable (h : CaughtUp c id s)
include h

lemma CaughtUp.answered {r : JobRow}
    (hr : r ∈ s.world.db.jobs.rows) (hid : r.id = id) (hlive : r.state ≠ .deleted) :
    ∃ p, jobEvents s.world.db id s.cursor = .ok p ∧
      Extends (retainedEvents s.world.db id) s.cursor r.captureCursor p := by
  subst hid
  have hlog := logged h.reachable r hr hlive
  obtain ⟨spec, hspec, -, -⟩ := (recorded h.reachable r hr).live hlive
  obtain ⟨st, hstate⟩ : ∃ st, r.state = .live st := by
    cases hstate : r.state with
    | live st => exact ⟨st, rfl⟩
    | deleted => exact absurd hstate hlive
  have hget : getOn s.world.db r.id = .ok (recordOf r st spec) :=
    getOn_eq_ok.mpr ⟨r, hr, rfl, st, spec, hstate, hspec, rfl⟩
  obtain ⟨-, hcursor⟩ := h.read r hr rfl hlive
  refine ⟨_, jobEvents_eq_ok.mpr ⟨hcursor.trans hlog.cursor_le, _, hget, rfl⟩, ?_⟩
  exact pageOf_extends (recordOf r st spec) hlog.ordered
    (fun e he => (hlog.sequence_mem e he).2) hcursor

lemma CaughtUp.call {e : Event}
    (hstep : (reading c id).step s (.call e) s') : CaughtUp c id s' := by
  obtain ⟨hcall, hs'⟩ := hstep
  refine ⟨step h.reachable hcall, fun r' hr' hid hlive => ?_, fun hnew => ?_⟩
  · rw [hs']
    rcases step_rows hcall hr' with ⟨r, hr, hchange⟩ | ⟨o, -, hoffer, -, haccept, rfl⟩
    · have hid' := Change.id_eq hchange
      have hlive' : r.state ≠ .deleted := fun hdeleted => hlive (hchange.deleted hdeleted)
      obtain ⟨hread, hcursor⟩ := h.read r hr (hid'.symm.trans hid) hlive'
      obtain ⟨rows, hevents, hnext, hlater⟩ := hchange.grows hlive
      have hgrown : eventsOf s'.world.db r'.id = eventsOf s.world.db r.id ++ rows := hevents
      have hnext : r'.captureCursor = r.captureCursor + rows.length := hnext
      have hlog := (logged h.reachable r hr hlive').retainedEvents
      have hlog' := (logged (step h.reachable hcall) r' hr' hlive).retainedEvents
      rw [hgrown, filterMap_append, ← hlog, hid, hid'.symm.trans hid] at hlog'
      refine ⟨?_, by dsimp only; omega⟩
      dsimp only
      rw [hread, hlog', upTo_append]
      intro e he
      obtain ⟨row, hrow, hevent⟩ := mem_filterMap.mp he
      rw [retainedEvent_sequence hevent]
      exact hcursor.trans_lt (hlater row hrow)
    · have hnew : id ∉ s.world.issued := hid ▸ hcall.1 _ (offer_seed hoffer).2
      have hinit := h.fresh hnew
      have hview := viewOf_accepted (issued h.reachable) hcall hoffer haccept
      have hnone : retainedEvents s'.world.db id = [] := by
        have hevents : eventsOf s'.world.db (acceptedRow c o.seed o.submission).id = [] :=
          congrArg JobView.events hview
        rw [retainedEvents, ← hid, hevents]
        rfl
      rw [hnone, hinit]
      exact ⟨rfl, Nat.zero_le _⟩
  · have := h.fresh fun hid => hnew (issued_mono hcall id hid)
    rw [hs', this]
    rfl

lemma CaughtUp.page {result : Except JournalError JobEventPage}
    (hstep : (reading c id).step s (.page result) s') :
    CaughtUp c id s' ∧ s.cursor ≤ s'.cursor := by
  obtain ⟨hresult, rfl⟩ := hstep
  cases result with
  | error e => exact ⟨h, le_rfl⟩
  | ok p =>
  -- a request is answered only while the job's record can be read
  obtain ⟨-, job, hget, -⟩ := jobEvents_eq_ok.mp hresult
  obtain ⟨r, hr, hid, st, -, hstate, -, -⟩ := getOn_eq_ok.mp hget
  have hlive : r.state ≠ .deleted := by simp [hstate]
  obtain ⟨p', hp', hextends⟩ := h.answered hr hid hlive
  obtain rfl : p = p' := Except.ok.inj (hresult.symm.trans hp')
  refine ⟨⟨h.reachable, fun r' hr' hid' _ => ?_, fun hnew => ?_⟩, hextends.le⟩
  · obtain rfl := row_unique hr' hr (hid'.trans hid.symm)
    refine ⟨?_, hextends.le_last⟩
    change s.received ++ p.events = upTo JobEvent.sequence p.nextCursor _
    rw [(h.read r' hr hid hlive).1]
    exact hextends.read
  · exact absurd (hid ▸ (issued h.reachable).jobs r hr) hnew

lemma CaughtUp.step {t : Turn}
    (hstep : (reading c id).step s t s') : CaughtUp c id s' ∧ s.cursor ≤ s'.cursor := by
  cases t with
  | call e =>
    refine ⟨h.call hstep, ?_⟩
    rw [hstep.2]
  | page result => exact h.page hstep

end

lemma caughtUp_init (hw : Reachable c w) : CaughtUp c id (.init w) := by
  refine ⟨hw, fun r hr hid hlive => ⟨?_, Nat.zero_le _⟩, fun _ => rfl⟩
  rw [← hid, upTo_eq_nil]
  · rfl
  · exact fun e he => ((logged hw r hr hlive).sequence_mem e he).1

variable {trace : List Turn}

lemma caughtUp_of_run (hw : Reachable c w)
    (h : (reading c id).Run (.init w) trace s) : CaughtUp c id s :=
  h.invariant (caughtUp_init hw) fun _ _ _ hs hstep => (hs.step hstep).1

lemma cursor_mono (hs : CaughtUp c id s)
    (h : (reading c id).Run s trace s') : s.cursor ≤ s'.cursor :=
  h.relates (R := fun s s' => s.cursor ≤ s'.cursor) hs (fun _ _ _ hs hstep => (hs.step hstep).1)
    (fun _ => le_rfl) (fun _ _ _ => le_trans) fun _ _ _ hs hstep => (hs.step hstep).2

/-- At every moment the client has received exactly the retained events up to its cursor, in
order and each once; its next request is answered, and when no more is announced the client is
at the capture cursor and has everything that is retained. -/
theorem reader_receives_retained_events (c : Codec) (id : Uuid) {w : World} (hw : Reachable c w)
    {trace : List Turn} {s : Reader} (hrun : (reading c id).Run (.init w) trace s) :
    (∀ r ∈ s.world.db.jobs.rows, r.id = id → r.state ≠ .deleted →
      s.received = upTo JobEvent.sequence s.cursor (retainedEvents s.world.db id) ∧
      (retainedEvents s.world.db id).map JobEvent.sequence =
        List.range' 1 (retainedEvents s.world.db id).length ∧
      ∃ p, jobEvents s.world.db id s.cursor = .ok p ∧ s.cursor ≤ p.nextCursor ∧
        s.received ++ p.events =
          upTo JobEvent.sequence p.nextCursor (retainedEvents s.world.db id) ∧
        (p.hasMore = false → p.nextCursor = r.captureCursor ∧
          s.received ++ p.events = retainedEvents s.world.db id)) ∧
    ∀ later s', (reading c id).Run s later s' → s.cursor ≤ s'.cursor := by
  have hs := caughtUp_of_run hw hrun
  refine ⟨fun r hr hid hlive => ?_, fun later s' => cursor_mono hs⟩
  obtain ⟨hread, hcursor⟩ := hs.read r hr hid hlive
  obtain ⟨p, hp, hextends⟩ := hs.answered hr hid hlive
  have hlog := logged hs.reachable r hr hlive
  have hpages := hextends.read
  rw [← hread] at hpages
  refine ⟨hread, hid ▸ hlog.numbered.1, p, hp, hextends.le, hpages, fun hmore => ?_⟩
  refine ⟨hextends.finished hmore, ?_⟩
  rw [hpages, hextends.finished hmore]
  apply upTo_eq_self
  rw [← hid]
  exact fun e he => (hlog.sequence_mem e he).2

def objectEvent (sequence : ℕ) : JobEvent := ⟨sequence, "stdout", asBytes "\x7b\x7d"⟩

def firstOutput : List Call := [
  .tx (.acceptJob ⟨.ofSeconds 0, .ofNat 1, .ofNat 2⟩ ⟨"build", "\x7b\x7d", .ofSeconds 100, .ofSeconds 200⟩),
  .tx (.appendJobEvents (.ofNat 1) [objectEvent 1] false)]

/-- The batch that arrives between two pages; its first event is a replay. -/
def laterOutput : Call :=
  .tx (.appendJobEvents (.ofNat 1) [objectEvent 1, objectEvent 2, objectEvent 3] false)

def firstOutputWorld : World := (World.init.calls .emptyObject firstOutput).2

def firstPage : Reader :=
  (Reader.init firstOutputWorld).after (jobEvents firstOutputWorld.db (.ofNat 1) 0)

def laterOutputReader : Reader :=
  { firstPage with world := (firstPage.world.call .emptyObject laterOutput).2 }

theorem reader_receives_later_batch : laterOutputReader.received = [objectEvent 1] ∧
    ∃ p, jobEvents laterOutputReader.world.db (.ofNat 1) laterOutputReader.cursor = .ok p ∧
      laterOutputReader.received ++ p.events =
        retainedEvents laterOutputReader.world.db (.ofNat 1) ∧
      retainedEvents laterOutputReader.world.db (.ofNat 1) =
        [objectEvent 1, objectEvent 2, objectEvent 3] := by
  have hw : Reachable .emptyObject firstOutputWorld :=
    ⟨_, World.calls_run .emptyObject .init firstOutput (by decide)⟩
  have hpage : (reading .emptyObject (.ofNat 1)).step (.init firstOutputWorld)
      (.page (jobEvents firstOutputWorld.db (.ofNat 1) 0)) firstPage := ⟨rfl, rfl⟩
  have hcall : (reading .emptyObject (.ofNat 1)).step firstPage
      (.call (firstPage.world.call .emptyObject laterOutput).1) laterOutputReader :=
    ⟨⟨by simp [World.call, laterOutput, Call.draws, Tx.draws], rfl, rfl⟩, rfl⟩
  have hrun := Machine.Run.cons hpage (.cons hcall (.nil _))
  have hrow : ∃ r ∈ laterOutputReader.world.db.jobs.rows, r.id = .ofNat 1 ∧ r.state ≠ .deleted := by
    decide +kernel
  obtain ⟨r, hr, hid, hlive⟩ := hrow
  obtain ⟨-, -, p, hp, -, -, hfinished⟩ :=
    (reader_receives_retained_events .emptyObject (.ofNat 1) hw hrun).1 r hr hid hlive
  have hmore : (jobEvents laterOutputReader.world.db (.ofNat 1)
      laterOutputReader.cursor).toOption.map JobEventPage.hasMore = some false := by
    decide +kernel
  rw [hp] at hmore
  exact ⟨by decide +kernel, p, hp, (hfinished (Option.some.inj hmore)).2, by decide +kernel⟩

end

variable {c : Codec} {w w' : World} {id : Uuid}

lemma Reachable.accounted (hw : Reachable c w) :
    ∀ r ∈ w.db.jobs.rows, r.state ≠ .deleted → Accounted (viewOf w.db r) :=
  view_invariant (I := fun v => v.row.state ≠ .deleted → Accounted v)
    (fun _ _ _ _ => ⟨rfl, Nat.zero_le _, by simp⟩) (fun _ _ _ hv h => h.accounted hv) hw

variable {trace : List Event} {r : JobRow} {events : List JobEvent} {guestTruncated : Bool}

lemma run_lasts (hw : Reachable c w) (hrun : (store c).Run w trace w')
    {r' : JobRow} (hr : r ∈ w.db.jobs.rows) (hr' : r' ∈ w'.db.jobs.rows) (hid : r'.id = r.id) :
    Lasts (viewOf w.db r) (viewOf w'.db r') :=
  run_tracks (I := fun _ => True) Lasts.refl (fun _ _ _ => Lasts.trans) (fun _ _ _ => trivial)
    (fun _ _ _ _ _ => trivial) (fun _ _ _ _ h => h.lasts) hw hrun hr hr' hid

/-- The batch an event appends to a job, and whether the guest reported truncation with it. -/
def batch (id : Uuid) (e : Event) : Option (List JobEvent × Bool) :=
  match e.call, e.outcome with
  | .tx (.appendJobEvents i events guestTruncated), .ok _ =>
    if i = id then some (events, guestTruncated) else none
  | _, _ => none

def Delivered (id : Uuid) (trace : List Event) (x : JobEvent) : Prop :=
  ∃ e ∈ trace, ∃ p, batch id e = some p ∧ x ∈ p.1

variable {e : Event}

lemma step_batch (h : (store c).step w e w') (hbatch : batch id e = some (events, guestTruncated)) :
    appendJobEvents c w.db id events guestTruncated = .ok w'.db := by
  unfold batch at hbatch
  split at hbatch
  case h_1 i es truncated reply hcall hout =>
    split_ifs at hbatch with hid
    obtain ⟨rfl, rfl⟩ : es = events ∧ truncated = guestTruncated := by simpa using hbatch
    rw [← hid]
    exact (noReply_eq_ok.mp (step_body h hcall hout)).1
  case h_2 => cases hbatch

lemma batch_lasts (hrun : (store c).Run .init trace w) (hr : r ∈ w.db.jobs.rows)
    (hlive : r.state ≠ .deleted) (he : e ∈ trace)
    (hbatch : batch r.id e = some (events, guestTruncated)) :
    (∀ x ∈ events, x.Valid ∧ ∃ row ∈ eventsOf w.db r.id, Records c row x) ∧
      (guestTruncated = true → r.outputTruncated = true) := by
  obtain ⟨before, after, rfl⟩ := append_of_mem he
  obtain ⟨w₁, hbefore, hrest⟩ := hrun.split
  cases hrest with
  | @cons _ w₂ _ _ _ hstep hafter =>
  obtain ⟨⟨_, -, -, s, -, haccepted⟩, r₂, hr₂, hid, htruncated⟩ :=
    appendJobEvents_accepted (step_batch hstep hbatch)
  have hlasts := run_lasts ⟨_, hbefore.snoc hstep⟩ hafter hr₂ hr hid.symm
  have hevents : eventsOf w₂.db r₂.id <+: eventsOf w.db r.id := hlasts.events hlive
  rw [hid] at hevents
  refine ⟨fun x hx => ⟨haccepted.valid x hx, ?_⟩, fun htrue => ?_⟩
  · obtain ⟨row, hrow, hrecords⟩ := haccepted.stored x hx
    exact ⟨row, hevents.subset hrow, hrecords⟩
  · exact hlasts.truncated hlive (htruncated htrue)

/-- A batch that holds an invalid event, one after a gap, or one that differs from what was
delivered under its number. -/
def Faulty (c : Codec) (cursor : ℕ) (delivered : JobEvent → Prop) (events : List JobEvent) : Prop :=
  ∃ front e rest, events = front ++ e :: rest ∧
    (¬e.Valid ∨ (cursor + 1 < e.sequence ∧ ∀ x ∈ front, x.sequence + 1 ≠ e.sequence) ∨
      ∃ x, (delivered x ∨ x ∈ front) ∧ x.sequence = e.sequence ∧ x ≠ e ∧
        (c.sha256 x.data = c.sha256 e.data → x.data = e.data))

lemma accepted_not_faulty (hrun : (store c).Run .init trace w) (hr : r ∈ w.db.jobs.rows) {db' : Db}
    (h : appendJobEvents c w.db r.id events guestTruncated = .ok db') :
    ¬Faulty c r.captureCursor (Delivered r.id trace) events := by
  rintro ⟨front, e, rest, hevents, hfaulty⟩
  obtain ⟨⟨r₀, hr₀, hid₀, s, hcursor, haccepted⟩, -⟩ := appendJobEvents_accepted h
  obtain rfl := row_unique hr₀ hr hid₀
  have he : e ∈ events := by simp [hevents]
  rcases hfaulty with hinvalid | ⟨hgap, hfront⟩ | ⟨x, hx, hsequence, hne, hcollision⟩
  · exact hinvalid (haccepted.valid e he)
  · rw [← hcursor] at hgap
    obtain ⟨x, hx, hnext⟩ := haccepted.gapless front e rest hevents hgap
    exact hfront x hx hnext
  -- both events are stored under one number, so the table has one row for them
  obtain ⟨row, hrow, hrecords⟩ : ∃ row ∈ eventsOf db' r₀.id, Records c row x := by
    rcases hx with ⟨d, hd, ⟨es, truncated⟩, hbatch, hx⟩ | hx
    · obtain ⟨t, hlive, row, hrow, hrecords⟩ : ∃ t, r₀.state = .live t ∧
          ∃ row ∈ eventsOf w.db r₀.id, Records c row x := by
        simp only [appendJobEvents, eq_ok] at h
        obtain ⟨-, -, job, hjob, -⟩ := h
        obtain ⟨r₁, hr₁, hid₁, t, -, hstate, -⟩ := getOn_eq_ok.mp hjob
        obtain rfl := row_unique hr₁ hr₀ hid₁
        exact ⟨t, hstate, (((batch_lasts hrun hr₁ (by simp [hstate]) hd hbatch).1 x hx).2)⟩
      simp only [appendJobEvents, eq_ok] at h
      obtain ⟨-, -, job, -, -, -, ⟨s', db₁⟩, hloop, hupdate⟩ := h
      have hgrows := appendEvents_grows hloop hrow
      rw [(updateJob_eq_ok hupdate).1]
      exact ⟨row, hgrows, hrecords⟩
    · exact haccepted.stored x (by simp [hevents, hx])
  obtain ⟨row', hrow', hrecords'⟩ := haccepted.stored e he
  have hsame : some row = some row' := by
    rw [← find?_records hrow hrecords, ← find?_records hrow' hrecords', hsequence]
  obtain rfl := Option.some.inj hsame
  have hstream : x.stream = e.stream := hrecords.stream.symm.trans hrecords'.stream
  have hdigest : hexEncode (c.sha256 x.data) = hexEncode (c.sha256 e.data) :=
    hrecords.digest.symm.trans hrecords'.digest
  have hdata := hcollision (hexEncode_injective hdigest)
  apply hne
  cases x
  cases e
  simp_all

lemma appendJobEvents_replayed (hrun : (store c).Run .init trace w) (hr : r ∈ w.db.jobs.rows)
    (hlive : r.state ≠ .deleted) (hpending : r.collection = .pending)
    (hlength : events.length ≤ eventPageSize)
    (hdelivered : ∀ e ∈ events, Delivered r.id trace e) (guestTruncated : Bool) :
    ∃ db', appendJobEvents c w.db r.id events guestTruncated = .ok db' ∧
      db' = { w.db with jobs := db'.jobs } ∧
      db'.jobs.rows = w.db.jobs.rows.map fun x =>
        if x.id = r.id then { x with outputTruncated := r.outputTruncated || guestTruncated } else x := by
  have hw : Reachable c w := ⟨trace, hrun⟩
  obtain ⟨spec, hspec, -, -⟩ := (recorded hw r hr).live hlive
  obtain ⟨t, hstate⟩ : ∃ t, r.state = .live t := by
    cases hstate : r.state with
    | live t => exact ⟨t, rfl⟩
    | deleted => exact absurd hstate hlive
  have hjob : getOn w.db r.id = .ok (recordOf r t spec) :=
    getOn_eq_ok.mpr ⟨r, hr, rfl, t, spec, hstate, hspec, rfl⟩
  have hloop : events.foldlM (appendEvent c r.id)
      (captureStart w.db (recordOf r t spec) guestTruncated, w.db) =
      .ok (captureStart w.db (recordOf r t spec) guestTruncated, w.db) := by
    apply appendEvents_replayed
    intro e he
    obtain ⟨d, hd, ⟨es, truncated⟩, hbatch, hmem⟩ := hdelivered e he
    obtain ⟨hvalid, row, hrow, hrecords⟩ := (batch_lasts hrun hr hlive hd hbatch).1 e hmem
    refine ⟨hvalid, ?_, row, hrow, hrecords⟩
    have hsequence : row.sequence ∈ (eventsOf w.db r.id).map EventRow.sequence :=
      mem_map_of_mem hrow
    have hrange : (eventsOf w.db r.id).map EventRow.sequence = List.range' 1 r.captureCursor :=
      (logged hw r hr hlive).sequences
    rw [hrange, mem_range'_1, hrecords.sequence] at hsequence
    change e.sequence ≤ r.captureCursor
    omega
  have hcollection : (recordOf r t spec).collection = .pending := hpending
  have hcursor : (captureStart w.db (recordOf r t spec) guestTruncated).cursor = r.captureCursor := rfl
  obtain ⟨db', hupdate, hframe, hrows⟩ := updateJob_truncated hr hcursor rfl
  refine ⟨db', ?_, hframe, hrows⟩
  rw [appendJobEvents, ensure_of_true _ hlength, ok_bind, hjob, ok_bind,
    ensure_of_true _ hcollection, ok_bind, hloop, ok_bind]
  exact hupdate

/-- At every moment a job's event rows are numbered without a gap and the first of them are
retained and counted, whatever was dropped or reported is marked, delivered events can be repeated,
and a faulty batch changes nothing. -/
theorem captured_output_is_retained (c : Codec) {trace : List Event}
    (hrun : (store c).Run .init trace w) {r : JobRow} (hr : r ∈ w.db.jobs.rows)
    (hlive : r.state ≠ .deleted) :
    (eventsOf w.db r.id).map EventRow.sequence = List.range' 1 r.captureCursor ∧
      (∃ kept dropped, eventsOf w.db r.id = kept ++ dropped ∧
        (∀ e ∈ kept, e.data.isSome = true) ∧ ∀ e ∈ dropped, e.data = none) ∧
      r.retainedBytes = retainedLength (eventsOf w.db r.id) ∧ r.retainedBytes ≤ 4 * 1024 * 1024 ∧
      ((∃ e ∈ eventsOf w.db r.id, e.data = none) ∨
        (∃ e ∈ trace, ∃ events, batch r.id e = some (events, true)) → r.outputTruncated = true) ∧
      (∀ events guestTruncated, r.collection = .pending → events.length ≤ eventPageSize →
        (∀ e ∈ events, Delivered r.id trace e) →
        ∃ db', appendJobEvents c w.db r.id events guestTruncated = .ok db' ∧
          db' = { w.db with jobs := db'.jobs } ∧
          db'.jobs.rows = w.db.jobs.rows.map fun x => if x.id = r.id then
            { x with outputTruncated := r.outputTruncated || guestTruncated } else x) ∧
      ∀ events guestTruncated fault, Faulty c r.captureCursor (Delivered r.id trace) events →
        ∃ err, perform c fault w.db (.tx (.appendJobEvents r.id events guestTruncated)) =
          (.error err, w.db) := by
  have hw : Reachable c w := ⟨trace, hrun⟩
  have hlogged := logged hw r hr hlive
  have haccounted := accounted hw r hr hlive
  refine ⟨hlogged.sequences, split_kept hlogged.keptFirst, haccounted.bytes, haccounted.bounded,
    ?_, ?_, ?_⟩
  · rintro (hdropped | ⟨e, he, events, hbatch⟩)
    · exact haccounted.truncated hdropped
    · exact (batch_lasts hrun hr hlive he hbatch).2 rfl
  · intro events guestTruncated hpending hlength hdelivered
    exact appendJobEvents_replayed hrun hr hlive hpending hlength hdelivered guestTruncated
  · intro events guestTruncated fault hfaulty
    rcases perform_tx c fault w.db (.appendJobEvents r.id events guestTruncated) with
      ⟨reply, db', hbody, -⟩ | herror
    · exact absurd hfaulty (accepted_not_faulty hrun hr (noReply_eq_ok.mp hbody).1)
    · exact herror

/-- A batch, a replay that goes on and reports truncation, and one with a gap. -/
def truncatedOutput : List Call := [
  .tx (.acceptJob ⟨.ofSeconds 0, .ofNat 1, .ofNat 2⟩ ⟨"build", "\x7b\x7d", .ofSeconds 100, .ofSeconds 200⟩),
  .tx (.appendJobEvents (.ofNat 1) [objectEvent 1] false),
  .tx (.appendJobEvents (.ofNat 1) [objectEvent 1, objectEvent 2] true),
  .tx (.appendJobEvents (.ofNat 1) [objectEvent 3, objectEvent 5] false)]

def truncatedOutputWorld : World := (World.init.calls .emptyObject truncatedOutput).2

theorem truncated_output_is_retained :
    ∃ r ∈ truncatedOutputWorld.db.jobs.rows, r.captureCursor = 2 ∧ r.outputTruncated = true ∧
      r.retainedBytes = retainedLength (eventsOf truncatedOutputWorld.db r.id) ∧
      ∃ db', appendJobEvents .emptyObject truncatedOutputWorld.db r.id [objectEvent 2] false = .ok db' := by
  have hrun := World.calls_run .emptyObject .init truncatedOutput (by decide)
  obtain ⟨r, hr, hid, hcursor, hstate, hpending, htruncated⟩ :
      ∃ r ∈ truncatedOutputWorld.db.jobs.rows, r.id = .ofNat 1 ∧ r.captureCursor = 2 ∧
        r.state ≠ .deleted ∧ r.collection = .pending ∧ r.outputTruncated = true := by
    decide +kernel
  obtain ⟨-, -, hbytes, -, -, hreplay, -⟩ := captured_output_is_retained .emptyObject hrun hr hstate
  obtain ⟨db', hdb', -⟩ := hreplay [objectEvent 2] false hpending (by decide) (by
    intro e he
    obtain rfl := mem_singleton.mp he
    rw [hid]
    exact ⟨_, .tail _ (.tail _ (.head _)),
      ([objectEvent 1, objectEvent 2], true), by decide +kernel, by simp⟩)
  exact ⟨r, hr, hcursor, htruncated, hbytes, db', hdb'⟩

end Husker.System
