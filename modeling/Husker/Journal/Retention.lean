import Husker.Relational.Paging
import Husker.Journal.Effects

/-! # What a batch of output leaves

An accepted batch is checked event by event against what is stored, so each of its events is found
in the table afterwards.  What is retained is counted, and whatever is dropped is reported.
-/
namespace Husker.Journal
open Relational Store List Option Capture Table

/-! ## The captured output of one job

The writer numbers the events it stores without a gap, and after it dropped the data of one it
drops that of all later ones.  So what is retained is the beginning of the output.
-/

open Capture

section
variable {c : Codec} {g : Grant} {v v' : JobView} {s s' : Capture} {rows : List EventRow} {id : Uuid}

/-! ## Batches -/

lemma Capture.cursor_advance (s : Capture) (sequence size : ℕ) :
    (s.advance sequence size).cursor = sequence := by
  unfold advance
  split_ifs <;> rfl

lemma Capture.advance_dropped {sequence size : ℕ} (h : s.keeps size = false) :
    (s.advance sequence size).hostDropped = true := by
  rw [advance, h]
  rfl

lemma Capture.keeps_dropped (h : s.hostDropped = true) (size : ℕ) : s.keeps size = false := by
  rw [keeps, h]
  rfl

lemma Captures.sequences (h : Captures c id s rows s') :
    rows.map EventRow.sequence = List.range' (s.cursor + 1) rows.length ∧
      s'.cursor = s.cursor + rows.length := by
  induction h with
  | nil s => exact ⟨rfl, rfl⟩
  | cons e hseq _ ih =>
    rw [cursor_advance, hseq] at ih
    rw [map_cons, length_cons, range'_succ, ih.1, ih.2]
    exact ⟨congrArg (· :: _) hseq, by omega⟩

lemma Captures.dropped (h : Captures c id s rows s') (hdropped : s.hostDropped = true) :
    ∀ e ∈ rows, e.data = none := by
  induction h with
  | nil s => simp
  | cons e hseq _ ih =>
  have hkeeps := keeps_dropped hdropped e.data.length
  rw [forall_mem_cons]
  refine ⟨?_, ih (advance_dropped hkeeps)⟩
  rw [row, hkeeps]
  rfl

def KeptFirst (events : List EventRow) : Prop :=
  events.Pairwise fun a b => a.data = none → b.data = none

lemma Captures.keptFirst (h : Captures c id s rows s') : KeptFirst rows := by
  induction h with
  | nil s => exact .nil
  | @cons s s' rows e hseq hrest ih =>
  refine pairwise_cons.mpr ⟨fun b hb hnone => ?_, ih⟩
  apply hrest.dropped (advance_dropped ?_) b hb
  by_contra hkeeps
  simp [row, hkeeps] at hnone

/-! ## The whole log -/

structure Logged (v : JobView) : Prop where
  sequences : v.events.map EventRow.sequence = List.range' 1 v.row.captureCursor
  keptFirst : KeptFirst v.events

lemma Logged.capture (h : Logged v) (hcursor : s.cursor = v.row.captureCursor)
    (hdropped : s.hostDropped = v.events.any fun e => e.data.isNone)
    (hrows : Captures c id s rows s') :
    Logged ⟨capturedRow s' v.row, v.events ++ rows, v.artifacts⟩ := by
  obtain ⟨hnext, hend⟩ := hrows.sequences
  constructor
  · change _ = List.range' 1 s'.cursor
    rw [map_append, h.sequences, hnext, hend, hcursor, Nat.add_comm _ 1, range'_append_1]
  · refine pairwise_append.mpr ⟨h.keptFirst, hrows.keptFirst, fun a ha b hb hnone => ?_⟩
    apply hrows.dropped _ b hb
    rw [hdropped, List.any_eq_true]
    exact ⟨a, ha, by rw [hnone]; rfl⟩

lemma Change.grows (h : Change c g v v') (hlive : v'.row.state ≠ .deleted) :
    ∃ rows, v'.events = v.events ++ rows ∧
      v'.row.captureCursor = v.row.captureCursor + rows.length ∧
      ∀ e ∈ rows, v.row.captureCursor < e.sequence := by
  cases h with
  | capture r es rows as s s' _ _ hcursor _ _ _ hrows =>
    obtain ⟨hnext, hend⟩ := hrows.sequences
    refine ⟨rows, rfl, by rw [← hcursor]; exact hend, fun e he => ?_⟩
    have hmem : e.sequence ∈ List.range' (s.cursor + 1) rows.length :=
      hnext ▸ List.mem_map_of_mem he
    rw [mem_range'_1, hcursor] at hmem
    exact hmem.1
  | erase => exact absurd rfl hlive
  | _ => exact ⟨[], by simp [reservedRow, boundRow, runningRow, stagedRow, publishedRow,
      destroyedRow, abortedRow, confirmedRow]⟩

lemma Change.logged (hv : v.row.state ≠ .deleted → Logged v) (h : Change c g v v')
    (hlive : v'.row.state ≠ .deleted) : Logged v' := by
  have hlog := hv fun hdeleted => hlive (h.deleted hdeleted)
  cases h with
  | capture r es rows as s s' _ _ hcursor _ _ hdropped hrows =>
    exact hlog.capture hcursor hdropped hrows
  | erase => exact absurd rfl hlive
  | _ => exact ⟨hlog.sequences, hlog.keptFirst⟩

/-! ## What is retained -/

lemma split_kept {events : List EventRow} (h : KeptFirst events) :
    ∃ kept dropped, events = kept ++ dropped ∧ (∀ e ∈ kept, e.data.isSome = true) ∧
      ∀ e ∈ dropped, e.data = none := by
  induction events with
  | nil => exact ⟨[], [], rfl, by simp, by simp⟩
  | cons e events ih =>
  obtain ⟨hfirst, hrest⟩ := pairwise_cons.mp h
  cases hdata : e.data with
  | none =>
    refine ⟨[], e :: events, rfl, by simp, ?_⟩
    rw [forall_mem_cons]
    exact ⟨hdata, fun b hb => hfirst b hb hdata⟩
  | some data =>
  obtain ⟨kept, dropped, rfl, hkept, hdropped⟩ := ih hrest
  refine ⟨e :: kept, dropped, rfl, ?_, hdropped⟩
  rw [forall_mem_cons]
  exact ⟨by rw [hdata]; rfl, hkept⟩

lemma retainedEvent_sequence {r : EventRow} {e : JobEvent} (h : retainedEvent r = some e) :
    e.sequence = r.sequence := by
  obtain ⟨data, -, rfl⟩ := map_eq_some_iff.mp h
  rfl

lemma filterMap_kept {kept : List EventRow} (h : ∀ e ∈ kept, e.data.isSome = true) :
    (kept.filterMap retainedEvent).map JobEvent.sequence = kept.map EventRow.sequence := by
  induction kept with
  | nil => rfl
  | cons e kept ih =>
  rw [forall_mem_cons] at h
  obtain ⟨data, hdata⟩ := isSome_iff_exists.mp h.1
  have hevent : retainedEvent e = some ⟨e.sequence, e.stream, data⟩ := by
    rw [retainedEvent, hdata]
    rfl
  rw [filterMap_cons_some hevent, map_cons, map_cons, ih h.2]

lemma filterMap_dropped {dropped : List EventRow} (h : ∀ e ∈ dropped, e.data = none) :
    dropped.filterMap retainedEvent = [] := by
  apply filterMap_eq_nil_iff.mpr
  intro e he
  rw [retainedEvent, h e he]
  rfl

lemma Logged.retained (h : Logged v) : ∃ n, n ≤ v.row.captureCursor ∧
      (v.events.filterMap retainedEvent).map JobEvent.sequence = List.range' 1 n := by
  obtain ⟨kept, dropped, hsplit, hkept, hdropped⟩ := split_kept h.keptFirst
  have hseq := h.sequences
  rw [hsplit, map_append] at hseq
  obtain ⟨n, hn, hfront, -⟩ := range'_eq_append_iff.mp hseq.symm
  refine ⟨n, hn, ?_⟩
  rw [hsplit, filterMap_append, filterMap_dropped hdropped, append_nil,
    filterMap_kept hkept, hfront]

variable {log : List JobEvent}

lemma ordered_of_sequences {n : ℕ}
    (h : log.map JobEvent.sequence = List.range' 1 n) : Ordered JobEvent.sequence log := by
  apply pairwise_map.mp
  rw [h]
  exact pairwise_lt_range'

variable {db : Db} {r : JobRow}

section
variable (h : Logged (viewOf db r))
include h

lemma Logged.retainedEvents :
    retainedEvents db r.id = (eventsOf db r.id).filterMap retainedEvent := by
  obtain ⟨n, -, hseq⟩ := h.retained
  apply List.Pairwise.insertionSort_eq
  exact (ordered_of_sequences hseq).imp fun hlt => hlt.le

lemma Logged.numbered : (Journal.retainedEvents db r.id).map JobEvent.sequence =
        List.range' 1 (Journal.retainedEvents db r.id).length ∧
      (Journal.retainedEvents db r.id).length ≤ r.captureCursor := by
  obtain ⟨n, hn, hseq⟩ := h.retained
  change ((eventsOf db r.id).filterMap retainedEvent).map JobEvent.sequence = _ at hseq
  rw [← h.retainedEvents] at hseq
  have hlength := congrArg List.length hseq
  rw [length_map, length_range'] at hlength
  rw [hlength]
  exact ⟨hseq, hn⟩

lemma Logged.ordered : Ordered JobEvent.sequence (Journal.retainedEvents db r.id) :=
  ordered_of_sequences h.numbered.1

lemma Logged.sequence_mem :
    ∀ e ∈ Journal.retainedEvents db r.id, 1 ≤ e.sequence ∧ e.sequence ≤ r.captureCursor := by
  intro e he
  obtain ⟨hseq, hlength⟩ := h.numbered
  have hmem := List.mem_map_of_mem (f := JobEvent.sequence) he
  rw [hseq, mem_range'_1] at hmem
  omega

lemma Logged.cursor_le : r.captureCursor ≤ maxEvents := by
  by_contra hlt
  have hseq : (eventsOf db r.id).map EventRow.sequence = List.range' 1 r.captureCursor := h.sequences
  have hlast : r.captureCursor ∈ List.range' 1 r.captureCursor := by
    rw [mem_range'_1]
    omega
  rw [← hseq] at hlast
  obtain ⟨e, he, heq⟩ := List.mem_map.mp hlast
  -- the schema bounds the sequence of every stored event
  have hcheck := db.events.checked e (mem_of_mem_filter he)
  simp only [eventSchema, Bool.and_eq_true, decide_eq_true_eq] at hcheck
  simp only [maxEvents] at hlt
  omega

end

/-! ## Pages -/

def pageOf (job : JobRecord) (log : List JobEvent) (after : ℕ) : JobEventPage :=
  let rest := beyond JobEvent.sequence after log
  let hasMore : Bool := eventPageSize < rest.length
  let events := rest.take eventPageSize
  ⟨job, events, if hasMore then (events.getLast?.map JobEvent.sequence).getD after
    else max after job.captureCursor, hasMore⟩

variable {after : ℕ}

lemma jobEvents_eq_ok {p : JobEventPage} : jobEvents db id after = .ok p ↔
      after ≤ maxEvents ∧ ∃ job, getOn db id = .ok job ∧ p = pageOf job (retainedEvents db id) after := by
  -- one row more than a page holds tells whether anything is left
  have hevents (rest : List JobEvent) : (rest.take (eventPageSize + 1)).take eventPageSize =
      rest.take eventPageSize := by
    rw [take_take, min_eq_left (Nat.le_succ _)]
  have hmore (rest : List JobEvent) : (eventPageSize < (rest.take (eventPageSize + 1)).length) =
      (eventPageSize < rest.length) := by
    rw [length_take]
    exact propext (by omega)
  simp only [jobEvents, eq_ok, hevents, hmore]
  constructor
  · rintro ⟨-, hafter, job, hjob, rfl⟩
    exact ⟨hafter, job, hjob, rfl⟩
  · rintro ⟨hafter, job, hjob, rfl⟩
    exact ⟨(), hafter, job, hjob, rfl⟩

structure Extends (log : List JobEvent) (after last : ℕ) (p : JobEventPage) : Prop where
  le : after ≤ p.nextCursor
  le_last : p.nextCursor ≤ last
  read : upTo JobEvent.sequence after log ++ p.events = upTo JobEvent.sequence p.nextCursor log
  finished : p.hasMore = false → p.nextCursor = last

lemma pageOf_extends (job : JobRecord) (hlog : Ordered JobEvent.sequence log) (hlast : ∀ e ∈ log, e.sequence ≤ job.captureCursor)
    (hafter : after ≤ job.captureCursor) :
    Extends log after job.captureCursor (pageOf job log after) := by
  by_cases hmore : eventPageSize < (beyond JobEvent.sequence after log).length
  · -- a full page: its last event is the new cursor
    have hne : (beyond JobEvent.sequence after log).take eventPageSize ≠ [] := by
      rw [← length_pos_iff, length_take]
      simp only [eventPageSize] at hmore ⊢
      omega
    have he := getLast?_eq_some_getLast hne
    generalize ((beyond JobEvent.sequence after log).take eventPageSize).getLast hne = e at he
    have hmem : e ∈ beyond JobEvent.sequence after log := mem_of_mem_take (mem_of_getLast? he)
    obtain ⟨hin, hbeyond⟩ := mem_filter.mp hmem
    have hcursor : (pageOf job log after).nextCursor = e.sequence := by
      simp [pageOf, hmore, he]
    refine ⟨?_, ?_, ?_, by simp [pageOf, hmore]⟩
    · rw [hcursor]
      exact (of_decide_eq_true hbeyond).le
    · rw [hcursor]
      exact hlast e hin
    · rw [hcursor]
      exact upTo_page hlog ( take_prefix _ _) he
  · -- the last page: everything up to the capture cursor was read
    have hcursor : (pageOf job log after).nextCursor = job.captureCursor := by
      simp [pageOf, hmore, hafter]
    have hevents : (pageOf job log after).events = beyond JobEvent.sequence after log :=
      take_of_length_le (not_lt.mp hmore)
    refine ⟨by rwa [hcursor], hcursor.le, ?_, fun _ => hcursor⟩
    rw [hcursor, hevents, upTo_append_beyond hlog, upTo_eq_self hlast]

end

variable {c : Codec} {g : Grant} {db db' : Db} {v v' : JobView} {s s' : Capture}
  {rows : List EventRow} {id : Uuid} {es : List JobEvent}

/-! ## Accounts -/

def retainedLength (events : List EventRow) : ℕ :=
  ((events.filterMap EventRow.data).map List.length).sum

lemma retainedLength_append (events rows : List EventRow) :
    retainedLength (events ++ rows) = retainedLength events + retainedLength rows := by
  simp [retainedLength]

structure Accounted (v : JobView) : Prop where
  bytes : v.row.retainedBytes = retainedLength v.events
  bounded : v.row.retainedBytes ≤ maxOutputBytes
  truncated : (∃ e ∈ v.events, e.data = none) → v.row.outputTruncated = true

structure Adds (s : Capture) (rows : List EventRow) (s' : Capture) : Prop where
  bytes : s'.bytes = s.bytes + retainedLength rows
  bounded : s.bytes ≤ maxOutputBytes → s'.bytes ≤ maxOutputBytes
  sticky : s.truncated = true → s'.truncated = true
  dropped : (∃ e ∈ rows, e.data = none) → s'.truncated = true

variable {e : JobEvent}

lemma Adds.cons (h : Adds (s.advance e.sequence e.data.length) rows s') :
    Adds s (s.row c id e :: rows) s' := by
  have hadvance := h.bytes
  have hbounded := h.bounded
  have hsticky := h.sticky
  cases hkeeps : s.keeps e.data.length with
  | true =>
    have hfits : s.bytes + e.data.length ≤ maxOutputBytes := by
      rw [keeps, Bool.and_eq_true, decide_eq_true_eq] at hkeeps
      exact hkeeps.2
    simp only [advance, hkeeps, if_true] at hadvance hbounded hsticky
    have hrow : (s.row c id e).data = some e.data := by simp [row, hkeeps]
    refine ⟨?_, fun _ => hbounded hfits, hsticky, ?_⟩
    · rw [hadvance, ← singleton_append, retainedLength_append]
      simp [retainedLength, hrow, Nat.add_assoc]
    · rintro ⟨x, hx, hnone⟩
      rcases mem_cons.mp hx with rfl | hx
      · cases hrow.symm.trans hnone
      · exact h.dropped ⟨x, hx, hnone⟩
  | false =>
  simp only [advance, hkeeps, Bool.false_eq_true, if_false] at hadvance hbounded hsticky
  have hrow : (s.row c id e).data = none := by simp [row, hkeeps]
  refine ⟨?_, hbounded, fun _ => hsticky trivial, fun _ => hsticky trivial⟩
  rw [hadvance, ← singleton_append, retainedLength_append]
  simp [retainedLength, hrow]

lemma Captures.adds (h : Captures c id s rows s') : Adds s rows s' := by
  induction h with
  | nil s => exact ⟨by simp [retainedLength], fun h => h, fun h => h, by simp⟩
  | cons e _ _ ih => exact ih.cons

lemma Change.accounted (hv : v.row.state ≠ .deleted → Accounted v) (h : Change c g v v')
    (hlive : v'.row.state ≠ .deleted) : Accounted v' := by
  have hold := hv fun hdeleted => hlive (h.deleted hdeleted)
  cases h with
  | capture r es rows as s s' _ _ _ hbytes htruncated _ hrows =>
    have hadds := hrows.adds
    refine ⟨?_, hadds.bounded ?_, ?_⟩
    · change s'.bytes = retainedLength (es ++ rows)
      rw [hadds.bytes, hbytes, hold.bytes, retainedLength_append]
    · rw [hbytes]
      exact hold.bounded
    · rintro ⟨e, he, hnone⟩
      rcases mem_append.mp he with he | he
      · exact hadds.sticky (htruncated (hold.truncated ⟨e, he, hnone⟩))
      · exact hadds.dropped ⟨e, he, hnone⟩
  | erase => exact absurd rfl hlive
  | _ => exact ⟨hold.bytes, hold.bounded, hold.truncated⟩

/-- A later view of a job that is still there: more output, and never less truncated. -/
structure Lasts (v v' : JobView) : Prop where
  deleted : v.row.state = .deleted → v'.row.state = .deleted
  events : v'.row.state ≠ .deleted → v.events <+: v'.events
  truncated : v'.row.state ≠ .deleted → v.row.outputTruncated = true → v'.row.outputTruncated = true

lemma Lasts.refl (v : JobView) : Lasts v v := ⟨fun h => h, fun _ => prefix_rfl, fun _ h => h⟩

lemma Lasts.trans {u v w : JobView} (h₁ : Lasts u v) (h₂ : Lasts v w) : Lasts u w := by
  have hmiddle : w.row.state ≠ .deleted → v.row.state ≠ .deleted := mt h₂.deleted
  refine ⟨h₂.deleted ∘ h₁.deleted, fun hw => ?_, fun hw hu => ?_⟩
  · exact (h₁.events (hmiddle hw)).trans (h₂.events hw)
  · exact h₂.truncated hw (h₁.truncated (hmiddle hw) hu)

lemma Change.lasts (h : Change c g v v') : Lasts v v' := by
  refine ⟨h.deleted, fun hlive => ?_, fun hlive htrue => ?_⟩
  · obtain ⟨rows, hrows, -⟩ := h.grows hlive
    rw [hrows]
    exact prefix_append _ _
  · cases h with
    | capture r es rows as s s' _ _ _ _ htruncated _ hrows => exact hrows.adds.sticky (htruncated htrue)
    | erase => exact absurd rfl hlive
    | _ => exact htrue

/-! ## Accepted events -/

def JobEvent.Valid (e : JobEvent) : Prop :=
  e.sequence ≠ 0 ∧ e.sequence ≤ maxEvents ∧ e.data ≠ [] ∧ e.data.length ≤ maxEventBytes ∧
    (e.stream = "stdout" ∨ e.stream = "stderr")

structure Records (c : Codec) (r : EventRow) (e : JobEvent) : Prop where
  sequence : r.sequence = e.sequence
  stream : r.stream = e.stream
  digest : r.digest = hexEncode (c.sha256 e.data)

lemma appendEvent_accepts (h : appendEvent c id (s, db) e = .ok (s', db')) :
    e.Valid ∧ (∃ r ∈ eventsOf db' id, Records c r e) ∧
      (e.sequence ≤ s.cursor ∧ s'.cursor = s.cursor ∨
        e.sequence = s.cursor + 1 ∧ s'.cursor = e.sequence) := by
  simp only [appendEvent, eq_ok] at h
  obtain ⟨-, hvalid, h⟩ := h
  refine ⟨hvalid, ?_⟩
  split at h
  case isTrue hle =>
    simp only [eq_ok] at h
    obtain ⟨-, hold, rfl, rfl⟩ := h
    refine ⟨?_, .inl ⟨hle, rfl⟩⟩
    obtain ⟨r, hfind, hr⟩ := map_eq_some_iff.mp hold
    rw [Prod.mk.injEq] at hr
    have hsequence := find?_some hfind
    exact ⟨r, mem_of_find?_eq_some hfind, of_decide_eq_true hsequence, hr.1, hr.2⟩
  case isFalse =>
    simp only [eq_ok] at h
    obtain ⟨-, hnext, events, hinsert, rfl, rfl⟩ := h
    refine ⟨⟨s.row c id e, ?_, rfl, rfl, rfl⟩, .inr ⟨hnext, cursor_advance _ _ _⟩⟩
    simp only [eventsOf, (insert?_eq_some.mp hinsert).2.2, mem_filter]
    exact ⟨by simp, by simp [row]⟩

lemma appendEvents_grows (h : es.foldlM (appendEvent c id) (s, db) = .ok (s', db')) :
    eventsOf db id ⊆ eventsOf db' id := by
  obtain ⟨rows, -, -, hrows⟩ := appendEvents_eq_ok h
  intro r hr
  simp only [eventsOf, hrows, mem_filter, mem_append] at hr ⊢
  exact ⟨.inl hr.1, hr.2⟩

/-- Every event of an accepted batch is valid, is stored afterwards, and follows the cursor or an
earlier event. -/
structure Accepted (c : Codec) (id : Uuid) (s : Capture) (es : List JobEvent) (db' : Db) : Prop where
  valid : ∀ e ∈ es, e.Valid
  stored : ∀ e ∈ es, ∃ r ∈ eventsOf db' id, Records c r e
  gapless : ∀ front e rest, es = front ++ e :: rest → s.cursor + 1 < e.sequence →
    ∃ x ∈ front, x.sequence + 1 = e.sequence

lemma appendEvents_accepted (h : es.foldlM (appendEvent c id) (s, db) = .ok (s', db')) :
    Accepted c id s es db' := by
  induction es generalizing s db with
  | nil => exact ⟨by simp, by simp, by simp⟩
  | cons e es ih =>
  rw [foldlM_cons, bind_eq_ok] at h
  obtain ⟨⟨s₁, db₁⟩, hone, hrest⟩ := h
  obtain ⟨hvalid, ⟨r, hr, hrecords⟩, hcursor⟩ := appendEvent_accepts hone
  have hlater := ih hrest
  refine ⟨?_, ?_, ?_⟩
  · exact forall_mem_cons.mpr ⟨hvalid, hlater.valid⟩
  · exact forall_mem_cons.mpr ⟨⟨r, appendEvents_grows hrest hr, hrecords⟩, hlater.stored⟩
  -- the cursor moves by at most one, and then to this event
  intro front x rest hsplit hgap
  cases front with
  | nil =>
    rw [nil_append, cons.injEq] at hsplit
    obtain ⟨rfl, -⟩ := hsplit
    omega
  | cons y front =>
  rw [cons_append, cons.injEq] at hsplit
  obtain ⟨rfl, hsplit⟩ := hsplit
  by_cases hfar : s₁.cursor + 1 < x.sequence
  · obtain ⟨z, hz, hnext⟩ := hlater.gapless front x rest hsplit hfar
    exact ⟨z, .tail _ hz, hnext⟩
  · exact ⟨e, .head _, by omega⟩

lemma appendJobEvents_accepted {guestTruncated : Bool}
    (h : appendJobEvents c db id es guestTruncated = .ok db') :
    (∃ r ∈ db.jobs.rows, r.id = id ∧ ∃ s : Capture, s.cursor = r.captureCursor ∧
        Accepted c id s es db') ∧
      ∃ r' ∈ db'.jobs.rows, r'.id = id ∧ (guestTruncated = true → r'.outputTruncated = true) := by
  simp only [appendJobEvents, eq_ok] at h
  obtain ⟨-, -, job, hjob, -, -, ⟨s, db₁⟩, hloop, hupdate⟩ := h
  obtain ⟨r, hr, hid, st, spec, -, -, rfl⟩ := getOn_eq_ok.mp hjob
  obtain ⟨rows, hrows, hdb, -⟩ := appendEvents_eq_ok hloop
  obtain ⟨hdb', hupdate⟩ := updateJob_eq_ok hupdate
  have haccepted := appendEvents_accepted hloop
  have hevents : eventsOf db' id = eventsOf db₁ id := by rw [hdb']; rfl
  refine ⟨⟨r, hr, hid, _, rfl, haccepted.valid, ?_, haccepted.gapless⟩, capturedRow s r, ?_, hid, ?_⟩
  · rw [hevents]
    exact haccepted.stored
  · have hjobs : db₁.jobs = db.jobs := by rw [hdb]
    rw [(update?_eq_some hupdate).1, hjobs, mem_updated]
    exact .inl ⟨r, hr, decide_eq_true hid, rfl⟩
  · intro htrue
    apply hrows.adds.sticky
    simp [captureStart, htrue]

/-! ## Replays -/

lemma find?_records {r : EventRow} (hr : r ∈ eventsOf db id) (h : Records c r e) :
    (eventsOf db id).find? (fun r => r.sequence = e.sequence) = some r := by
  cases hfind : (eventsOf db id).find? fun r => r.sequence = e.sequence with
  | none =>
    have hnone := find?_eq_none.mp hfind r hr
    simp [h.sequence] at hnone
  | some x =>
  have hx := mem_filter.mp (mem_of_find?_eq_some hfind)
  have hr := mem_filter.mp hr
  have hsequence : x.sequence = e.sequence := by simpa using find?_some hfind
  rw [db.events.eq_of_clash hx.1 hr.1]
  simp only [eventSchema, Bool.and_eq_true, decide_eq_true_eq] at hx hr ⊢
  exact ⟨hx.2.trans hr.2.symm, hsequence.trans h.sequence.symm⟩

lemma appendEvents_replayed
    (h : ∀ e ∈ es, e.Valid ∧ e.sequence ≤ s.cursor ∧ ∃ r ∈ eventsOf db id, Records c r e) :
    es.foldlM (appendEvent c id) (s, db) = .ok (s, db) := by
  induction es with
  | nil => rfl
  | cons e es ih =>
  obtain ⟨⟨hvalid, hle, r, hr, hrecords⟩, hrest⟩ := forall_mem_cons.mp h
  have hone : appendEvent c id (s, db) e = .ok (s, db) := by
    have hold : ((eventsOf db id).find? fun r => r.sequence = e.sequence).map
        (fun r => (r.stream, r.digest)) = some (e.stream, hexEncode (c.sha256 e.data)) := by
      rw [find?_records hr hrecords, map_some, hrecords.stream, hrecords.digest]
    unfold JobEvent.Valid at hvalid
    simp only [appendEvent]
    rw [ensure_of_true _ hvalid, ok_bind, if_pos hle, ensure_of_true _ hold]
    rfl
  rw [foldlM_cons, hone, ok_bind, ih hrest]

lemma updateJob_truncated {r : JobRow} (hr : r ∈ db.jobs.rows) (hcursor : s.cursor = r.captureCursor)
    (hbytes : s.bytes = r.retainedBytes) :
    ∃ db', updateJob db [.captureCursor, .retainedBytes, .outputTruncated] r.id (capturedRow s) = .ok db' ∧
      db' = { db with jobs := db'.jobs } ∧
      db'.jobs.rows = db.jobs.rows.map fun x =>
        if x.id = r.id then { x with outputTruncated := s.truncated } else x := by
  have hsame : ∀ x ∈ db.jobs.rows, x.id = r.id →
      capturedRow s x = { x with outputTruncated := s.truncated } := by
    intro x hx hid
    obtain rfl := row_unique hx hr hid
    rw [capturedRow, hcursor, hbytes]
  obtain ⟨jobs, hjobs⟩ : ∃ jobs, db.jobs.update? [.captureCursor, .retainedBytes, .outputTruncated]
      (fun x => x.id = r.id) (capturedRow s) = some jobs := by
    apply update?_isSome
    · exact fun x _ _ => rfl
    · intro x hx hid
      rw [hsame x hx (of_decide_eq_true hid)]
      exact db.jobs.checked x hx
    · intro x _ y _ hclash
      split_ifs at hclash <;> exact hclash
  refine ⟨{ db with jobs }, ?_, rfl, ?_⟩
  · simp only [updateJob, updateJobs, hjobs, orError]
    rfl
  rw [(update?_eq_some hjobs).1, Table.updated]
  apply map_congr_left
  intro x hx
  by_cases hid : x.id = r.id
  · rw [if_pos (decide_eq_true hid), if_pos hid]
    exact hsame x hx hid
  · simp [hid]

end Husker.Journal
