import Husker.Session.Store

/-! # What a step leaves behind -/
namespace Husker.Session
open Relational Option AList

variable {t n : ℕ} {a : Act} {x : Choice} {s s' : Store} {r : a.Resp}

open Store

lemma Store.run_cases (h : run t n a x s = some (r, s')) :
    (x.fails = true ∧ fallible a = some r ∧ s' = s) ∨
      (x.fails = false ∧ s.perform t n x a = some (r, s')) := by
  cases hx : x.fails with
  | false => exact .inr ⟨rfl, by simpa only [run, hx] using h⟩
  | true =>
  refine .inl ⟨rfl, ?_⟩
  cases hf : fallible a with
  | none => simp [run, hx, hf] at h
  | some r' => simpa [run, hx, hf, eq_comm] using h

lemma Store.run_sure (h : run t n a x s = some (r, s')) (ha : fallible a = none) :
    s.perform t n x a = some (r, s') := by
  rcases run_cases h with ⟨-, hfails, -⟩ | ⟨-, h⟩
  · cases ha.symm.trans hfails
  · exact h

def Act.reads : Act → Bool
  | .now | .readRoot | .tryExists .. | .dirExists _ | .logSize _ | .readStatus _ | .readReceipt _
  | .tombstoned _ | .countTombstones | .sync | .readDir _ | .activeLen | .poll | .outcome => true
  | _ => false

lemma Store.run_reads (ha : a.reads) (h : run t n a x s = some (r, s')) : s' = s := by
  rcases run_cases h with ⟨-, -, hs⟩ | ⟨-, h⟩
  · exact hs
  cases a <;> simp only [Act.reads, Bool.false_eq_true] at ha <;> simp only [perform] at h <;> grind

/-- The name of a session whose directory, tombstone or history an action changes. -/
def Act.subject : Act → Option String
  | .createDir id | .createLog id | .createReceipt id | .writeReceipt id _ | .createTemp id
  | .createTombstone id | .unlink id _ | .rmdir id | .append id _ _ | .spawn id | .note id _ =>
    some id
  | .rename info _ _ => some info.id
  | _ => none

/-! ## Directories -/

namespace Store

variable {id y : String} {f : Dir → Dir}

lemma lookup_update_of_ne (h : y ≠ id) : (s.update id f).dirs.lookup y = s.dirs.lookup y := by
  unfold update
  split
  · rfl
  · exact lookup_insert_ne h

lemma lookup_update_self : (s.update id f).dirs.lookup id = (s.dirs.lookup id).map f := by
  unfold update
  split
  · rename_i h
    simp [h]
  · rename_i h
    simp [h]

lemma lookup_update_eq {d : Dir} (h : s.dirs.lookup id = some d) :
    (s.update id f).dirs.lookup id = some (f d) := by
  rw [lookup_update_self, h, map_some]

@[simp] lemma update_rest : (s.update id f).tombstones = s.tombstones ∧
    (s.update id f).history = s.history ∧ (s.update id f).creation = s.creation ∧
    (s.update id f).jobs = s.jobs ∧ (s.update id f).active = s.active ∧
    (s.update id f).nextSequence = s.nextSequence ∧ (s.update id f).doubting = s.doubting := by
  unfold update
  split <;> simp

lemma change_eq {r : Option Unit} (h : s.change id f = (r, s')) :
    (r = none ∧ s' = s) ∨ (r = some () ∧ (s.dirs.lookup id).isSome ∧ s' = s.update id f) := by
  unfold change at h
  split at h <;> cases h
  · exact .inl ⟨rfl, rfl⟩
  · exact .inr ⟨rfl, by simp_all, rfl⟩

lemma publish_eq {info : SessionInfo} {temp : ℕ} {worker : Option ℕ} {r : Option Unit}
    (h : s.publish info temp worker = (r, s')) :
    (r = none ∧ s' = s) ∨ (r = some () ∧ ∃ d, s.dirs.lookup info.id = some d ∧ temp ∈ d.temps ∧
      s' = (s.update info.id fun d =>
        { d with status := some info, temps := d.temps.filter (· ≠ temp) }).settleJob worker) := by
  unfold publish at h
  split at h
  · cases h
    exact .inl ⟨rfl, rfl⟩
  · rename_i d hd
    split at h <;> cases h
    · exact .inr ⟨rfl, d, hd, ‹_›, rfl⟩
    · exact .inl ⟨rfl, rfl⟩

end Store

/-! ## Sessions that are left alone -/

structure Store.Alike (y : String) (s s' : Store) : Prop where
  dir : s'.dirs.lookup y = s.dirs.lookup y
  tombstones : y ∈ s'.tombstones ↔ y ∈ s.tombstones
  history : s'.history y = s.history y

lemma Store.Alike.refl {y : String} : Store.Alike y s s := ⟨rfl, .rfl, rfl⟩

lemma Store.Alike.of_update {id y : String} {f : Dir → Dir} (h : y ≠ id) :
    Store.Alike y s (s.update id f) :=
  ⟨lookup_update_of_ne h, by simp, by simp⟩

lemma Store.Alike.of_change {id y : String} {f : Dir → Dir} {r : Option Unit} (hne : y ≠ id)
    (h : s.change id f = (r, s')) : Store.Alike y s s' := by
  rcases change_eq h with ⟨-, rfl⟩ | ⟨-, -, rfl⟩
  · exact .refl
  · exact .of_update hne

lemma Store.run_elsewhere {y : String} (ha : a.subject ≠ some y)
    (h : run t n a x s = some (r, s')) : Store.Alike y s s' := by
  have hy : ∀ id, a.subject = some id → y ≠ id := fun id hid hy => ha (hy ▸ hid)
  by_cases hreads : a.reads
  · rw [run_reads hreads h]
    exact .refl
  rcases run_cases h with ⟨-, -, rfl⟩ | ⟨-, h⟩
  · exact .refl
  cases a with
  | createReceipt id | writeReceipt id digest | unlink id file =>
    exact .of_change (hy _ rfl) (some.inj h)
  | append id inode bytes =>
    cases h
    exact .of_update (hy _ rfl)
  | createDir id =>
    simp only [perform] at h
    split at h <;> cases h
    · exact .refl
    · exact ⟨lookup_insert_ne (hy _ rfl), .rfl, rfl⟩
  | createLog id | createTemp id =>
    simp only [perform] at h
    split at h <;> cases h
    · exact ⟨rfl, .rfl, rfl⟩
    · exact ⟨lookup_update_of_ne (hy _ rfl), by simp, by simp⟩
  | rename info temp worker =>
    rcases publish_eq (some.inj h) with ⟨-, rfl⟩ | ⟨-, d, -, -, rfl⟩
    · exact .refl
    · exact ⟨lookup_update_of_ne (hy _ rfl), by simp [settleJob], by simp [settleJob]⟩
  | createTombstone id =>
    cases h
    exact ⟨rfl, by simp [hy _ rfl], rfl⟩
  | rmdir id =>
    simp only [perform] at h
    split at h <;> cases h
    · exact ⟨lookup_erase_ne (hy _ rfl), .rfl, rfl⟩
    · exact .refl
  | spawn id | note id fact =>
    cases h
    exact ⟨rfl, .rfl, Function.update_of_ne (hy _ rfl) _ _⟩
  | lock =>
    simp only [perform] at h
    split at h <;> cases h
    exact ⟨rfl, .rfl, rfl⟩
  | unlock | release id sequence | activeContains id | takeCancel id =>
    simp only [perform] at h
    split at h <;> cases h <;> exact ⟨rfl, .rfl, rfl⟩
  | settle | register id | handOver w | retire q | removing id =>
    cases h
    exact ⟨rfl, .rfl, rfl⟩
  | _ => exact absurd rfl hreads

def Act.locks : Act → Bool
  | .lock | .unlock => true
  | _ => false

lemma Store.run_creation (ha : a.locks = false)
    (h : run t n a x s = some (r, s')) : s'.creation = s.creation := by
  by_cases hreads : a.reads
  · rw [run_reads hreads h]
  rcases run_cases h with ⟨-, -, rfl⟩ | ⟨-, h⟩
  · rfl
  cases a with
  | createReceipt id | writeReceipt id digest | unlink id file =>
    rcases change_eq (some.inj h) with ⟨-, rfl⟩ | ⟨-, -, rfl⟩ <;> simp
  | append id inode bytes =>
    cases h
    simp
  | createLog id | createTemp id =>
    simp only [perform] at h
    split at h <;> cases h <;> simp
  | createDir id | rmdir id | release id sequence | activeContains id | takeCancel id =>
    simp only [perform] at h
    split at h <;> cases h <;> rfl
  | rename info temp worker =>
    rcases publish_eq (some.inj h) with ⟨-, rfl⟩ | ⟨-, d, -, -, rfl⟩
    · rfl
    · simp [settleJob]
  | createTombstone id | spawn id | note id fact | settle | register id | handOver w | retire q
  | removing id =>
    cases h
    rfl
  | lock | unlock => cases ha
  | _ => exact absurd rfl hreads

/-! ## Actions of small programs -/

variable {A : Act → Prop} {b : Bool}

lemma ensure_uses {e : SessionError} : (ensure b e).run.Uses A := by
  unfold ensure
  split <;> trivial

lemma only_uses {m : Try Unit} (h : b = true → m.run.Uses A) : (only b m).run.Uses A := by
  unfold only
  split
  · exact h ‹_›
  · trivial

/-! # Requests and the creation lock -/

variable {β : Type} {m : Try β} {t : ℕ}

lemma answering_keeps {C : Contract agent Request} {s : Store} (h : C.Ends t ⊤ m ⊤ ⊤) :
    C.keeps t (answering m) ⊤ s := by
  unfold answering
  apply Contract.keeps.bind
  exact (h s trivial).mono fun _ _ _ => trivial

lemma fork_none {a : Act} {p : Program api Unit} {P : Prop} (ha : agent.fork a = none)
    (h : agent.fork a = some p) : P := by
  cases ha.symm.trans h

/-- What it takes to have the lock at the start, with `P`, and to give it back, with `U`. -/
structure Locks (D : Discipline agent Request) (t : ℕ) (P U : Store → Prop) : Prop where
  owner : D.owner = Store.creation
  lock : ∀ s n, D.valid s → s.creation = none →
    D.Ok t n .lock s { s with creation := some t } ∧ P { s with creation := some t }
  unlock : ∀ s n, D.valid s → s.creation = some t → U s →
    D.Ok t n .unlock s { s with creation := none }
  firm : D.Firm U

variable {D : Discipline agent Request} {P U : Store → Prop}

lemma Locks.ends (hD : Locks D t P U) (h : D.Does t P m (fun _ => U) U) :
    D.contract.Ends t ⊤ (locked m) ⊤ ⊤ := by
  intro s _ s₁ _ hvalid n x r s₂ _ _ hrun
  have hlock := run_sure hrun rfl
  simp only [perform] at hlock
  split at hlock <;> cases hlock
  rename_i hfree
  obtain ⟨hok, hP⟩ := hD.lock s₁ n hvalid hfree
  have howner : D.owner s₁ = none := by rw [hD.owner, hfree]
  refine ⟨hok.valid, ⟨hok.each, hok.spares, .inr (.inl howner)⟩, hok.starts, ?_⟩
  have hheld : D.owner { s₁ with creation := some t } = some t := by rw [hD.owner]
  refine Contract.Spec.seq h (fun r => ?_) _ ⟨hheld, hP⟩
  intro s hs s₁ hrely hvalid n x _ s₂ _ _ hrun
  have hU : D.Holds t U s := by cases r <;> exact hs
  obtain ⟨howner, hU⟩ := hD.firm.stable s s₁ hU hvalid hrely
  have hcreation : s₁.creation = some t := by rw [← howner, hD.owner]
  have hunlock := run_sure hrun rfl
  simp only [perform, if_pos hcreation] at hunlock
  cases hunlock
  have hok := hD.unlock s₁ n hvalid hcreation hU
  exact ⟨hok.valid, ⟨hok.each, hok.spares, .inl howner⟩, hok.starts, by cases r <;> trivial⟩

lemma settling_ends {G : β → Store → Prop} {E : Store → Prop} (h : D.contract.Ends t P m G E)
    (hG : ∀ b, D.Frame t (G b)) (hE : D.Frame t E)
    (hsettle : ∀ s n x r s', D.valid s → run t n .settle x s = some (r, s') →
      D.Calm t n .settle s s') :
    D.contract.Ends t P (settling m) G E := by
  apply Contract.Spec.seq h
  intro r s hs s₁ hrely hvalid n x _ s₂ _ _ hrun
  have hframe : D.Frame t (Contract.post G E r) := by
    cases r with
    | ok b => exact hG b
    | error e => exact hE
  have hcalm := hsettle s₁ n x _ s₂ hvalid hrun
  exact ⟨hcalm.valid, hcalm.guar, hcalm.starts,
    hframe.quiet _ _ (hframe.stable s s₁ hs hvalid hrely) hcalm.quiet hcalm.owner⟩

/-! # Steps that are harmless to a session

Without the creation lock no task creates or deletes a session, and a task that has the lock does
so with the session that it serves.
-/
variable {y : String}

/-- Without the creation lock only statuses, temporary files and logs change. -/
structure Store.Quiet (y : String) (s s' : Store) : Prop where
  tombstones : y ∈ s'.tombstones ↔ y ∈ s.tombstones
  history : s'.history y = s.history y
  missing : s.dirs.lookup y = none → s'.dirs.lookup y = none
  kept : ∀ {d}, s.dirs.lookup y = some d → ∃ d', s'.dirs.lookup y = some d' ∧
    d'.receipt = d.receipt ∧ (d.status.isSome → d'.status.isSome)

namespace Store.Quiet

variable {s s' s'' : Store}

lemma of_alike (h : Store.Alike y s s') : s.Quiet y s' where
  tombstones := h.tombstones
  history := h.history
  missing hs := h.dir.trans hs
  kept hd := ⟨_, h.dir.trans hd, rfl, id⟩

lemma refl : s.Quiet y s := of_alike .refl

lemma trans (h : s.Quiet y s') (h' : s'.Quiet y s'') : s.Quiet y s'' where
  tombstones := h'.tombstones.trans h.tombstones
  history := h'.history.trans h.history
  missing hs := h'.missing (h.missing hs)
  kept hd := by
    obtain ⟨d', hd', hreceipt, hstatus⟩ := h.kept hd
    obtain ⟨d'', hd'', hreceipt', hstatus'⟩ := h'.kept hd'
    exact ⟨d'', hd'', hreceipt'.trans hreceipt, hstatus' ∘ hstatus⟩

lemma of_update {f : Dir → Dir} (hdirs : s'.dirs = (s.update y f).dirs)
    (htombstones : s'.tombstones = s.tombstones) (hhistory : s'.history = s.history)
    (hreceipt : ∀ d, (f d).receipt = d.receipt)
    (hstatus : ∀ d : Dir, d.status.isSome → (f d).status.isSome) : s.Quiet y s' where
  tombstones := by rw [htombstones]
  history := by rw [hhistory]
  missing hs := by simp [hdirs, lookup_update_self, hs]
  kept {d} hd := ⟨f d, by simp [hdirs, lookup_update_self, hd], hreceipt d, hstatus d⟩

end Store.Quiet

def Act.sparing (y : String) : Act → Prop
  | .lock | .unlock => False
  | .createDir id | .createLog id | .createReceipt id | .writeReceipt id _ | .createTombstone id
  | .unlink id _ | .rmdir id | .spawn id | .note id _ => id ≠ y
  | _ => True

variable {a : Act}

lemma Store.run_sparing {t n : ℕ} {x : Choice} {s s' : Store} {r : a.Resp}
    (ha : a.sparing y) (h : run t n a x s = some (r, s')) :
    s.Quiet y s' ∧ s'.creation = s.creation := by
  refine ⟨?_, run_creation (by cases a <;> first | rfl | cases ha) h⟩
  by_cases hsubject : a.subject = some y
  · rcases run_cases h with ⟨-, -, rfl⟩ | ⟨-, h⟩
    · exact .refl
    cases a with
    | createTemp id =>
      obtain rfl : id = y := some.inj hsubject
      simp only [perform] at h
      split at h <;> cases h
      · exact .of_alike ⟨rfl, .rfl, rfl⟩
      · exact .of_update rfl (by simp) (by simp) (fun _ => rfl) fun _ hd => hd
    | append id inode bytes =>
      obtain rfl : id = y := some.inj hsubject
      cases h
      exact .of_update rfl (by simp) (by simp) (fun _ => rfl) fun _ hd => hd
    | rename info temp worker =>
      obtain rfl : info.id = y := some.inj hsubject
      rcases publish_eq (some.inj h) with ⟨-, rfl⟩ | ⟨-, d, -, -, rfl⟩
      · exact .refl
      · exact .of_update rfl (by simp [settleJob]) (by simp [settleJob])
          (fun _ => rfl) fun _ _ => rfl
    | _ => first | exact absurd (some.inj hsubject) ha | cases hsubject
  · exact .of_alike (run_elsewhere hsubject h)

/-! ## Programs that are harmless to a session -/

open Act

section
open Program (Uses)

variable {settings : Settings}

lemma save_uses {info : SessionInfo} {worker : Option ℕ} :
    (save info worker).run.Uses (sparing y) := by
  unfold save
  refine .andThen ensure_uses fun _ => .andThen ensure_uses fun _ => ?_
  apply Uses.andThen (.attempt trivial)
  intro temp
  apply Uses.andThen (.attempt trivial)
  intro _
  apply Uses.andThen (.attempt trivial)
  intro _
  exact .attempt trivial

lemma sync_uses : sync.run.Uses (sparing y) := .attempt trivial

variable {id : String} {worker : Worker}

lemma tryExists_uses {file : File} :
    (tryExists id file).run.Uses (sparing y) := .attempt trivial

lemma readStatus_uses : (readStatus id).run.Uses (sparing y) := by
  unfold readStatus
  exact .andThen ensure_uses fun _ => .attempt trivial

lemma interrupt_uses : (interrupt id).run.Uses (sparing y) := by
  unfold interrupt
  apply Uses.andThen readStatus_uses
  intro info
  split
  · apply Uses.andThen (.attempt trivial)
    intro now
    exact .andThen save_uses fun _ => trivial
  · trivial

lemma get_uses : (get id).run.Uses (sparing y) := by
  unfold get
  apply Uses.andThen readStatus_uses
  intro info
  split
  · apply Uses.andThen (.attempt trivial)
    intro active
    split
    · trivial
    · exact Uses.bind interrupt_uses fun _ => ⟨trivial, fun _ => trivial⟩
  · trivial

lemma cancel_uses : (cancel id).run.Uses (sparing y) := by
  unfold cancel
  exact .andThen get_uses fun _ => .andThen (.attempt trivial) fun _ => trivial

lemma events_uses : (events id).run.Uses (sparing y) := by
  unfold events
  exact .andThen get_uses fun _ => .andThen (.attempt trivial) fun _ => trivial

lemma work_uses (count : ℕ) : (work worker count).run.Uses (sparing y) := by
  have hzero : (work worker 0).run.Uses (sparing y) := by
    rw [work]
    exact .andThen (.attempt trivial) fun _ => trivial
  induction count with
  | zero => exact hzero
  | succ count ih =>
  rw [work]
  apply Uses.andThen (.attempt trivial)
  intro output
  cases output with
  | none => exact hzero
  | some bytes => exact .andThen (.attempt trivial) fun _ => ih

lemma worker_uses : (answering worker.run).Uses (sparing y) := by
  unfold answering Worker.run
  refine Uses.bind ?_ fun _ => trivial
  apply Uses.andThen (.lift (work_uses maxEvents))
  intro ended
  unfold Worker.publish
  apply Uses.andThen (.attempt trivial)
  intro now
  apply Uses.andThen (.lift save_uses)
  intro _
  exact .andThen (.attempt trivial) fun _ => .attempt trivial

lemma unlinkAll_uses (hid : id ≠ y) (files : List File) :
    (unlinkAll id files).run.Uses (sparing y) := by
  induction files with
  | nil => trivial
  | cons file rest ih =>
    rw [unlinkAll]
    exact .andThen (.attempt hid) fun _ => ih

lemma removeDirAll_uses (hid : id ≠ y) : (removeDirAll id).run.Uses (sparing y) := by
  unfold removeDirAll
  apply Uses.andThen (.attempt trivial)
  intro files
  exact .andThen (unlinkAll_uses hid files) fun _ => .attempt hid

lemma bury_uses (hid : id ≠ y) : (bury id).run.Uses (sparing y) := by
  unfold bury
  exact .andThen (.attempt trivial) fun _ => .andThen (.attempt hid) fun _ => .attempt trivial

lemma countReceipts_uses (sessions : List SessionInfo) :
    (countReceipts sessions).run.Uses (sparing y) := by
  induction sessions with
  | nil => exact .attempt trivial
  | cons session rest ih =>
    rw [countReceipts]
    exact .andThen (.attempt trivial) fun _ => .andThen ih fun _ => trivial

lemma checkLimits_uses {sessions : List SessionInfo} {isReplay : Bool} :
    (checkLimits sessions isReplay).run.Uses (sparing y) := by
  unfold checkLimits
  apply Uses.andThen
  · apply only_uses
    intro _
    unfold reserve
    exact .andThen (countReceipts_uses sessions) fun _ => ensure_uses
  intro _
  apply Uses.andThen (.attempt trivial)
  intro running
  exact .andThen ensure_uses fun _ => ensure_uses

lemma replay_uses {specification : Specification} :
    (replay settings id specification).run.Uses (sparing y) := by
  unfold replay
  apply Uses.andThen (.attempt trivial)
  intro removed
  apply Uses.andThen ensure_uses
  intro _
  apply Uses.andThen (.attempt trivial)
  intro known
  split
  · apply Uses.andThen (.attempt trivial)
    intro contents
    exact .andThen ensure_uses fun _ => .andThen get_uses fun _ => trivial
  · trivial

variable {request : SessionStartRequest} {spec : Specification} {isReplay : Bool}

lemma prepare_uses (hid : request.id ≠ y) :
    (prepare settings request spec isReplay).run.Uses (sparing y) := by
  unfold prepare
  apply Uses.andThen (.attempt trivial)
  intro _
  apply Uses.andThen (.attempt hid)
  intro inode
  apply Uses.andThen (only_uses fun _ => .attempt hid)
  intro _
  apply Uses.andThen
  · apply only_uses
    intro _
    unfold leaveReceipt
    exact .andThen (.attempt hid) fun _ => .andThen (.attempt hid) fun _ => .attempt trivial
  intro _
  apply Uses.andThen (.attempt trivial)
  intro now
  apply Uses.andThen (.attempt trivial)
  intro sequence
  apply Uses.andThen (.lift save_uses)
  intro saved
  cases saved with
  | ok _ => trivial
  | error e => exact .andThen (.attempt trivial) fun _ => trivial

lemma abandon_uses {e : SessionError} : (abandon worker e).run.Uses (sparing y) := by
  unfold abandon
  apply Uses.andThen (.attempt trivial)
  intro now
  apply Uses.andThen (.lift save_uses)
  intro saved
  apply Uses.andThen (.attempt trivial)
  intro _
  cases saved <;> trivial

lemma accept_uses (hid : id ≠ y) : (accept id spec worker).run.Uses (sparing y) := by
  unfold accept
  apply Uses.andThen (.attempt hid)
  intro _
  apply Uses.andThen (.lift (.attempt trivial))
  intro synced
  cases synced with
  | error e => exact .andThen (.attempt trivial) fun _ => trivial
  | ok _ =>
  apply Uses.andThen (.lift (.attempt hid))
  intro spawned
  cases spawned with
  | error e => exact abandon_uses
  | ok _ => trivial

lemma create_uses (hid : request.id ≠ y) :
    (create settings request spec isReplay).run.Uses (sparing y) := by
  unfold create
  apply Uses.andThen (.attempt trivial)
  intro _
  apply Uses.andThen (.attempt hid)
  intro fresh
  apply Uses.andThen ensure_uses
  intro _
  apply Uses.andThen (.lift (prepare_uses hid))
  intro prepared
  cases prepared with
  | error e => exact .andThen (.lift (removeDirAll_uses hid)) fun _ => trivial
  | ok worker =>
    apply Uses.andThen (only_uses fun _ => accept_uses hid)
    intro _
    exact .andThen (.attempt trivial) fun _ => trivial

end

lemma fork_uses {p : Program api Unit} (h : agent.fork a = some p) : p.Uses (sparing y) := by
  cases a with
  | handOver worker =>
    cases h
    exact worker_uses
  | _ => cases h

/-! # Who supervises a session

The ghost state says which worker has still to publish its outcome and which task doubts that a
session is alive.  What a step may do to them, and which steps do nothing to them.
-/
variable {t n : ℕ} {a : Act} {x : Choice} {s s' : Store} {id : String} {q : ℕ}

def Store.status (s : Store) (id : String) : Option SessionInfo := (s.dirs.lookup id).bind (·.status)

def Store.Registered (id : String) (q : ℕ) (s : Store) : Prop :=
  ∃ a, s.active.lookup id = some a ∧ a.sequence = q

lemma Store.Registered.unique {q' : ℕ} (h : s.Registered id q) (h' : s.Registered id q') :
    q = q' := by
  obtain ⟨a, ha, rfl⟩ := h
  obtain ⟨a', ha', rfl⟩ := h'
  rw [some.inj (ha.symm.trans ha')]

structure Store.Same (s s' : Store) : Prop where
  jobs : s'.jobs = s.jobs
  registered : ∀ {id q}, s'.Registered id q ↔ s.Registered id q
  nextSequence : s'.nextSequence = s.nextSequence
  doubting : s'.doubting = s.doubting
  status : ∀ {id}, s'.status id = s.status id
  creation : s'.creation = s.creation

lemma Store.Same.refl : s.Same s := ⟨rfl, .rfl, rfl, rfl, rfl, rfl⟩

/-! ## Steps that leave the supervision alone -/

def Act.plain : Act → Prop
  | .lock | .unlock | .rename .. | .activeContains _ | .settle | .register _ | .release ..
  | .handOver _ | .retire _ => False
  | .unlink _ file => file ≠ .status
  | _ => True

section
variable {f : Dir → Dir}

lemma Store.status_update {y : String} (hdirs : s'.dirs = (s.update id f).dirs)
    (hf : ∀ d, (f d).status = d.status) : s'.status y = s.status y := by
  unfold status
  rw [hdirs]
  by_cases hy : y = id
  · subst hy
    rw [lookup_update_self]
    cases s.dirs.lookup y <;> simp [hf]
  · rw [lookup_update_of_ne hy]

lemma Store.Same.of_update (hf : ∀ d, (f d).status = d.status) : s.Same (s.update id f) :=
  ⟨by simp, by simp [Store.Registered], by simp, by simp, status_update rfl hf, by simp⟩

lemma Store.Same.of_change {r : Option Unit} (h : s.change id f = (r, s'))
    (hf : ∀ d, (f d).status = d.status) : s.Same s' := by
  rcases change_eq h with ⟨-, rfl⟩ | ⟨-, -, rfl⟩
  · exact .refl
  · exact .of_update hf

end

lemma Store.run_plain {r : a.Resp} (ha : a.plain) (h : run t n a x s = some (r, s')) :
    s.Same s' := by
  by_cases hreads : a.reads
  · rw [run_reads hreads h]
    exact .refl
  rcases run_cases h with ⟨-, -, rfl⟩ | ⟨-, h⟩
  · exact .refl
  cases a with
  | createReceipt id | writeReceipt id digest => exact .of_change (some.inj h) fun _ => rfl
  | unlink id file =>
    apply Store.Same.of_change (some.inj h)
    intro d
    cases file with
    | status => exact absurd rfl ha
    | _ => rfl
  | append id inode bytes =>
    cases h
    exact .of_update fun _ => rfl
  | createLog id | createTemp id =>
    simp only [perform] at h
    split at h <;> cases h
    · exact ⟨rfl, .rfl, rfl, rfl, rfl, rfl⟩
    · refine ⟨by simp, by simp [Store.Registered], by simp, by simp, ?_, by simp⟩
      exact status_update rfl fun _ => rfl
  | createDir id =>
    simp only [perform] at h
    split at h <;> cases h
    · exact .refl
    rename_i hmissing
    refine ⟨rfl, .rfl, rfl, rfl, ?_, rfl⟩
    intro y
    by_cases hy : y = id
    · subst hy
      simp [Store.status, hmissing]
    · simp [Store.status, lookup_insert_ne hy]
  | rmdir id =>
    simp only [perform] at h
    split at h <;> cases h
    · rename_i hempty
      refine ⟨rfl, .rfl, rfl, rfl, ?_, rfl⟩
      intro y
      by_cases hy : y = id
      · subst hy
        simp [Store.status, hempty]
      · simp [Store.status, lookup_erase_ne hy]
    · exact .refl
  | takeCancel id =>
    simp only [perform] at h
    split at h <;> cases h
    · rename_i a ha
      refine ⟨rfl, ?_, rfl, rfl, rfl, rfl⟩
      intro y q
      by_cases hy : y = id
      · subst hy
        simp [Store.Registered, ha]
      · simp [Store.Registered, lookup_insert_ne hy]
    · exact .refl
  | createTombstone id | spawn id | note id fact | removing id =>
    cases h
    exact ⟨rfl, .rfl, rfl, rfl, rfl, rfl⟩
  | lock | unlock | rename | activeContains | settle | register | release | handOver | retire =>
    cases ha
  | _ => exact absurd rfl hreads

/-! ## Steps that change it -/

structure Store.Settles (worker : Option ℕ) (s s' : Store) : Prop where
  jobs : ∀ q, s'.jobs q =
    if worker = some q then (s.jobs q).map ({ · with writing := false }) else s.jobs q
  registered : ∀ {id q}, s'.Registered id q ↔ s.Registered id q
  nextSequence : s'.nextSequence = s.nextSequence
  doubting : s'.doubting = s.doubting
  creation : s'.creation = s.creation

variable {worker : Option ℕ}

lemma Store.settleJob_settles : s.Settles worker (s.settleJob worker) :=
  ⟨fun _ => rfl, .rfl, rfl, rfl, rfl⟩

structure Store.Renamed (info : SessionInfo) (worker : Option ℕ) (s s' : Store) : Prop
    extends s.Settles worker s' where
  status : ∀ id, s'.status id = if id = info.id then some info else s.status id

lemma Store.run_rename {info : SessionInfo} {temp : ℕ} {r : (Act.rename info temp worker).Resp}
    (h : run t n (.rename info temp worker) x s = some (r, s')) :
    (orIo r = .error .io ∧ s' = s) ∨ (orIo r = .ok () ∧ s.Renamed info worker s') := by
  rcases run_cases h with ⟨-, hfails, rfl⟩ | ⟨-, h⟩
  · cases hfails
    exact .inl ⟨rfl, rfl⟩
  rcases publish_eq (some.inj h) with ⟨rfl, rfl⟩ | ⟨rfl, d, hd, -, rfl⟩
  · exact .inl ⟨rfl, rfl⟩
  refine .inr ⟨rfl, ⟨⟨?_, ?_, ?_, ?_, ?_⟩, ?_⟩⟩
  · simp [settleJob]
  · simp [Store.Registered, settleJob]
  · simp [settleJob]
  · simp [settleJob]
  · simp [settleJob]
  intro y
  simp only [status, settleJob]
  by_cases hy : y = info.id
  · subst hy
    rw [lookup_update_eq hd, if_pos rfl]
    rfl
  · rw [lookup_update_of_ne hy, if_neg hy]

lemma Store.run_activeContains {r : (Act.activeContains id).Resp}
    (h : run t n (.activeContains id) x s = some (r, s')) :
    (r = true ∧ s' = s) ∨ (r = false ∧ (∀ q, ¬s.Registered id q) ∧
      s' = { s with doubting := (t, id) :: s.doubting }) := by
  rcases run_cases h with ⟨-, hfails, -⟩ | ⟨-, h⟩
  · cases hfails
  simp only [perform] at h
  split at h <;> cases h
  · exact .inl ⟨rfl, rfl⟩
  · rename_i hnone
    refine .inr ⟨rfl, ?_, rfl⟩
    rintro q ⟨a, ha, -⟩
    cases hnone.symm.trans ha

lemma Store.run_release {r : (Act.release id q).Resp}
    (h : run t n (.release id q) x s = some (r, s')) :
    s' = s ∨ (s.Registered id q ∧ s' = { s with active := s.active.erase id }) := by
  rcases run_cases h with ⟨-, hfails, -⟩ | ⟨-, h⟩
  · cases hfails
  simp only [perform] at h
  split at h <;> cases h
  · rename_i hany
    obtain ⟨a, ha, hq⟩ := (any_eq_true _ _).mp hany
    exact .inr ⟨⟨a, ha, of_decide_eq_true hq⟩, rfl⟩
  · exact .inl rfl

end Husker.Session
