import Husker.Session.Effects

/-! # A live session is not declared dead

A task that found a session running but not registered writes its verdict later.  As long as
nobody registers the id in between, the session it writes over is nobody's.
-/
namespace Husker.Session
open Relational List Option Function Act Discipline

variable {t n q : ℕ} {s s' s'' : Store} {id : String}

/-! ## The contract -/

def Store.Idle (id : String) (s : Store) : Prop :=
  ∀ q job, s.jobs q = some job → job.id = id → job.writing = false

def Store.Running (id : String) (s : Store) : Prop :=
  ∃ info, s.status id = some info ∧ info.state = .running

structure Store.Held (id : String) (q : ℕ) (s : Store) : Prop where
  registered : s.Registered id q
  unborn : s.jobs q = none
  issued : q < s.nextSequence

structure Store.Supervised (s : Store) : Prop where
  doubts : ∀ {t id q}, (t, id) ∈ s.doubting → ¬s.Registered id q
  writing : ∀ {q job}, s.jobs q = some job → job.writing = true →
    s.Registered job.id q ∧ s.Running job.id
  named : ∀ {id info}, s.status id = some info → info.id = id
  fresh : ∀ {q}, s.nextSequence ≤ q → s.jobs q = none

structure Store.Mild (s s' : Store) : Prop where
  idle : ∀ {id}, s.Idle id → s'.Idle id
  held : ∀ {id q}, s.Held id q → s'.Held id q
  running : ∀ {id q}, s.Held id q → s.Running id → s'.Running id

structure Store.Spares (t : ℕ) (s s' : Store) : Prop where
  doubting : ∀ {id}, (t, id) ∈ s.doubting → (t, id) ∈ s'.doubting
  jobs : ∀ {q job}, s.jobs q = some job → job.task = t → s'.jobs q = some job
  lock : s'.creation = some t → s.creation = some t

def Undisturbed (t : ℕ) (s s' : Store) : Prop :=
  ∀ id q job info, s.Registered id q → s.jobs q = some job → s'.status id = some info →
    s.status id ≠ some info → info.state = .interrupted → job.task = t

def Undoubted (a : Act) (s : Store) : Prop := ∀ id, a = .register id → ∀ u, (u, id) ∉ s.doubting

def supervised : Discipline agent Request where
  owner := Store.creation
  valid := Store.Supervised
  quiet := Store.Mild
  spares := Store.Spares
  each := Undisturbed
  allowed _ a _ := Undoubted a
  admits _ := True
  survives _ := True
  starts p n s := ∃ worker : Worker, p = answering worker.run ∧
    s.jobs worker.sequence = some ⟨n, worker.info.id, worker.inode, true⟩
  quiet_refl _ := ⟨fun h => h, fun h => h, fun _ h => h⟩
  quiet_trans h h' := ⟨h'.idle ∘ h.idle, h'.held ∘ h.held,
    fun hheld hrunning => h'.running (h.held hheld) (h.running hheld hrunning)⟩
  spares_refl _ _ := ⟨fun h => h, fun h _ => h, fun h => h⟩
  spares_trans h h' := ⟨h'.doubting ∘ h.doubting, fun hjob htask =>
    h'.jobs (h.jobs hjob htask) htask, h.lock ∘ h'.lock⟩

/-! ## Steps that leave the supervision alone -/

namespace Store.Same

section
variable (h : s.Same s')
include h

lemma idle : s'.Idle id ↔ s.Idle id := by rw [Store.Idle, h.jobs, Store.Idle]

lemma running : s'.Running id ↔ s.Running id := by
  rw [Store.Running, h.status, Store.Running]

lemma held (hheld : s.Held id q) : s'.Held id q :=
  ⟨h.registered.mpr hheld.registered, h.jobs ▸ hheld.unborn, h.nextSequence ▸ hheld.issued⟩

lemma mild : s.Mild s' := ⟨h.idle.mpr, h.held, fun _ => h.running.mpr⟩

lemma supervised (hs : s.Supervised) : s'.Supervised where
  doubts hdoubt hregistered := hs.doubts (h.doubting ▸ hdoubt) (h.registered.mp hregistered)
  writing hjob hwriting := by
    obtain ⟨hregistered, hrunning⟩ := hs.writing (h.jobs ▸ hjob) hwriting
    exact ⟨h.registered.mpr hregistered, h.running.mpr hrunning⟩
  named hstatus := hs.named (h.status ▸ hstatus)
  fresh hq := h.jobs ▸ hs.fresh (h.nextSequence ▸ hq)

lemma spares : s.Spares t s' :=
  ⟨fun hdoubt => h.doubting ▸ hdoubt, fun hjob _ => h.jobs ▸ hjob, fun hlock => h.creation ▸ hlock⟩

lemma undisturbed : Undisturbed t s s' :=
  fun _ _ _ _ _ _ hstatus hchanged _ => absurd (h.status ▸ hstatus) hchanged

end

end Store.Same

lemma same_calm {a : Act} (ha : agent.fork a = none) (hs : s.Supervised)
    (h : s.Same s') : supervised.Calm t n a s s' :=
  ⟨⟨h.supervised hs, h.undisturbed, fun _ _ => h.spares, fun _ => fork_none ha⟩, h.mild, h.creation⟩

open Store

lemma plain_calm {a : Act} {x : Choice} {r : a.Resp} (ha : a.plain) (hs : s.Supervised)
    (h : run t n a x s = some (r, s')) : supervised.Calm t n a s s' := by
  refine same_calm ?_ hs (run_plain ha h)
  cases a <;> first | rfl | cases ha

lemma doubting_calm {a : Act} {doubting : List (ℕ × String)}
    (ha : agent.fork a = none) (hs : s.Supervised)
    (hnew : ∀ u id q, (u, id) ∈ doubting → (u, id) ∈ s.doubting ∨ ¬s.Registered id q)
    (hold : ∀ u id, u ≠ t → (u, id) ∈ s.doubting → (u, id) ∈ doubting) :
    supervised.Calm t n a s { s with doubting } where
  valid := by
    refine ⟨?_, hs.writing, hs.named, hs.fresh⟩
    intro u id q hu
    exact (hnew u id q hu).elim hs.doubts fun hnobody => hnobody
  each := fun _ _ _ _ _ _ hstatus hchanged _ => absurd hstatus hchanged
  spares u hu := ⟨hold u _ hu, fun hjob _ => hjob, fun hlock => hlock⟩
  starts _ := fork_none ha
  quiet := ⟨fun h => h, fun h => ⟨h.registered, h.unborn, h.issued⟩, fun _ h => h⟩
  owner := rfl

/-! ## Publishing a status -/

namespace Store.Settles

variable {worker : Option ℕ}

section
variable (h : s.Settles worker s')
include h

lemma idle (hidle : s.Idle id) : s'.Idle id := by
  intro q job hjob hid
  rw [h.jobs] at hjob
  split at hjob
  · obtain ⟨job', -, rfl⟩ := map_eq_some_iff.mp hjob
    rfl
  · exact hidle q job hjob hid

lemma held (hheld : s.Held id q) : s'.Held id q where
  registered := h.registered.mpr hheld.registered
  unborn := by
    rw [h.jobs, hheld.unborn]
    split <;> rfl
  issued := h.nextSequence ▸ hheld.issued

lemma supervised (hs : s.Supervised)
    (hrunning : ∀ q job, s.jobs q = some job → job.writing = true → worker ≠ some q →
      s'.Running job.id)
    (hnamed : ∀ {id info}, s'.status id = some info → info.id = id) : s'.Supervised where
  doubts hdoubt hregistered := hs.doubts (h.doubting ▸ hdoubt) (h.registered.mp hregistered)
  writing {q job} hjob hwriting := by
    rw [h.jobs] at hjob
    split at hjob
    · obtain ⟨job', -, rfl⟩ := map_eq_some_iff.mp hjob
      cases hwriting
    · exact ⟨h.registered.mpr (hs.writing hjob hwriting).1, hrunning q job hjob hwriting ‹_›⟩
  named := hnamed
  fresh {q} hq := by
    rw [h.jobs, hs.fresh (h.nextSequence ▸ hq)]
    split <;> rfl

lemma spares
    (hmine : ∀ q job, worker = some q → s.jobs q = some job → job.task = t) {u : ℕ} (hu : u ≠ t) :
    s.Spares u s' where
  doubting hdoubt := h.doubting ▸ hdoubt
  jobs {q job} hjob htask := by
    rw [h.jobs, if_neg, hjob]
    intro hworker
    exact hu (htask.symm.trans (hmine q job hworker hjob))
  lock hlock := h.creation ▸ hlock

end

end Store.Settles

namespace Store.Renamed

variable {info : SessionInfo} {worker : Option ℕ}

section
variable (h : s.Renamed info worker s')
include h

lemma running_of_ne (hid : id ≠ info.id) (hrunning : s.Running id) : s'.Running id := by
  obtain ⟨old, hold, hstate⟩ := hrunning
  exact ⟨old, by rw [h.status, if_neg hid, hold], hstate⟩

lemma running_self (hstate : info.state = .running) :
    s'.Running info.id := ⟨info, by rw [h.status, if_pos rfl], hstate⟩

lemma supervised (hs : s.Supervised)
    (hwriting : ∀ q job, s.jobs q = some job → job.writing = true → job.id = info.id →
      worker = some q ∨ info.state = .running) : s'.Supervised := by
  apply h.toSettles.supervised hs
  · intro q job hjob hw hq
    by_cases hid : job.id = info.id
    · rw [hid]
      exact h.running_self ((hwriting q job hjob hw hid).resolve_left hq)
    · exact h.running_of_ne hid (hs.writing hjob hw).2
  intro id old hstatus
  rw [h.status] at hstatus
  split at hstatus
  · cases hstatus
    exact (‹_› : id = info.id).symm
  · exact hs.named hstatus

lemma undisturbed
    (hmine : ∀ q job, s.Registered info.id q → s.jobs q = some job → info.state = .interrupted →
      job.task = t) : Undisturbed t s s' := by
  intro id q job new hregistered hjob hnew hchanged hstate
  rw [h.status] at hnew
  split at hnew
  · rename_i hid
    cases hnew
    exact hmine q job (hid ▸ hregistered) hjob hstate
  · exact absurd hnew hchanged

end

end Store.Renamed

lemma rename_doubted {info : SessionInfo} (h : s.Renamed info none s') (hs : s.Supervised)
    (hdoubt : (t, info.id) ∈ s.doubting) :
    s'.Supervised ∧ s.Mild s' ∧ supervised.contract.guar t s s' := by
  have hnobody : ∀ q, ¬s.Registered info.id q := fun q => hs.doubts hdoubt
  have hmild : s.Mild s' := by
    refine ⟨h.idle, h.held, ?_⟩
    intro id q hheld hrunning
    apply h.running_of_ne _ hrunning
    rintro rfl
    exact hnobody q hheld.registered
  refine ⟨h.supervised hs ?_, hmild, h.undisturbed ?_, fun u hu => h.spares nofun hu,
    .inr (.inr ⟨hmild, h.creation⟩)⟩
  · exact fun q job hjob hw hid => absurd (hid ▸ (hs.writing hjob hw).1) (hnobody q)
  · exact fun q job hregistered => absurd hregistered (hnobody q)

lemma rename_mine {info : SessionInfo} {job : Job} (h : s.Renamed info (some q) s')
    (hs : s.Supervised) (hjob : s.jobs q = some job) (htask : job.task = t)
    (hid : job.id = info.id) (hwriting : job.writing = true) :
    s'.Supervised ∧ supervised.contract.guar t s s' := by
  have hregistered : s.Registered info.id q := hid ▸ (hs.writing hjob hwriting).1
  have hmild : s.Mild s' := by
    refine ⟨h.idle, h.held, ?_⟩
    intro id q' hheld hrunning
    apply h.running_of_ne _ hrunning
    rintro rfl
    obtain rfl := hregistered.unique hheld.registered
    cases hjob.symm.trans hheld.unborn
  refine ⟨h.supervised hs ?_, h.undisturbed ?_, fun u hu => h.spares ?_ hu,
    .inr (.inr ⟨hmild, h.creation⟩)⟩
  · intro q' job' hjob' hw hid'
    exact .inl (congrArg some (hregistered.unique (hid' ▸ (hs.writing hjob' hw).1)))
  · intro q' job' hregistered' hjob' _
    obtain rfl := hregistered.unique hregistered'
    rw [← some.inj (hjob.symm.trans hjob'), htask]
  · intro q' job' hq' hjob'
    cases hq'
    rw [← some.inj (hjob.symm.trans hjob'), htask]

/-! ## Leaving the map -/

lemma Store.registered_erase {y : String} {q' : ℕ} :
    ({ s with active := s.active.erase id } : Store).Registered y q' ↔
      y ≠ id ∧ s.Registered y q' := by
  unfold Store.Registered
  by_cases hy : y = id
  · subst hy
    simp
  · simp [hy]

lemma release_ok {x : Choice} {r : (release id q).Resp} (hs : s.Supervised)
    (hdone : ∀ job, s.jobs q = some job → job.writing = false)
    (h : run t n (.release id q) x s = some (r, s')) :
    supervised.Ok t n (.release id q) s s' := by
  rcases run_release h with rfl | ⟨hregistered, rfl⟩
  · exact Discipline.Calm.toOk (same_calm rfl hs .refl)
  refine ⟨⟨?_, ?_, hs.named, hs.fresh⟩, ?_, ?_, fun _ => fork_none rfl⟩
  · exact fun hdoubt hreg => hs.doubts hdoubt (registered_erase.mp hreg).2
  · intro q' job hjob hwriting
    obtain ⟨hreg, hrunning⟩ := hs.writing hjob hwriting
    refine ⟨registered_erase.mpr ⟨?_, hreg⟩, hrunning⟩
    intro hid
    obtain rfl := hregistered.unique (hid ▸ hreg)
    cases (hdone job hjob).symm.trans hwriting
  · exact fun _ _ _ _ _ _ hstatus hchanged _ => absurd hstatus hchanged
  · exact fun u _ => ⟨fun h => h, fun hjob _ => hjob, fun hlock => hlock⟩

lemma release_mild {x : Choice} {r : (release id q).Resp} {job : Job}
    (hjob : s.jobs q = some job) (h : run t n (.release id q) x s = some (r, s')) :
    s.Mild s' ∧ s'.creation = s.creation := by
  rcases run_release h with rfl | ⟨hregistered, rfl⟩
  · exact ⟨Store.Same.refl.mild, rfl⟩
  refine ⟨⟨fun h => h, ?_, fun _ h => h⟩, rfl⟩
  intro y q' hheld
  refine ⟨registered_erase.mpr ⟨?_, hheld.registered⟩, hheld.unborn, hheld.issued⟩
  rintro rfl
  obtain rfl := hregistered.unique hheld.registered
  cases hjob.symm.trans hheld.unborn

/-! ## Deleting a status -/

lemma Store.status_unlink (s : Store) (y : String) :
    (s.update id (·.unlink .status)).status y = if y = id then none else s.status y := by
  unfold Store.status
  split
  · rename_i hy
    subst hy
    rw [lookup_update_self]
    cases s.dirs.lookup y <;> rfl
  · rw [lookup_update_of_ne ‹_›]

lemma unlink_ok {x : Choice} {r : (unlink id .status).Resp} (hs : s.Supervised)
    (hidle : s.Idle id) (h : run t n (.unlink id .status) x s = some (r, s')) :
    supervised.Ok t n (.unlink id .status) s s' ∧ s'.Idle id := by
  have hcases : s' = s ∨ s' = s.update id (·.unlink .status) := by
    rcases run_cases h with ⟨-, -, hsame⟩ | ⟨-, h⟩
    · exact .inl hsame
    · exact (change_eq (some.inj h)).imp And.right fun h => h.2.2
  rcases hcases with rfl | rfl
  · exact ⟨Discipline.Calm.toOk (same_calm rfl hs .refl), hidle⟩
  have hregistered : ∀ {y q}, (s.update id (·.unlink .status)).Registered y q ↔ s.Registered y q := by
    simp [Store.Registered]
  refine ⟨⟨⟨?_, ?_, ?_, ?_⟩, ?_, ?_, fun _ => fork_none rfl⟩, ?_⟩
  · intro u y q hdoubt
    simp only [update_rest] at hdoubt
    exact hregistered.not.mpr (hs.doubts hdoubt)
  · intro q job hjob hwriting
    simp only [update_rest] at hjob
    obtain ⟨hreg, info, hinfo, hrunning⟩ := hs.writing hjob hwriting
    refine ⟨hregistered.mpr hreg, info, ?_, hrunning⟩
    rw [status_unlink, if_neg, hinfo]
    intro hid
    cases (hidle q job hjob hid).symm.trans hwriting
  · intro y info hstatus
    rw [status_unlink] at hstatus
    split at hstatus
    · cases hstatus
    · exact hs.named hstatus
  · intro q hq
    simp only [update_rest] at hq
    simp only [update_rest, hs.fresh hq]
  · intro y q job info _ _ hstatus hchanged _
    rw [status_unlink] at hstatus
    split at hstatus
    · cases hstatus
    · exact absurd hstatus hchanged
  · exact fun u _ => ⟨by simp, fun hjob _ => by simpa using hjob, by simp⟩
  · simpa [Store.Idle] using hidle

/-! ## Facts -/

section
variable {P R : Store → Prop}

structure Steady (t : ℕ) (P : Store → Prop) : Prop where
  stable : supervised.contract.Stable t P
  same : ∀ s s', P s → s.Same s' → P s'

lemma frame_steady (h : supervised.Frame t P) : Steady t P :=
  ⟨h.stable, fun s s' hs hsame => h.quiet s s' hs hsame.mild hsame.creation⟩

lemma Steady.and (h : Steady t P) (h' : Steady t R) : Steady t fun s => P s ∧ R s :=
  ⟨h.stable.and h'.stable, fun s s' hs hsame => ⟨h.same s s' hs.1 hsame, h'.same s s' hs.2 hsame⟩⟩

lemma Steady.const (p : Prop) : Steady t fun _ => p := frame_steady (.const p)

lemma steady_doubting : Steady t fun s => (t, id) ∈ s.doubting where
  stable _ _ hs _ hrely := hrely.1.doubting hs
  same _ _ hs hsame := hsame.doubting ▸ hs

def Mine (t q : ℕ) (p : Job → Prop) (s : Store) : Prop := ∃ job, s.jobs q = some job ∧ job.task = t ∧ p job

lemma steady_mine {p : Job → Prop} : Steady t (Mine t q p) where
  stable := by
    rintro s s' ⟨job, hjob, htask, hp⟩ - hrely
    exact ⟨job, hrely.1.jobs hjob htask, htask, hp⟩
  same := by
    rintro s s' ⟨job, hjob, htask, hp⟩ hsame
    exact ⟨job, hsame.jobs ▸ hjob, htask, hp⟩

def Settled (t : ℕ) (id : String) (s : Store) : Prop := s.creation = some t → s.Idle id

lemma frame_settled : supervised.Frame t (Settled t id) where
  stable := by
    intro s s' hs _ hrely hlock
    have hlock' := hrely.1.lock hlock
    exact (hrely.2 hlock').1.idle (hs hlock')
  quiet s s' hs hmild hsame hlock := hmild.idle (hs (hsame.symm.trans hlock))

lemma firm_idle : supervised.Firm (Store.Idle id) := fun _ _ hs hmild => hmild.idle hs

lemma firm_held : supervised.Firm (Store.Held id q) := fun _ _ hs hmild => hmild.held hs

lemma firm_running : supervised.Firm fun s => s.Held id q ∧ s.Running id :=
  fun _ _ hs hmild => ⟨hmild.held hs.1, hmild.running hs.1 hs.2⟩

lemma Store.Supervised.idle {o : Option SessionInfo} (h : s.Supervised) (hstatus : s.status id = o)
    (ho : ∀ info, o = some info → info.state ≠ .running) : s.Idle id := by
  rintro q job hjob rfl
  by_contra hwriting
  obtain ⟨-, info, hinfo, hrunning⟩ := h.writing hjob (by simpa using hwriting)
  exact ho info (hstatus.symm.trans hinfo) hrunning

end

/-! ## Programs -/

namespace Alive

section
variable {β γ : Type} {P E : Store → Prop} {m : Try β} {info : SessionInfo} {worker : Option ℕ}

lemma ends_plain (hm : m.run.Uses plain) (hP : Steady t P) (hE : ∀ s, P s → E s) :
    supervised.contract.Ends t P m (fun _ => P) E := by
  have huses : supervised.contract.Ends t P m (fun _ => P) P := by
    apply Contract.Ends.uses hm hP.stable
    intro a s n x r s' ha hvalid hs _ _ hrun
    have hcalm := plain_calm ha hvalid hrun
    exact ⟨hcalm.valid, hcalm.guar, hcalm.starts, hP.same s s' hs (run_plain ha hrun)⟩
  exact huses.conseq (fun _ hs => hs) (fun _ _ hs => hs) hE

lemma plain_bind {f : β → Try γ} {F : γ → Store → Prop} (hm : m.run.Uses plain)
    (hP : Steady t P) (hf : ∀ b, supervised.contract.Ends t P (f b) F P) :
    supervised.contract.Ends t P (m >>= f) F P :=
  .bind (ends_plain hm hP fun _ hs => hs) hf

lemma save_ends {Q : Store → Prop} (hP : Steady t P) (hQ : Steady t Q) (hPE : ∀ s, P s → E s)
    (hQE : ∀ s, Q s → E s) (hrename : ∀ s s', s.Supervised → P s → s.Renamed info worker s' →
      s'.Supervised ∧ supervised.contract.guar t s s' ∧ Q s') :
    supervised.contract.Ends t P (save info worker) (fun _ => Q) E := by
  unfold save
  refine .bind (ends_plain ensure_uses hP hPE) fun _ => ?_
  refine .bind (ends_plain ensure_uses hP hPE) fun _ => ?_
  refine .bind (ends_plain (.attempt trivial) hP hPE) fun temp => ?_
  refine .bind (ends_plain (.attempt trivial) hP hPE) fun _ => ?_
  refine .bind (G := fun _ => Q) ?_ fun _ => ends_plain (.attempt trivial) hQ hQE
  apply Contract.Ends.attempt hP.stable
  intro s n x r s' hvalid hs _ _ hrun
  rcases run_rename hrun with ⟨hr, rfl⟩ | ⟨hr, hrenamed⟩
  · have hcalm : supervised.Calm t n (.rename info temp worker) s' s' := same_calm rfl hvalid .refl
    rw [hr]
    exact ⟨hcalm.valid, hcalm.guar, hcalm.starts, hPE s' hs⟩
  · obtain ⟨hvalid', hguar, hs'⟩ := hrename s s' hvalid hs hrenamed
    rw [hr]
    exact ⟨hvalid', hguar, fun _ => fork_none rfl, hs'⟩

lemma readStatus_ends (hP : Steady t P) : supervised.contract.Ends t P (readStatus id)
      (fun info s => (info.id = id ∧ (info.state ≠ .running → Settled t id s)) ∧ P s) P := by
  unfold readStatus
  refine plain_bind ensure_uses hP fun _ => ?_
  apply ends_calm hP.stable
  intro s n x r s' hvalid hs _ _ hrun
  refine ⟨plain_calm (by trivial) hvalid hrun, ?_⟩
  obtain rfl := run_reads rfl hrun
  rcases run_cases hrun with ⟨-, hfails, -⟩ | ⟨-, h⟩
  · cases hfails
    exact hs
  cases h
  cases hstatus : s'.status id with
  | none =>
    rw [Store.status] at hstatus
    simp only [hstatus, orNotFound]
    exact hs
  | some info =>
  have hidle : info.state ≠ .running → s'.Idle id := fun hstate =>
    hvalid.idle hstatus (by rintro _ ⟨⟩; exact hstate)
  have hname := hvalid.named hstatus
  rw [Store.status] at hstatus
  simp only [hstatus, orNotFound]
  split
  · exact ⟨⟨hname, fun hstate _ => hidle hstate⟩, hs⟩
  · exact hs

lemma interrupt_ends (hP : supervised.Frame t P) :
    supervised.contract.Ends t (fun s => P s ∧ (t, id) ∈ s.doubting) (interrupt id)
      (fun info s => (info.state ≠ .running → Settled t id s) ∧ P s) P := by
  have hsteady : Steady t fun s => P s ∧ (t, id) ∈ s.doubting :=
    (frame_steady hP).and steady_doubting
  unfold interrupt
  refine .bind ((readStatus_ends hsteady).conseq (fun _ hs => hs) (fun _ _ hs => hs)
    fun _ hs => hs.1) fun info => ?_
  split
  · refine Contract.Ends.pre (P := fun s => info.id = id ∧ P s ∧ (t, id) ∈ s.doubting) ?_
      fun _ hs => ⟨hs.1.1, hs.2⟩
    have hsteady' : Steady t fun s => info.id = id ∧ P s ∧ (t, id) ∈ s.doubting :=
      (Steady.const _).and hsteady
    refine .bind (ends_plain (.attempt trivial) hsteady' fun _ hs => hs.2.1) fun now => ?_
    refine .bind (G := fun _ s => Settled t id s ∧ P s) ?_ fun _ => .pure fun _ hs => ⟨fun _ => hs.1, hs.2⟩
    apply save_ends hsteady' (frame_steady (frame_settled.and hP)) (fun _ hs => hs.2.1)
      (fun _ hs => hs.2)
    rintro s s' hvalid ⟨rfl, hs, hdoubt⟩ hrenamed
    obtain ⟨hvalid', hmild, hguar⟩ := rename_doubted hrenamed hvalid hdoubt
    refine ⟨hvalid', hguar, ?_, hP.quiet s s' hs hmild hrenamed.creation⟩
    exact fun _ => hvalid'.idle (hrenamed.status info.id) (by simp)
  · exact .pure fun _ hs => ⟨hs.1.2, hs.2.1⟩

lemma settle_calm {x : Choice} {r : settle.Resp} (hs : s.Supervised)
    (h : run t n .settle x s = some (r, s')) : supervised.Calm t n .settle s s' := by
  rcases run_cases h with ⟨-, hfails, -⟩ | ⟨-, h⟩
  · cases hfails
  cases h
  refine doubting_calm rfl hs ?_ ?_
  · exact fun u y q hu => .inl (mem_of_mem_filter hu)
  · exact fun u y hu hold => mem_filter.mpr ⟨hold, by simpa using hu⟩

lemma get_ends (hP : supervised.Frame t P) : supervised.contract.Ends t P (get id)
      (fun info s => (info.state ≠ .running → Settled t id s) ∧ P s) P := by
  unfold get
  refine .bind (readStatus_ends (frame_steady hP)) fun info => ?_
  split
  · refine Contract.Ends.pre (P := P) ?_ fun _ hs => hs.2
    refine .bind (G := fun active s => P s ∧ (active = false → (t, id) ∈ s.doubting)) ?_
      fun active => ?_
    · apply Contract.Ends.attempt hP.stable
      intro s n x r s' hvalid hs _ _ hrun
      rcases run_activeContains hrun with ⟨rfl, rfl⟩ | ⟨rfl, hnobody, rfl⟩
      · have hcalm : supervised.Calm t n (.activeContains id) s' s' := same_calm rfl hvalid .refl
        exact ⟨hcalm.valid, hcalm.guar, hcalm.starts, hs, nofun⟩
      have hcalm : supervised.Calm t n (.activeContains id) s
          { s with doubting := (t, id) :: s.doubting } := by
        refine doubting_calm rfl hvalid ?_ fun _ _ _ hold => .tail _ hold
        intro u y q hu
        rcases mem_cons.mp hu with heq | hold
        · cases heq
          exact .inr (hnobody q)
        · exact .inl hold
      exact ⟨hcalm.valid, hcalm.guar, hcalm.starts, hP.quiet _ _ hs hcalm.quiet hcalm.owner,
        fun _ => (.head _)⟩
    · cases active with
      | true => exact .pure fun s hs => ⟨fun hstate => absurd ‹_› hstate, hs.1⟩
      | false =>
        refine settling_ends ((interrupt_ends hP).pre fun _ hs => ⟨hs.1, hs.2 rfl⟩) ?_ hP ?_
        · exact fun info => frame_settled.imp.and hP
        · exact fun s n x r s' hvalid hrun => settle_calm hvalid hrun
  · exact .pure fun _ hs => ⟨hs.1.2, hs.2⟩

/-! ## The worker -/

lemma work_ends {w : Worker} (hP : Steady t P) (count : ℕ) :
    supervised.contract.Ends t P (work w count) (fun info s => info.id = w.info.id ∧ P s) P := by
  have hzero : supervised.contract.Ends t P (work w 0) (fun info s => info.id = w.info.id ∧ P s) P := by
    rw [work]
    refine plain_bind (.attempt trivial) hP fun _ => ?_
    exact .pure fun _ hs => ⟨rfl, hs⟩
  induction count with
  | zero => exact hzero
  | succ count ih =>
  rw [work]
  refine plain_bind (.attempt trivial) hP fun output => ?_
  cases output with
  | none => exact hzero
  | some bytes => exact plain_bind (.attempt trivial) hP fun _ => ih

lemma save_mine_ends (hinfo : info.id = id) :
    supervised.contract.Ends t (Mine t q fun job => job.id = id ∧ job.writing = true)
      (save info (some q)) (fun _ => Mine t q ⊤) (Mine t q ⊤) := by
  have hweaken : ∀ s, Mine t q (fun job => job.id = id ∧ job.writing = true) s →
      Mine t q ⊤ s :=
    fun s ⟨job, hjob, htask, _⟩ => ⟨job, hjob, htask, trivial⟩
  apply save_ends steady_mine steady_mine hweaken fun _ hs => hs
  rintro s s' hvalid ⟨job, hjob, htask, hid, hwriting⟩ hrenamed
  obtain ⟨hvalid', hguar⟩ := rename_mine hrenamed hvalid hjob htask (hid.trans hinfo.symm) hwriting
  refine ⟨hvalid', hguar, { job with writing := false }, ?_, htask, trivial⟩
  rw [hrenamed.jobs, if_pos rfl, hjob, map_some]

lemma retire_ends : supervised.contract.Ends t (Mine t q ⊤) (memory (.retire q))
      (fun _ => Mine t q fun job => job.writing = false) ⊤ := by
  apply ends_calm steady_mine.stable
  rintro s n x r s' hvalid ⟨job, hjob, htask, -⟩ - - hrun
  cases run_sure hrun rfl
  have hsettles : s.Settles (some q) (s.settleJob (some q)) := settleJob_settles
  have hmine : ∀ q' job', some q = some q' → s.jobs q' = some job' → job'.task = t := by
    rintro _ job' ⟨⟩ hjob'
    rw [← some.inj (hjob.symm.trans hjob'), htask]
  refine ⟨⟨⟨?_, ?_, fun u hu => hsettles.spares hmine hu, fun _ => fork_none rfl⟩,
    ⟨hsettles.idle, hsettles.held, fun _ hrunning => hrunning⟩, rfl⟩, ?_⟩
  · exact hsettles.supervised hvalid (fun q job hjob hw _ => (hvalid.writing hjob hw).2) hvalid.named
  · exact fun _ _ _ _ _ _ hstatus hchanged _ => absurd hstatus hchanged
  · exact ⟨{ job with writing := false }, by simp [settleJob, hjob], htask, rfl⟩

lemma publish_ends {w : Worker} {outcome : SessionInfo} (houtcome : outcome.id = w.info.id) :
    supervised.contract.Ends t
      (Mine t w.sequence fun job => job.id = w.info.id ∧ job.writing = true) (w.publish outcome)
      ⊤ ⊤ := by
  unfold Worker.publish
  refine .bind (ends_plain (.attempt trivial) steady_mine fun _ _ => trivial) fun now => ?_
  refine .bind (Contract.Ends.lift (save_mine_ends ?_)) fun saved => ?_
  · exact houtcome
  refine Contract.Ends.pre (P := Mine t w.sequence ⊤) ?_ ?_
  · refine .bind retire_ends fun _ => ?_
    apply ends_calm steady_mine.stable
    rintro s n x r s' hvalid ⟨job, hjob, htask, hdone⟩ - - hrun
    obtain ⟨hmild, hsame⟩ := release_mild hjob hrun
    refine ⟨⟨release_ok hvalid ?_ hrun, hmild, hsame⟩, trivial⟩
    intro job' hjob'
    rw [← some.inj (hjob.symm.trans hjob'), hdone]
  · intro s hs
    cases saved <;> exact hs

lemma worker_ends {w : Worker} : supervised.contract.Ends t
      (fun s => s.jobs w.sequence = some ⟨t, w.info.id, w.inode, true⟩) w.run
      ⊤ ⊤ := by
  unfold Worker.run
  refine Contract.Ends.pre (P := Mine t w.sequence fun job => job.id = w.info.id ∧ job.writing = true)
    ?_ fun s hs => ⟨_, hs, rfl, rfl, rfl⟩
  refine .bind (Contract.Ends.lift (work_ends steady_mine maxEvents)) fun ended => ?_
  cases ended with
  | ok info => exact fun s hs => publish_ends hs.1 s hs.2
  | error e => exact publish_ends rfl

end

/-! ## Programs with the lock -/

section
variable {β γ : Type} {P E : Store → Prop} {m : Try β}

lemma does_plain (hm : m.run.Uses plain) (hP : supervised.Firm P) :
    supervised.Does t P m (fun _ => P) P :=
  ends_plain hm (frame_steady hP.frame) fun _ hs => hs

lemma plain_then {f : β → Try γ} {F : γ → Store → Prop} (hm : m.run.Uses plain)
    (hP : supervised.Firm P) (hf : ∀ b, supervised.Does t P (f b) F P) :
    supervised.Does t P (m >>= f) F P :=
  .bind (does_plain hm hP) hf

lemma plain_any {f : β → Try γ} {F : γ → Store → Prop} (hm : m.run.Uses plain)
    (hP : supervised.Firm P) (hf : ∀ b, supervised.Does t P (f b) F ⊤) :
    supervised.Does t P (m >>= f) F ⊤ :=
  .bind ((does_plain hm hP).conseq (fun _ hs => hs) (fun _ _ hs => hs) fun _ _ => trivial) hf

lemma get_does (hP : supervised.Firm P) : supervised.Does t P (get id)
      (fun info s => (info.state ≠ .running → s.Idle id) ∧ P s) P := by
  refine (get_ends hP.frame).conseq (fun _ hs => hs) ?_ fun _ hs => hs
  exact fun info s hs => ⟨hs.2.1, fun hstate => hs.1 hstate hs.2.1, hs.2.2⟩

lemma unlinkAll_does (files : List File) :
    supervised.Does t (Store.Idle id) (unlinkAll id files) (fun _ => Store.Idle id)
      (Store.Idle id) := by
  induction files with
  | nil => exact .pure fun _ hs => hs
  | cons file rest ih =>
  rw [unlinkAll]
  refine .bind (G := fun _ => Store.Idle id) ?_ fun _ => ih
  by_cases hfile : file = .status
  · subst hfile
    apply Discipline.Does.step firm_idle
    intro s n x r s' hvalid howner hs _ _ hrun
    obtain ⟨hok, hs'⟩ := unlink_ok hvalid hs hrun
    exact ⟨hok, (run_creation rfl hrun).trans howner, by cases r <;> exact hs'⟩
  · exact does_plain (.attempt hfile) firm_idle

lemma removeDirAll_does :
    supervised.Does t (Store.Idle id) (removeDirAll id) (fun _ => Store.Idle id)
      (Store.Idle id) := by
  unfold removeDirAll
  refine plain_then (.attempt trivial) firm_idle fun files => ?_
  exact .bind (unlinkAll_does files) fun _ => does_plain (.attempt trivial) firm_idle

lemma tryExists_does : supervised.Does t ⊤ (tryExists id .status)
      (fun found s => found = false → s.Idle id) ⊤ := by
  apply Discipline.Does.step .top
  intro s n x r s' hvalid howner _ _ _ hrun
  refine ⟨(plain_calm (by trivial) hvalid hrun).toOk, (run_creation rfl hrun).trans howner, ?_⟩
  obtain rfl := run_reads rfl hrun
  rcases run_cases hrun with ⟨-, hfails, -⟩ | ⟨-, h⟩
  · cases hfails
    trivial
  cases h
  intro hfalse
  have hstatus : s'.status id = none := by
    cases hd : s'.dirs.lookup id with
    | none => simp [Store.status, hd]
    | some d => simpa [Store.status, hd, Dir.contains] using hfalse
  exact hvalid.idle hstatus (by simp)

lemma discard_does : supervised.Does t (Store.Idle id) (discard id) ⊤ ⊤ := by
  unfold discard
  refine plain_any ensure_uses firm_idle fun _ => ?_
  refine plain_any (.attempt trivial) firm_idle fun size => ?_
  refine plain_any ensure_uses firm_idle fun _ => ?_
  exact removeDirAll_does.conseq (fun _ hs => hs) (fun _ _ _ => trivial) fun _ _ => trivial

lemma collect_does (ids : List String) (found : List SessionInfo) :
    supervised.Does t ⊤ (collect ids found) ⊤ ⊤ := by
  induction ids generalizing found with
  | nil => exact .pure fun _ hs => hs
  | cons id rest ih =>
  rw [collect]
  refine .bind tryExists_does fun published => ?_
  cases published with
  | true =>
    refine Discipline.Does.pre ?_ (P := ⊤) fun _ _ => trivial
    refine .bind (get_does .top) fun info => ?_
    refine Discipline.Does.pre ?_ (P := ⊤) fun _ _ => trivial
    exact plain_then ensure_uses .top fun _ => ih _
  | false => exact .bind (discard_does.pre fun _ hs => hs rfl) fun _ => ih found

lemma listEntries_does : supervised.Does t ⊤ listEntries ⊤ ⊤ := by
  unfold listEntries
  refine plain_then (.attempt trivial) .top fun ids => ?_
  exact .bind (collect_does ids []) fun _ => .pure fun _ hs => hs

lemma supervised_locks : Locks supervised t ⊤ ⊤ where
  owner := rfl
  lock s n hvalid hfree := by
    refine ⟨⟨?_, ?_, ?_, fun _ => fork_none rfl⟩, trivial⟩
    · exact ⟨hvalid.doubts, hvalid.writing, hvalid.named, hvalid.fresh⟩
    · exact fun _ _ _ _ _ _ hstatus hchanged _ => absurd hstatus hchanged
    · exact fun u hu => ⟨fun h => h, fun hjob _ => hjob, fun hlock => absurd (some.inj hlock).symm hu⟩
  unlock s n hvalid _ _ := by
    refine ⟨?_, ?_, ?_, fun _ => fork_none rfl⟩
    · exact ⟨hvalid.doubts, hvalid.writing, hvalid.named, hvalid.fresh⟩
    · exact fun _ _ _ _ _ _ hstatus hchanged _ => absurd hstatus hchanged
    · exact fun u _ => ⟨fun h => h, fun hjob _ => hjob, nofun⟩
  firm := .const True

lemma remove_ends : supervised.contract.Ends t ⊤ (remove id) ⊤ ⊤ := by
  unfold remove
  apply supervised_locks.ends
  refine .bind ((get_does .top).conseq (fun _ hs => hs) (fun _ _ hs => hs)
    fun _ hs => hs) fun info => ?_
  refine .bind (G := fun _ => Store.Idle id) ?_ fun _ => ?_
  · unfold ensure
    split
    · exact .pure fun s hs => hs.1 (by simpa using ‹decide _ = true›)
    · exact .throw fun _ _ => trivial
  refine plain_any (.attempt trivial) firm_idle fun receipt => ?_
  refine plain_any (only_uses fun _ => ?_) firm_idle fun _ => ?_
  · unfold bury
    exact .andThen (.attempt trivial) fun _ => .andThen (.attempt trivial) fun _ => .attempt trivial
  refine plain_any (.attempt trivial) firm_idle fun _ => ?_
  refine .bind removeDirAll_does.lift fun removed => ?_
  refine Discipline.Does.pre ?_ (P := ⊤) fun _ _ => trivial
  refine plain_then (.attempt trivial) .top fun _ => ?_
  cases removed with
  | error e => exact .throw fun _ hs => hs
  | ok _ => exact does_plain (.attempt trivial) .top

end

/-! ## Starts -/

section
variable {settings : Settings} {request : SessionStartRequest} {spec : Specification}
  {isReplay : Bool} {info : SessionInfo} {E : Store → Prop}

lemma createDir_does : supervised.Does t ⊤ (Program.attempt (I := api) (.createDir id) orIo)
      (fun fresh s => fresh = true → s.Idle id) ⊤ := by
  apply Discipline.Does.step .top
  intro s n x r s' hvalid howner _ _ _ hrun
  have hsame := run_plain (by trivial) hrun
  refine ⟨(plain_calm (by trivial) hvalid hrun).toOk, (run_creation rfl hrun).trans howner, ?_⟩
  rcases run_cases hrun with ⟨-, hfails, -⟩ | ⟨-, h⟩
  · cases hfails
    trivial
  simp only [perform] at h
  split at h <;> cases h
  · rintro ⟨⟩
  · intro _
    have hstatus : s.status id = none := by simp [Store.status, ‹s.dirs.lookup id = none›]
    exact hsame.idle.mpr (hvalid.idle hstatus (by simp))

lemma registered_insert {y : String} {a : ActiveSession} {q' : ℕ}
    (h : s'.active = s.active.insert id a) :
    s'.Registered y q' ↔ if y = id then a.sequence = q' else s.Registered y q' := by
  unfold Store.Registered
  rw [h]
  split
  · rename_i hy
    subst hy
    simp
  · rw [AList.lookup_insert_ne ‹_›]

lemma register_does : supervised.Does t (Store.Idle id) (memory (.register id))
      (fun q s => s.Idle id ∧ s.Held id q) E := by
  apply Discipline.Does.step firm_idle
  intro s n x r s' hvalid howner hs _ hallowed hrun
  have hcreation := (run_creation rfl hrun).trans howner
  cases run_sure hrun rfl
  have hunborn : s.jobs s.nextSequence = none := hvalid.fresh le_rfl
  refine ⟨⟨⟨?_, ?_, hvalid.named, ?_⟩, ?_, ?_, fun _ => fork_none rfl⟩, hcreation, hs, ?_⟩
  · intro u y q hdoubt
    rw [registered_insert rfl, if_neg]
    · exact hvalid.doubts hdoubt
    · rintro rfl
      exact hallowed y rfl u hdoubt
  · intro q job hjob hwriting
    obtain ⟨hregistered, hrunning⟩ := hvalid.writing hjob hwriting
    refine ⟨?_, hrunning⟩
    rw [registered_insert rfl, if_neg]
    · exact hregistered
    · intro hid
      cases (hs q job hjob hid).symm.trans hwriting
  · exact fun hq => hvalid.fresh (Nat.le_of_succ_le hq)
  · exact fun _ _ _ _ _ _ hstatus hchanged _ => absurd hstatus hchanged
  · exact fun u _ => ⟨fun h => h, fun hjob _ => hjob, fun hlock => hlock⟩
  · exact ⟨by rw [registered_insert rfl, if_pos rfl], hunborn, Nat.lt_succ_self _⟩

def Ready (id : String) (q : ℕ) (s : Store) : Prop := s.Idle id ∧ s.Held id q ∧ s.Running id

lemma firm_ready : supervised.Firm (Ready id q) := firm_idle.and firm_running

lemma save_does {Q : Store → Prop} (hinfo : info.id = id) (hQ : supervised.Firm Q)
    (hQs : ∀ s, Q s → s.Idle id ∧ s.Held id q)
    (hrename : ∀ s s' : Store, s.Renamed info none s' → s.Idle id → s.Held id q → Q s') :
    supervised.Does t (fun s => s.Idle id ∧ s.Held id q) (save info none) (fun _ => Q)
      (fun s => s.Idle id ∧ s.Held id q) := by
  subst hinfo
  apply save_ends (frame_steady (firm_idle.and firm_held).frame) (frame_steady hQ.frame)
    (fun _ hs => hs) fun s hs => ⟨hs.1, hQs s hs.2⟩
  rintro s s' hvalid ⟨howner, hidle, hheld⟩ hrenamed
  refine ⟨hrenamed.supervised hvalid ?_, ⟨hrenamed.undisturbed ?_,
    fun u hu => hrenamed.spares nofun hu, .inl howner⟩, hrenamed.creation.trans howner,
    hrename s s' hrenamed hidle hheld⟩
  · intro q' job hjob hwriting hid
    cases (hidle q' job hjob hid).symm.trans hwriting
  · intro q' job hregistered hjob
    obtain rfl := hheld.registered.unique hregistered
    cases hheld.unborn.symm.trans hjob

lemma release_does : supervised.Does t (fun s => s.Idle id ∧ s.Held id q) (memory (.release id q))
      (fun _ => Store.Idle id) E := by
  apply Discipline.Does.step (firm_idle.and firm_held)
  rintro s n x r s' hvalid howner ⟨hidle, hheld⟩ - - hrun
  refine ⟨release_ok hvalid ?_ hrun, (run_creation rfl hrun).trans howner, ?_⟩
  · intro job hjob
    cases hheld.unborn.symm.trans hjob
  · rcases run_release hrun with rfl | ⟨-, rfl⟩ <;> exact hidle

lemma prepare_does :
    supervised.Does t (Store.Idle request.id) (prepare settings request spec isReplay)
      (fun w s => w.info.id = request.id ∧ Ready request.id w.sequence s)
      (Store.Idle request.id) := by
  unfold prepare
  refine plain_then (.attempt trivial) firm_idle fun _ => ?_
  refine plain_then (.attempt trivial) firm_idle fun inode => ?_
  refine plain_then (only_uses fun _ => .attempt trivial) firm_idle fun _ => ?_
  refine plain_then (only_uses fun _ => ?_) firm_idle fun _ => ?_
  · unfold leaveReceipt
    exact .andThen (.attempt trivial) fun _ => .andThen (.attempt trivial) fun _ => .attempt trivial
  refine plain_then (.attempt trivial) firm_idle fun now => ?_
  refine .bind register_does fun q => ?_
  refine .bind (Discipline.Does.lift (save_does (Q := Ready request.id q) ?_ firm_ready
    (fun _ hs => ⟨hs.1, hs.2.1⟩) ?_)) fun saved => ?_
  · rfl
  · exact fun s s' hrenamed hidle hheld =>
      ⟨hrenamed.idle hidle, hrenamed.held hheld, hrenamed.running_self rfl⟩
  cases saved with
  | ok _ => exact .pure fun _ hs => ⟨rfl, hs⟩
  | error e => exact .bind release_does fun _ => .throw fun _ hs => hs

lemma abandon_does {w : Worker} {e : SessionError} :
    supervised.Does t (Ready w.info.id w.sequence) (abandon w e) (fun _ _ => False)
      ⊤ := by
  unfold abandon
  refine plain_any (.attempt trivial) firm_ready fun now => ?_
  refine Discipline.Does.pre (P := fun s => s.Idle w.info.id ∧ s.Held w.info.id w.sequence) ?_
    fun _ hs => ⟨hs.1, hs.2.1⟩
  refine .bind (Discipline.Does.lift (save_does
    (Q := fun s => s.Idle w.info.id ∧ s.Held w.info.id w.sequence) ?_ (firm_idle.and firm_held)
    (fun _ hs => hs) ?_)) fun saved => ?_
  · rfl
  · exact fun s s' hrenamed hidle hheld => ⟨hrenamed.idle hidle, hrenamed.held hheld⟩
  refine .bind (release_does.pre ?_) fun _ => ?_
  · intro s hs
    cases saved <;> exact hs
  · cases saved <;> exact .throw fun _ _ => trivial

lemma accept_does {w : Worker} (hid : w.info.id = id) :
    supervised.Does t (Ready id w.sequence) (accept id spec w) (fun _ => Ready id w.sequence)
      ⊤ := by
  subst hid
  unfold accept
  refine plain_any (.attempt trivial) firm_ready fun _ => ?_
  refine plain_any (.lift (.attempt trivial)) firm_ready fun synced => ?_
  cases synced with
  | error e =>
    refine .bind (release_does.pre fun _ hs => ⟨hs.1, hs.2.1⟩) fun _ => ?_
    exact .throw fun _ _ => trivial
  | ok _ =>
  refine plain_any (.lift (.attempt trivial)) firm_ready fun spawned => ?_
  cases spawned with
  | error e => exact abandon_does.conseq (fun _ hs => hs) (fun _ _ hs => hs.elim) fun _ hs => hs
  | ok _ => exact .pure fun _ hs => hs

lemma handOver_does {w : Worker} :
    supervised.Does t (Ready w.info.id w.sequence) (memory (.handOver w)) ⊤ E := by
  apply Discipline.Does.step firm_ready
  rintro s n x r s' hvalid howner ⟨hidle, hheld, hrunning⟩ - - hrun
  have hcreation := (run_creation rfl hrun).trans howner
  cases run_sure hrun rfl
  refine ⟨⟨⟨hvalid.doubts, ?_, hvalid.named, ?_⟩, ?_, ?_, ?_⟩, hcreation, trivial⟩
  · intro q job hjob hwriting
    simp only at hjob
    by_cases hq : q = w.sequence
    · subst hq
      rw [update_self] at hjob
      cases hjob
      exact ⟨hheld.registered, hrunning⟩
    · rw [update_of_ne hq] at hjob
      exact hvalid.writing hjob hwriting
  · intro q hq
    have hne : q ≠ w.sequence := by
      rintro rfl
      exact absurd hheld.issued (Nat.not_lt.mpr hq)
    simpa [update_of_ne hne] using hvalid.fresh hq
  · exact fun _ _ _ _ _ _ hstatus hchanged _ => absurd hstatus hchanged
  · refine fun u _ => ⟨fun h => h, ?_, fun hlock => hlock⟩
    intro q job hjob _
    have hne : q ≠ w.sequence := by
      rintro rfl
      cases hheld.unborn.symm.trans hjob
    simpa [update_of_ne hne] using hjob
  · rintro p ⟨⟩
    exact ⟨w, rfl, update_self ..⟩

lemma create_does : supervised.Does t ⊤ (create settings request spec isReplay) ⊤
      ⊤ := by
  unfold create
  refine plain_then (.attempt trivial) .top fun _ => ?_
  refine .bind createDir_does fun fresh => ?_
  refine .bind (G := fun _ => Store.Idle request.id) ?_ fun _ => ?_
  · unfold ensure
    split
    · exact .pure fun s hs => hs ‹_›
    · exact .throw fun _ _ => trivial
  refine .bind prepare_does.lift fun prepared => ?_
  cases prepared with
  | error e => exact .bind removeDirAll_does.lift fun _ => .throw fun _ _ => trivial
  | ok w =>
  intro s ⟨howner, hid, hready⟩
  refine Discipline.Does.bind (G := fun _ => Ready w.info.id w.sequence) ?_ (fun _ => ?_) s
    ⟨howner, hid.symm ▸ hready⟩
  · cases isReplay with
    | true => exact only_true _ ▸ hid ▸ accept_does rfl
    | false => exact only_false _ ▸ .pure fun _ hs => hs
  · exact .bind handOver_does fun _ => .pure fun _ hs => hs

lemma countReceipts_uses (sessions : List SessionInfo) :
    (countReceipts sessions).run.Uses plain := by
  induction sessions with
  | nil => exact .attempt trivial
  | cons session rest ih =>
    rw [countReceipts]
    exact .andThen (.attempt trivial) fun _ => .andThen ih fun _ => trivial

lemma checkLimits_uses {sessions : List SessionInfo} : (checkLimits sessions isReplay).run.Uses plain := by
  unfold checkLimits
  refine .andThen (only_uses fun _ => ?_) fun _ => .andThen (.attempt trivial) fun _ =>
    .andThen ensure_uses fun _ => ensure_uses
  unfold reserve
  exact .andThen (countReceipts_uses sessions) fun _ => ensure_uses

lemma replay_does : supervised.Does t ⊤ (replay settings id spec) ⊤
      ⊤ := by
  unfold replay
  refine plain_then (.attempt trivial) .top fun removed => ?_
  refine plain_then ensure_uses .top fun _ => ?_
  refine plain_then (.attempt trivial) .top fun known => ?_
  split
  · refine plain_then (.attempt trivial) .top fun contents => ?_
    refine plain_then ensure_uses .top fun _ => ?_
    exact .bind (get_does .top) fun _ => .pure fun _ _ => trivial
  · exact .pure fun _ hs => hs

lemma startLocked_does : supervised.Does t ⊤ (startLocked settings request spec isReplay)
      ⊤ ⊤ := by
  unfold startLocked
  refine plain_then ensure_uses .top fun _ => ?_
  refine .bind listEntries_does fun sessions => ?_
  refine plain_then ensure_uses .top fun _ => ?_
  have hcreate : supervised.Does t ⊤
      (checkLimits sessions isReplay >>= fun _ => create settings request spec isReplay)
      ⊤ ⊤ :=
    plain_then checkLimits_uses .top fun _ => create_does
  split
  · refine .bind replay_does fun earlier => ?_
    cases earlier with
    | some info => exact .pure fun _ hs => hs
    | none => exact hcreate
  · exact hcreate

lemma startOwned_ends {defaultTimeout : UInt64} : supervised.contract.Ends t ⊤
      (startOwned settings request defaultTimeout isReplay) ⊤ ⊤ := by
  unfold startOwned
  refine plain_bind ensure_uses (.const True) fun _ => ?_
  apply supervised_locks.ends
  refine .bind startLocked_does fun info => ?_
  refine plain_then (only_uses fun _ => .attempt trivial) .top fun _ => ?_
  exact .pure fun _ hs => hs

end

lemma supervised_respects (settings : Settings) :
    supervised.contract.Respects (Request.body settings) where
  call := by
    intro request t s _ _
    have hget : ∀ id, supervised.contract.Ends t ⊤ (Session.get id)
        ⊤ ⊤ := fun id =>
      (get_ends (.const True)).conseq (fun _ hs => hs) (fun _ _ _ => trivial) fun _ hs => hs
    cases request with
    | start request defaultTimeout => exact answering_keeps startOwned_ends
    | startReplay request defaultTimeout => exact answering_keeps startOwned_ends
    | get id => exact answering_keeps (hget id)
    | events id | cancel id =>
      apply answering_keeps
      refine .bind (hget id) fun _ => ?_
      exact plain_bind (.attempt trivial) (.const True) fun _ => .pure fun _ hs => hs
    | list => exact answering_keeps (supervised_locks.ends listEntries_does)
    | remove id => exact answering_keeps remove_ends
  fork := by
    rintro p t s ⟨w, rfl, hjob⟩ _
    unfold answering
    apply Contract.keeps.bind
    exact (worker_ends s hjob).mono fun _ _ _ => trivial
  crash s _ h := ⟨nofun, nofun, h.named, fun _ => rfl⟩

end Alive

/-- Whoever registers a session finds nobody who is about to declare it dead. -/
def Prudent (c : Agent) : Event → Prop
  | .run t _ => ∀ a next, c.tasks[t]? = some (.act a next) → Undoubted a c.shared
  | _ => True

/-- In a run where nobody registers a doubted session, a live one is never declared dead by anyone
but its worker. -/
theorem live_session_undisturbed {settings : Settings} {events : List Event} {c c' : Agent}
    {t : ℕ} {x : Choice} (hrun : ((interleaved settings).when Prudent).Run ⟨{}, []⟩ events c)
    (hstep : ((interleaved settings).when Prudent).step c (.run t x) c') :
    Undisturbed t c.shared c'.shared := by
  have hconsidered : ∀ c e, Prudent c e → supervised.contract.Considered c e := by
    intro c e he
    cases e with
    | run t x => exact he
    | call r => trivial
    | crash => trivial
  have hrun' : ((interleaved settings).when supervised.contract.Considered).Run ⟨{}, []⟩ events c :=
    hrun.weaken (I := fun _ => True) trivial fun c e c' _ hstep =>
      ⟨trivial, hconsidered c e hstep.2⟩
  have hstart : supervised.contract.Sound ⟨{}, []⟩ := ⟨⟨nofun, nofun, nofun, fun _ => rfl⟩, nofun⟩
  have hsound := (Alive.supervised_respects settings).sound hrun' hstart
  obtain ⟨hstep, hprudent⟩ := hstep
  obtain ⟨p, hp, hperform⟩ := bind_eq_some_iff.mp hstep
  exact (hsound.perform (Alive.supervised_respects settings) hp (hconsidered c _ hprudent) hperform).2.1

/-- A reader sees the first session run and finds it gone from the map; the session is removed and
started again before the reader looks a second time. -/
def doubtful : List Event :=
  .call (.start sampleRequest 600) :: steps 0 16 ++ .call (.get sampleId) :: steps 2 1 ++
  steps 1 9 ++ steps 2 1 ++ .call (.remove sampleId) :: steps 3 4 ++
  .run 3 { files := [.status, .log] } :: steps 3 6 ++ .call (.start sampleRequest 600) ::
  steps 4 16 ++ steps 2 4

theorem reader_disturbs_live_session :
    ∃ c c', (interleaved sampleSettings).Run ⟨{}, []⟩ doubtful c ∧
      (interleaved sampleSettings).step c (.run 2 {}) c' ∧
      ¬Undisturbed 2 c.shared c'.shared := by
  have hrun : ∃ c, (interleaved sampleSettings).Run ⟨{}, []⟩ doubtful c ∧
      c.shared.active.lookup sampleId = some ⟨1, true⟩ ∧
      c.shared.jobs 1 = some ⟨5, sampleId, 1, true⟩ ∧
      (c.shared.status sampleId).any (·.state = .running) ∧
      (agent.step (Request.body sampleSettings) c (.run 2 {})).any fun c' =>
        (c'.shared.status sampleId).any (·.state = .interrupted) := by
    apply Machine.exists_run_ofStep
    decide +kernel
  obtain ⟨c, hrun, hactive, hjob, hbefore, hafter⟩ := hrun
  obtain ⟨c', hstep, hstatus⟩ := (Option.any_eq_true _ _).mp hafter
  obtain ⟨info, hinfo, hstate⟩ := (Option.any_eq_true _ _).mp hstatus
  obtain ⟨old, hold, hrunning⟩ := (Option.any_eq_true _ _).mp hbefore
  refine ⟨c, c', hrun, hstep, fun hundisturbed => ?_⟩
  have htask := hundisturbed sampleId 1 _ info ⟨_, hactive, rfl⟩ hjob hinfo
  have hchanged : c.shared.status sampleId ≠ some info := by
    rintro hsame
    obtain rfl := some.inj (hold.symm.trans hsame)
    simp_all
  cases htask hchanged (of_decide_eq_true hstate)

def prudent (c : Agent) : Event → Bool
  | .run t _ =>
    match c.tasks[t]? with
    | some (.act (.register id) _) => c.shared.doubting.all (·.2 ≠ id)
    | _ => true
  | _ => true

lemma prudent_sound (c : Agent) (e : Event) (h : prudent c e = true) : Prudent c e := by
  cases e with
  | run t x =>
    rintro a next htask id rfl u hu
    simp only [prudent, htask, List.all_eq_true] at h
    simpa using h _ hu
  | call r => trivial
  | crash => trivial

/-- A session whose worker publishes that it failed. -/
theorem failing_worker_undisturbed :
    ∃ c c', ((interleaved sampleSettings).when Prudent).Run ⟨{}, []⟩
      (.call (.start sampleRequest 600) :: steps 0 16 ++ steps 1 1 ++
        .run 1 { outcome := (.failed, none, false) } :: steps 1 3) c ∧
      ((interleaved sampleSettings).when Prudent).step c (.run 1 {}) c' ∧
      (c'.shared.status sampleId).any (·.state = .interrupted) ∧
      Undisturbed 1 c.shared c'.shared := by
  obtain ⟨c, hrun, hprudent, hafter⟩ : ∃ c, ((interleaved sampleSettings).when Prudent).Run ⟨{}, []⟩
      (.call (.start sampleRequest 600) :: steps 0 16 ++ steps 1 1 ++
        .run 1 { outcome := (.failed, none, false) } :: steps 1 3) c ∧
      prudent c (.run 1 {}) ∧
      (agent.step (Request.body sampleSettings) c (.run 1 {})).any fun c' =>
        (c'.shared.status sampleId).any (·.state = .interrupted) := by
    apply Machine.exists_run_when prudent prudent_sound
    decide +kernel
  obtain ⟨c', hstep, hstatus⟩ := (Option.any_eq_true _ _).mp hafter
  have hlast : ((interleaved sampleSettings).when Prudent).step c (.run 1 {}) c' :=
    ⟨hstep, prudent_sound c _ hprudent⟩
  exact ⟨c, c', hrun, hlast, hstatus, live_session_undisturbed hrun hlast⟩

end Husker.Session
