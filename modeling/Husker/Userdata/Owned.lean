import Husker.Userdata.Calls

/-! # One task for each claim

A VM has at most one task, and none while its script may be claimed.  This is kept by every
operation on the store, the registry and the tasks, under what its caller knows.
-/
namespace Husker.Userdata
open Relational Store Option AList Nat Tasks

variable {ι : Type} {other : ι} {outcome : Outcome}

namespace Host

def Free (h : Host ι) (vm : ι) : Prop := ∀ t a, h.execs t = some a → a.vm ≠ vm

def Alone (h : Host ι) (vm : ι) (handle : ℕ) : Prop :=
  ∀ t a, h.execs t = some a → a.vm = vm → t = handle

variable {h h' : Host ι} {vm : ι} {handle t : ℕ} {expected next : UserdataStatus}
    {a : Exec ι}

lemma Alone.free (halone : h.Alone vm handle) (hover : h.execs handle = none) : h.Free vm := by
  intro t a ha hvm
  rw [halone t a ha hvm] at ha
  simp [ha] at hover

variable [DecidableEq ι]

def job (h : Host ι) (vm : ι) : Option UserdataJob := h.registry.jobs.lookup vm

variable {job : UserdataJob}

structure Owned (h : Host ι) : Prop where
  fresh : ∀ {t a}, h.execs t = some a → t < h.spawned
  single : ∀ {t u a b}, h.execs t = some a → h.execs u = some b → a.vm = b.vm → t = u
  claimed : ∀ {t a}, h.execs t = some a → h.status a.vm ≠ some .pending
  registered : ∀ {t a job}, h.execs t = some a → h.job a.vm = some job → job.handle = t
  listed : ∀ {vm job}, h.job vm = some job → job.handle < h.spawned
  unstarted : ∀ {t a}, h.execs t = some a → a.started = false →
    h.status a.vm = some .running ∨ h.status a.vm = some .interrupted ∨ h.rows a.vm = none
  unarmed : ∀ {t a}, h.execs t = some a → a.stage = .leaving → a.armed = true → h.rows a.vm = none
  closed : h.registry.accepting = false → h.registry.jobs = ∅

lemma Owned.start (rows : ι → Option VmRow) : (Core.start rows).host.Owned where
  fresh := nofun
  single := nofun
  claimed := nofun
  registered := nofun
  listed := by
    intro vm job hjob
    simp [Core.start, Host.job] at hjob
  unstarted := nofun
  unarmed := nofun
  closed := nofun

lemma Owned.alone (howned : h.Owned) (hjob : h.job vm = some job) : h.Alone vm job.handle := by
  rintro t a ha rfl
  exact (howned.registered ha hjob).symm

/-! ## Rows -/

lemma transitionUserdataStatus_rest (h : Host ι) (vm : ι) (expected next : UserdataStatus) :
    ∃ rows, (h.transitionUserdataStatus vm expected next).1 = { h with rows } := by
  unfold transitionUserdataStatus
  split
  · exact ⟨_, rfl⟩
  · split
    · exact ⟨_, rfl⟩
    · exact ⟨_, rfl⟩

@[simp] lemma transitionUserdataStatus_registry (h : Host ι) (vm : ι)
    (expected next : UserdataStatus) :
    (h.transitionUserdataStatus vm expected next).1.registry = h.registry := by
  obtain ⟨rows, hrows⟩ := h.transitionUserdataStatus_rest vm expected next
  rw [hrows]

lemma transitionUserdataStatus_status (h : Host ι) (vm : ι) (expected next : UserdataStatus)
    (other : ι) : (h.transitionUserdataStatus vm expected next).1.status other =
      if other = vm ∧ h.status vm = some expected then some next else h.status other := by
  unfold transitionUserdataStatus
  split
  case h_1 hrow => simp [status, hrow]
  case h_2 row hrow =>
    have hstatus : h.status vm = row.userdataStatus := by simp [status, hrow]
    rw [hstatus]
    by_cases hmatch : row.userdataStatus = some expected
    · by_cases hvm : other = vm
      · simp [hmatch, hvm, status, setRow]
      · simp [hmatch, hvm, status, setRow]
    · simp [hmatch]

lemma transitionUserdataStatus_rows (h : Host ι) (vm : ι) (expected next : UserdataStatus)
    (other : ι) :
    (h.transitionUserdataStatus vm expected next).1.rows other = none ↔ h.rows other = none := by
  unfold transitionUserdataStatus
  split
  case h_1 => rfl
  case h_2 row hrow =>
    split
    · by_cases hvm : other = vm
      · simp [setRow, hvm, hrow]
      · simp [setRow, hvm]
    · rfl

lemma transitionUserdataStatus_error {e : StateError ι}
    (hcas : h.transitionUserdataStatus vm expected next = (h', .error e)) :
    h' = h ∧ h.rows vm = none := by
  unfold transitionUserdataStatus at hcas
  split at hcas
  case h_1 hrow =>
    obtain ⟨rfl, -⟩ := Prod.mk.inj hcas
    exact ⟨rfl, hrow⟩
  case h_2 => split at hcas <;> simp at hcas

/-! ## Operations that claim nothing -/

/-- What an operation leaves as it was: no task and no registration is new. -/
structure Evolves (h h' : Host ι) : Prop where
  owned : h'.Owned
  execs : ∀ {t a'}, h'.execs t = some a' → ∃ a, h.execs t = some a ∧ a.vm = a'.vm
  jobs : ∀ {vm job}, h'.job vm = some job → h.job vm = some job
  spawned : h'.spawned = h.spawned
  accepting : h.registry.accepting = false → h'.registry.accepting = false

lemma Evolves.refl (howned : h.Owned) : h.Evolves h := ⟨howned, fun ha => ⟨_, ha, rfl⟩, id, rfl, id⟩

lemma Evolves.trans {h₁ h₂ h₃ : Host ι} (h : h₁.Evolves h₂) (h' : h₂.Evolves h₃) :
    h₁.Evolves h₃ where
  owned := h'.owned
  execs := by
    intro t a ha
    obtain ⟨b, hb, hvm⟩ := h'.execs ha
    obtain ⟨a₀, ha₀, hvm₀⟩ := h.execs hb
    exact ⟨a₀, ha₀, hvm₀.trans hvm⟩
  jobs hjob := h.jobs (h'.jobs hjob)
  spawned := h'.spawned.trans h.spawned
  accepting hclosed := h'.accepting (h.accepting hclosed)

lemma Evolves.free (hev : h.Evolves h') (hfree : h.Free vm) : h'.Free vm := by
  intro t a' ha' hvm
  obtain ⟨a, ha, hsame⟩ := hev.execs ha'
  exact hfree t a ha (hsame.trans hvm)

lemma Evolves.alone (hev : h.Evolves h') (halone : h.Alone vm handle) : h'.Alone vm handle := by
  intro t a' ha' hvm
  obtain ⟨a, ha, hsame⟩ := hev.execs ha'
  exact halone t a ha (hsame.trans hvm)

variable {h : Host ι}

/-- New rows suit the tasks when no status is put back to pending under one and none of those
that have not started is told an end. -/
lemma Owned.rewrite (howned : h.Owned) {rows : ι → Option VmRow}
    (hclaimed : ∀ t a, h.execs t = some a → { h with rows }.status a.vm ≠ some .pending)
    (hunstarted : ∀ t a, h.execs t = some a → a.started = false →
      { h with rows }.status a.vm = some .running ∨ { h with rows }.status a.vm = some .interrupted ∨
        rows a.vm = none)
    (hgone : ∀ vm, h.rows vm = none → rows vm = none) : h.Evolves { h with rows } where
  owned :=
    { fresh := howned.fresh
      single := howned.single
      claimed := hclaimed _ _
      registered := howned.registered
      listed := howned.listed
      unstarted := hunstarted _ _
      unarmed := fun ha hstage harmed => hgone _ (howned.unarmed ha hstage harmed)
      closed := howned.closed }
  execs ha := ⟨_, ha, rfl⟩
  jobs := id
  spawned := rfl
  accepting := id

lemma Owned.transition (howned : h.Owned) (hpending : next = .pending → h.Free vm)
    (hunstarted : ∀ t a, h.execs t = some a → a.vm = vm → a.started = false → next = .interrupted) :
    h.Evolves (h.transitionUserdataStatus vm expected next).1 := by
  obtain ⟨rows, hrows⟩ := h.transitionUserdataStatus_rest vm expected next
  have hstatus := h.transitionUserdataStatus_status vm expected next
  have hnone := h.transitionUserdataStatus_rows vm expected next
  rw [hrows] at hstatus hnone ⊢
  apply howned.rewrite
  · intro t a ha
    rw [hstatus]
    split
    case isTrue hmatch =>
      intro heq
      exact hpending (some.inj heq) t a ha hmatch.1
    case isFalse => exact howned.claimed ha
  · intro t a ha hstart
    rw [hstatus]
    split
    case isTrue hmatch => exact .inr (.inl (congrArg some (hunstarted t a ha hmatch.1 hstart)))
    case isFalse => exact (howned.unstarted ha hstart).imp_right fun h => h.imp_right (hnone _).mpr
  · exact fun other => (hnone other).mpr

lemma Owned.interrupt (howned : h.Owned) (vm : ι) (expected : UserdataStatus) :
    h.Evolves (h.transitionUserdataStatus vm expected .interrupted).1 :=
  howned.transition nofun fun _ _ _ _ _ => rfl

lemma Owned.reopen (howned : h.Owned) (hfree : h.Free vm) :
    h.Evolves (h.transitionUserdataStatus vm .running .pending).1 :=
  howned.transition (fun _ => hfree) fun t a ha hvm => absurd hvm (hfree t a ha)

lemma setState_status (h : Host ι) (vm : ι) (state : VmLifecycleState) (other : ι) :
    (h.setState vm state).status other = h.status other := by
  by_cases hvm : other = vm
  · subst hvm
    cases hrow : h.rows other <;> simp [setState, setRow, status, hrow]
  · simp [setState, setRow, status, hvm]

lemma Owned.setState (howned : h.Owned) (vm : ι) (state : VmLifecycleState) :
    h.Evolves (h.setState vm state) := by
  have hnone : ∀ other, h.rows other = none → (h.setState vm state).rows other = none := by
    intro other hrow
    by_cases hvm : other = vm
    · subst hvm
      simp [Host.setState, setRow, hrow]
    · simpa [Host.setState, setRow, hvm] using hrow
  apply howned.rewrite
  · intro t a ha
    exact (h.setState_status vm state a.vm).symm ▸ howned.claimed ha
  · intro t a ha hstart
    have hstatus := h.setState_status vm state a.vm
    rcases howned.unstarted ha hstart with hrun | hint | hgone
    · exact .inl (hstatus.trans hrun)
    · exact .inr (.inl (hstatus.trans hint))
    · exact .inr (.inr (hnone _ hgone))
  · exact hnone

lemma Owned.retire (howned : h.Owned) (vm : ι) : h.Evolves (h.setRow vm none) := by
  apply howned.rewrite
  · intro t a ha
    by_cases hvm : a.vm = vm
    · simp [status, hvm]
    · simpa [status, hvm] using howned.claimed ha
  · intro t a ha hstart
    by_cases hvm : a.vm = vm
    · simp [hvm]
    · simpa [status, hvm] using howned.unstarted ha hstart
  · intro other hrow
    by_cases hvm : other = vm
    · simp [hvm]
    · simpa [hvm] using hrow

/-! ## The registry -/

lemma Owned.unregister (howned : h.Owned) {registry : UserdataJobs ι}
    (hjobs : ∀ vm job, registry.jobs.lookup vm = some job → h.job vm = some job)
    (haccepting : h.registry.accepting = false → registry.accepting = false)
    (hclosed : registry.accepting = false → registry.jobs = ∅) : h.Evolves { h with registry } where
  owned :=
    { fresh := howned.fresh
      single := howned.single
      claimed := howned.claimed
      registered := fun ha hjob => howned.registered ha (hjobs _ _ hjob)
      listed := fun hjob => howned.listed (hjobs _ _ hjob)
      unstarted := howned.unstarted
      unarmed := howned.unarmed
      closed := hclosed }
  execs ha := ⟨_, ha, rfl⟩
  jobs hjob := hjobs _ _ hjob
  spawned := rfl
  accepting := haccepting

lemma lookup_erase_eq_some {jobs : AList fun _ : ι => UserdataJob} (hjob : (jobs.erase vm).lookup other = some job) :
    other ≠ vm ∧ jobs.lookup other = some job := by
  by_cases hvm : other = vm
  · subst hvm
    simp at hjob
  · exact ⟨hvm, by rwa [lookup_erase_ne hvm] at hjob⟩

lemma Owned.erase (howned : h.Owned) (vm : ι) :
    h.Evolves { h with registry := { h.registry with jobs := h.registry.jobs.erase vm } } := by
  apply howned.unregister
  · exact fun other job hjob => (lookup_erase_eq_some hjob).2
  · exact id
  · intro hclosed
    rw [howned.closed hclosed]
    rfl

lemma Owned.take (howned : h.Owned) (vm : ι) :
    h.Evolves { h with registry := (h.registry.take vm).1 } := howned.erase vm

lemma Owned.removeIfCurrent (howned : h.Owned) (vm : ι) (token : UInt64) :
    h.Evolves { h with registry := (h.registry.removeIfCurrent vm token).1 } := by
  unfold UserdataJobs.removeIfCurrent
  split
  · split
    · exact howned.erase vm
    · exact .refl howned
  · exact .refl howned

lemma removeIfCurrent_lookup_ne (u : UserdataJobs ι) (token : UInt64) (hne : other ≠ vm) :
    (u.removeIfCurrent vm token).1.jobs.lookup other = u.jobs.lookup other := by
  unfold UserdataJobs.removeIfCurrent
  split
  · split
    · exact lookup_erase_ne hne
    · rfl
  · rfl

lemma Owned.closeAndTakeAll (howned : h.Owned) :
    h.Evolves { h with registry := h.registry.closeAndTakeAll.1 } := by
  apply howned.unregister
  · intro vm job hjob
    simp [UserdataJobs.closeAndTakeAll] at hjob
  · exact fun _ => rfl
  · exact fun _ => rfl

/-! ## Tasks -/

lemma Owned.setExec (howned : h.Owned) {a' : Exec ι} (ha : h.execs t = some a)
    (hvm : a'.vm = a.vm) (hstarted : a'.started = false → a.started = false)
    (hunarmed : a'.stage = .leaving → a'.armed = true → h.rows a.vm = none) :
    h.Evolves (h.setExec t a') := by
  have hback : ∀ {u b'}, (h.setExec t a').execs u = some b' →
      ∃ b, h.execs u = some b ∧ b.vm = b'.vm ∧ (b'.started = false → b.started = false) ∧
        (b'.stage = .leaving → b'.armed = true → h.rows b.vm = none) := by
    intro u b' hb'
    rcases set_eq_some hb' with ⟨rfl, rfl⟩ | ⟨-, hb⟩
    · exact ⟨a, ha, hvm.symm, hstarted, hunarmed⟩
    · exact ⟨b', hb, rfl, id, howned.unarmed hb⟩
  refine ⟨⟨?_, ?_, ?_, ?_, howned.listed, ?_, ?_, howned.closed⟩, ?_, id, rfl, id⟩
  · intro u b' hb'
    obtain ⟨b, hb, -⟩ := hback hb'
    exact howned.fresh hb
  · intro u v b' d' hb' hd' hsame
    obtain ⟨b, hb, hbvm, -⟩ := hback hb'
    obtain ⟨d, hd, hdvm, -⟩ := hback hd'
    exact howned.single hb hd (hbvm.trans (hsame.trans hdvm.symm))
  · intro u b' hb'
    obtain ⟨b, hb, hbvm, -⟩ := hback hb'
    exact hbvm ▸ howned.claimed hb
  · intro u b' job hb' hjob
    obtain ⟨b, hb, hbvm, -⟩ := hback hb'
    exact howned.registered hb (hbvm ▸ hjob)
  · intro u b' hb' hstart
    obtain ⟨b, hb, hbvm, hbstart, -⟩ := hback hb'
    exact hbvm ▸ howned.unstarted hb (hbstart hstart)
  · intro u b' hb' hstage harmed
    obtain ⟨b, hb, hbvm, -, hbgone⟩ := hback hb'
    exact hbvm ▸ hbgone hstage harmed
  · intro u b' hb'
    obtain ⟨b, hb, hbvm, -⟩ := hback hb'
    exact ⟨b, hb, hbvm⟩

omit [DecidableEq ι] in
@[simp] lemma abort_registry (h : Host ι) (handle : ℕ) :
    (h.abort handle).registry = h.registry := by
  unfold Host.abort
  split <;> rfl

lemma Owned.abort (howned : h.Owned) (handle : ℕ) : h.Evolves (h.abort handle) := by
  unfold Host.abort
  split
  case h_1 a ha => exact howned.setExec ha rfl id fun hstage harmed => howned.unarmed ha hstage harmed
  case h_2 => exact .refl howned

lemma Owned.send (howned : h.Owned) (hsend : h.send handle = some h') : h.Evolves h' := by
  obtain ⟨a, ha, rfl⟩ := map_eq_some_iff.mp hsend
  exact howned.setExec ha rfl id fun hstage harmed => howned.unarmed ha hstage harmed

omit [DecidableEq ι] in
lemma send_registry (hsend : h.send handle = some h') : h'.registry = h.registry := by
  obtain ⟨a, -, rfl⟩ := map_eq_some_iff.mp hsend
  rfl

lemma Owned.endExec (howned : h.Owned) (t : ℕ) : h.Evolves (h.endExec t) where
  owned :=
    { fresh := fun ha => howned.fresh (clear_eq_some ha).2
      single := fun ha hb => howned.single (clear_eq_some ha).2 (clear_eq_some hb).2
      claimed := fun ha => howned.claimed (clear_eq_some ha).2
      registered := fun ha => howned.registered (clear_eq_some ha).2
      listed := howned.listed
      unstarted := fun ha => howned.unstarted (clear_eq_some ha).2
      unarmed := fun ha => howned.unarmed (clear_eq_some ha).2
      closed := howned.closed }
  execs ha := ⟨_, (clear_eq_some ha).2, rfl⟩
  jobs := id
  spawned := rfl
  accepting := id

lemma Owned.finish (howned : h.Owned) {status : UserdataStatus}
    (ha : h.execs t = some a) (hstarted : a.started = true) (hstatus : status ≠ .pending) :
    ∃ rows armed recorded, h.finish a status = ({ h with rows }, { a with armed }, recorded) ∧
      h.Evolves { h with rows } ∧ (armed = true → rows a.vm = none) := by
  have hev : h.Evolves (h.transitionUserdataStatus a.vm .running status).1 := by
    apply howned.transition
    · exact fun hpending => absurd hpending hstatus
    · intro u b hb hvm hstart
      have hub := howned.single hb ha hvm
      subst hub
      simp [some.inj (hb.symm.trans ha), hstarted] at hstart
  obtain ⟨rows, hrows⟩ := h.transitionUserdataStatus_rest a.vm .running status
  unfold Host.finish
  split
  case h_1 h' recorded hcas =>
    rw [hcas] at hrows hev
    subst hrows
    exact ⟨rows, false, recorded, rfl, hev, nofun⟩
  case h_2 h' e hcas =>
    obtain ⟨rfl, hgone⟩ := transitionUserdataStatus_error hcas
    exact ⟨h'.rows, a.armed, false, rfl, .refl howned, fun _ => hgone⟩

lemma dropGuard_execs (h : Host ι) (a : Exec ι) : (h.dropGuard a).execs = h.execs := by
  unfold Host.dropGuard
  split
  · obtain ⟨rows, hrows⟩ := h.transitionUserdataStatus_rest a.vm .running .pending
    rw [hrows]
  · rfl

lemma Owned.dropGuard (howned : h.Owned)
    (hfree : h.Free a.vm ∨ (a.armed = true → h.rows a.vm = none)) : h.Evolves (h.dropGuard a) := by
  unfold Host.dropGuard
  split
  case isFalse => exact .refl howned
  case isTrue harmed =>
    rcases hfree with hfree | hgone
    · exact howned.reopen hfree
    · have hsame : (h.transitionUserdataStatus a.vm .running .pending).1 = h := by
        simp [transitionUserdataStatus, hgone harmed]
      rw [hsame]
      exact .refl howned

lemma Owned.poll (howned : h.Owned) (hpoll : h.poll t outcome = some h') : h.Evolves h' := by
  unfold Host.poll at hpoll
  split at hpoll
  case h_1 => cases hpoll
  case h_2 a ha =>
    cases hstage : a.stage with
    | parked =>
      simp only [hstage, some.injEq] at hpoll
      subst hpoll
      split
      · exact howned.endExec t
      · exact howned.setExec ha rfl (fun _ => by simp [Exec.started, hstage]) nofun
    | polled =>
      simp only [hstage, some.injEq] at hpoll
      subst hpoll
      refine howned.setExec ha rfl (fun _ => by simp [Exec.started, hstage]) ?_
      intro hleaving
      dsimp only at hleaving
      split at hleaving <;> cases hleaving
    | executing =>
      have hstarted : a.started = true := by simp [Exec.started, hstage]
      cases outcome with
      | exit code =>
        have hstatus : (if code = 0 then .completed else .failed) ≠ UserdataStatus.pending := by
          split <;> nofun
        obtain ⟨rows, armed, recorded, hfinish, hev, hgone⟩ := howned.finish ha hstarted hstatus
        simp only [hstage, hfinish, some.injEq] at hpoll
        subst hpoll
        apply hev.trans
        refine hev.owned.setExec (show _ = some a from ha) rfl ?_ ?_
        · intro hunstarted
          simp only [Exec.started] at hunstarted
          cases recorded <;> cases hunstarted
        · exact fun _ harmed => hgone harmed
      | error =>
        simp only [hstage, some.injEq] at hpoll
        subst hpoll
        exact howned.setExec ha rfl nofun nofun
      | cancelled =>
      simp only [hstage, ite_none_right_eq_some, some.injEq] at hpoll
      obtain ⟨-, rfl⟩ := hpoll
      have hend := howned.endExec t
      apply hend.trans
      apply hend.owned.dropGuard
      left
      intro u b hb hvm
      obtain ⟨hne, hb⟩ := clear_eq_some hb
      exact hne (howned.single hb ha hvm)
    | refinish =>
      have hstarted : a.started = true := by simp [Exec.started, hstage]
      obtain ⟨rows, armed, recorded, hfinish, hev, hgone⟩ :=
        howned.finish ha hstarted (show UserdataStatus.failed ≠ .pending from nofun)
      simp only [hstage, hfinish, some.injEq] at hpoll
      subst hpoll
      apply hev.trans
      exact hev.owned.setExec (show _ = some a from ha) rfl nofun fun _ harmed => hgone harmed
    | leaving =>
      simp only [hstage, some.injEq] at hpoll
      subst hpoll
      have hdrop := howned.dropGuard (.inr (howned.unarmed ha hstage))
      have hsame : (h.dropGuard a).execs t = some a := by rwa [dropGuard_execs]
      exact hdrop.trans (hdrop.owned.setExec hsame rfl nofun nofun)
    | finished =>
      simp only [hstage, some.injEq] at hpoll
      subst hpoll
      exact (howned.endExec t).trans ((howned.endExec t).owned.removeIfCurrent a.vm a.token)

@[simp] lemma finish_registry (h : Host ι) (a : Exec ι) (status : UserdataStatus) :
    (h.finish a status).1.registry = h.registry := by
  have hregistry := h.transitionUserdataStatus_registry a.vm .running status
  unfold Host.finish
  split
  case h_1 heq => simpa [heq] using hregistry
  case h_2 heq => simpa [heq] using hregistry

@[simp] lemma dropGuard_registry (h : Host ι) (a : Exec ι) :
    (h.dropGuard a).registry = h.registry := by
  unfold Host.dropGuard
  split
  · exact h.transitionUserdataStatus_registry ..
  · rfl

lemma Owned.poll_keeps (howned : h.Owned) (hpoll : h.poll t outcome = some h')
    (hjob : h.job vm = some job) : h'.job vm = some job ∨ t = job.handle := by
  have hsame : h'.registry = h.registry → h'.job vm = some job ∨ t = job.handle := by
    intro hregistry
    left
    rwa [Host.job, hregistry]
  unfold Host.poll at hpoll
  split at hpoll
  case h_1 => cases hpoll
  case h_2 a ha =>
    cases hstage : a.stage <;> simp only [hstage, some.injEq] at hpoll
    case executing =>
      cases outcome <;> simp only [ite_none_right_eq_some, some.injEq] at hpoll
      case exit code =>
        subst hpoll
        exact hsame (finish_registry ..)
      case error =>
        subst hpoll
        exact hsame rfl
      case cancelled =>
        obtain ⟨-, rfl⟩ := hpoll
        exact hsame (dropGuard_registry ..)
    all_goals subst hpoll
    case parked => exact hsame (by split <;> rfl)
    case polled => exact hsame rfl
    case refinish => exact hsame (finish_registry ..)
    case leaving => exact hsame (dropGuard_registry ..)
    case finished =>
      by_cases hvm : vm = a.vm
      · subst hvm
        exact .inr (howned.registered ha hjob).symm
      · exact .inl ((removeIfCurrent_lookup_ne _ _ hvm).trans hjob)

/-! ## The claim -/

/-- What a claim does: only a pending script of an open registry is claimed, by one new task. -/
structure Claimed (h h' : Host ι) (vm : ι) (job : UserdataJob) : Prop where
  owned : h'.Owned
  pending : h.status vm = some .pending
  accepting : h.registry.accepting = true
  alone : h'.Alone vm job.handle
  registered : h'.job vm = some job
  fresh : h.execs job.handle = none
  execs : ∀ {t a}, h'.execs t = some a → t = job.handle ∧ a.vm = vm ∨ h.execs t = some a
  jobs : ∀ {other}, other ≠ vm → h'.job other = h.job other
  unlisted : h.job vm = none
  spawned : h.spawned ≤ h'.spawned

lemma transitionUserdataStatus_true
    (hcas : h.transitionUserdataStatus vm expected next = (h', .ok true)) :
    h.status vm = some expected ∧ h'.status vm = some next := by
  have hstatus := h.transitionUserdataStatus_status vm expected next vm
  rw [hcas] at hstatus
  unfold transitionUserdataStatus at hcas
  split at hcas
  case h_1 => cases hcas
  case h_2 row hrow =>
    split at hcas
    case isTrue hmatch =>
      have hexpected : h.status vm = some expected := by simp [status, hrow, hmatch]
      exact ⟨hexpected, by simpa [hexpected] using hstatus⟩
    case isFalse => cases hcas

lemma transitionUserdataStatus_false
    (hcas : h.transitionUserdataStatus vm expected next = (h', .ok false)) : h' = h := by
  unfold transitionUserdataStatus at hcas
  split at hcas
  case h_1 => cases hcas
  case h_2 =>
    split at hcas
    · cases hcas
    · exact (Prod.mk.inj hcas).1.symm

lemma Owned.free_of_pending (howned : h.Owned) (hpending : h.status vm = some .pending) :
    h.Free vm := by
  rintro t a ha rfl
  exact howned.claimed ha hpending

lemma Owned.claim (howned : h.Owned) (haccepting : h.registry.accepting = true)
    (hfree : h.job vm = none) {h₁ : Host ι}
    (hcas : h.transitionUserdataStatus vm .pending .running = (h₁, .ok true)) : h.Claimed
      { h₁ with
        registry := { h₁.registry with
          nextToken := h₁.registry.nextToken + 1
          jobs := h₁.registry.jobs.insert vm ⟨h₁.registry.nextToken, h₁.spawned⟩ }
        execs := h₁.execs.set h₁.spawned { vm, token := h₁.registry.nextToken }
        spawned := h₁.spawned + 1 } vm ⟨h₁.registry.nextToken, h₁.spawned⟩ := by
  obtain ⟨hpending, hrunning⟩ := transitionUserdataStatus_true hcas
  have hnone := howned.free_of_pending hpending
  have hev : h.Evolves (h.transitionUserdataStatus vm .pending .running).1 :=
    howned.transition nofun fun t a ha hvm => absurd hvm (hnone t a ha)
  obtain ⟨rows, hrows⟩ := h.transitionUserdataStatus_rest vm .pending .running
  rw [hcas] at hrows hev
  have hlookup : ∀ other, other ≠ vm →
      (h₁.registry.jobs.insert vm ⟨h₁.registry.nextToken, h₁.spawned⟩).lookup other =
        h₁.registry.jobs.lookup other := fun other hne => lookup_insert_ne hne
  subst hrows
  refine ⟨⟨?_, ?_, ?_, ?_, ?_, ?_, ?_, ?_⟩, hpending, haccepting, ?_, ?_, ?_, ?_, ?_, hfree,
    le_succ _⟩
  · intro t a ha
    rcases set_eq_some ha with ⟨rfl, -⟩ | ⟨-, ha⟩
    · exact lt_succ_self _
    · exact lt_succ_of_lt (howned.fresh ha)
  · intro t u a b ha hb hvm
    rcases set_eq_some ha with ⟨rfl, rfl⟩ | ⟨-, ha⟩ <;>
      rcases set_eq_some hb with ⟨rfl, rfl⟩ | ⟨-, hb⟩
    · rfl
    · exact absurd hvm.symm (hnone u b hb)
    · exact absurd hvm (hnone t a ha)
    · exact howned.single ha hb hvm
  · intro t a ha
    rcases set_eq_some ha with ⟨-, rfl⟩ | ⟨-, ha⟩
    · exact fun hstatus => by cases hrunning.symm.trans hstatus
    · exact hev.owned.claimed ha
  · intro t a job ha hjob
    rcases set_eq_some ha with ⟨rfl, rfl⟩ | ⟨-, ha⟩
    · rw [← some.inj ((lookup_insert _).symm.trans hjob)]
    · exact howned.registered ha ((hlookup _ (hnone t a ha)).symm.trans hjob)
  · intro other job hjob
    by_cases hvm : other = vm
    · subst hvm
      rw [← some.inj ((lookup_insert _).symm.trans hjob)]
      exact lt_succ_self _
    · exact lt_succ_of_lt (howned.listed ((hlookup _ hvm).symm.trans hjob))
  · intro t a ha hstart
    rcases set_eq_some ha with ⟨-, rfl⟩ | ⟨-, ha⟩
    · exact .inl hrunning
    · exact hev.owned.unstarted ha hstart
  · intro t a ha hstage harmed
    rcases set_eq_some ha with ⟨-, rfl⟩ | ⟨-, ha⟩
    · cases hstage
    · exact hev.owned.unarmed ha hstage harmed
  · intro hclosed
    cases haccepting.symm.trans hclosed
  · intro t a ha hvm
    rcases set_eq_some ha with ⟨rfl, -⟩ | ⟨-, ha⟩
    · rfl
    · exact absurd hvm (hnone t a ha)
  · exact lookup_insert _
  · cases hexec : h.execs h.spawned with
    | none => rfl
    | some a => exact absurd (howned.fresh hexec) (lt_irrefl _)
  · intro t a ha
    rcases set_eq_some ha with ⟨rfl, rfl⟩ | ⟨-, ha⟩
    · exact .inl ⟨rfl, rfl⟩
    · exact .inr ha
  · exact fun hne => hlookup _ hne

lemma Owned.claim_cases (howned : h.Owned) (vm : ι) :
    ((h.claimAndInsert vm).1 = h ∧ ∀ job, (h.claimAndInsert vm).2 ≠ .ok (some job)) ∨
      ∃ h' job, h.claimAndInsert vm = (h', .ok (some job)) ∧ h.Claimed h' vm job := by
  unfold claimAndInsert
  split
  case isTrue => exact .inl ⟨rfl, by simp⟩
  case isFalse hopen =>
    simp only [Bool.or_eq_true, Bool.not_eq_true', decide_eq_true_eq, not_or] at hopen
    split
    case h_1 h₁ e hcas =>
      exact .inl ⟨(transitionUserdataStatus_error hcas).1, by simp⟩
    case h_2 h₁ hcas => exact .inl ⟨transitionUserdataStatus_false hcas, by simp⟩
    case h_3 h₁ hcas =>
      refine .inr ⟨_, _, rfl, howned.claim ?_ ?_ hcas⟩
      · simpa using hopen.1
      · exact lookup_eq_none.mpr hopen.2

end Host

end Husker.Userdata
