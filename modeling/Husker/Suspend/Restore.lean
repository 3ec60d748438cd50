import Husker.Suspend.Slot

/-! # How often a snapshot is restored

A restore and the record that it happened are two steps.  When nothing comes between them, the
snapshot in the slot of a suspended VM was not restored yet.
-/
namespace Husker.Suspend
open Relational Store List Device Write

/-! ## Recovering an interrupted suspend -/

section
variable {v : Vm} {allowed : Act → Fate (Option Glitch) → Prop} {β : Type}
  {Q : Option β → Vm → Prop}

lemma wp_slotComplete {next : Bool → Code β} (hdied : Q none v)
    (hmissing : device.wp allowed (next false) Q v)
    (hpresent : v.slot.present = true → device.wp allowed (next true) Q v) :
    device.wp allowed (.act .slotComplete next) Q v := by
  refine ⟨fun x _ => hdied, fun x _ => ?_⟩
  change device.wp allowed (next (x.isNone && v.slot.present)) Q v
  cases h : x.isNone && v.slot.present with
  | false => exact hmissing
  | true => exact hpresent (Bool.and_eq_true_iff.mp h).2

lemma startup_suspended (hstate : v.state = .suspending) :
    device.wp allowed startup (fun _ v' => v'.state = .suspended →
      v.slot.present = true ∧ v'.slot = v.slot ∧ v'.suspends = v.suspends) v := by
  have hopen {v' : Vm} (h : v'.state ≠ .suspended) : v'.state = .suspended →
      v.slot.present = true ∧ v'.slot = v.slot ∧ v'.suspends = v.suspends := fun hs => absurd hs h
  have hsame : v.state ≠ .suspended := by simp [hstate]
  refine wp_markStale (hopen hsame) (hopen hsame) ?_
  rw [if_neg (by simp [hstate, stale])]
  refine wp_lookup (hopen hsame) (hopen hsame) ?_
  rw [hstate]
  refine wp_slotComplete (hopen hsame) ?_ fun hpresent => ?_
  · refine ⟨fun x _ => hopen ?_, fun x _ => wp_write (hopen ?_) (hopen ?_) (hopen ?_)⟩
    · cases x <;> exact hsame
    · exact hsame
    · exact hsame
    · simp [Vm.write, target]
  · exact wp_write (hopen hsame) (hopen hsame) fun _ => ⟨hpresent, rfl, rfl⟩

def Persists (a : Act) (fate : Fate (Option Glitch)) : Prop :=
  match a with
  | .lookup | .markStale | .write _ => fate = .done none
  | _ => ∃ x, fate = .done x

variable {a : Act}

lemma wp_persists {next : a.Resp → Code β} (ha : ∀ fate, Persists a fate → fate = .done none)
    (h : device.wp Persists (next (run a none v).1) Q (run a none v).2) :
    device.wp Persists (.act a next) Q v := by
  refine ⟨fun x hx => absurd (ha _ hx) (by simp), fun x hx => ?_⟩
  obtain rfl : x = none := Fate.done.inj (ha _ hx)
  exact h

lemma wp_alive {next : a.Resp → Code β} (ha : ∀ fate, Persists a fate → ∃ x, fate = .done x)
    (h : ∀ x, device.wp Persists (next (run a x v).1) Q (run a x v).2) :
    device.wp Persists (.act a next) Q v := by
  refine ⟨fun x hx => ?_, fun x _ => h x⟩
  obtain ⟨y, hy⟩ := ha _ hx
  exact absurd hy (by simp)

lemma startup_decides (hstate : v.state = .suspending) : device.wp Persists startup
      (fun _ v' => v'.state = .suspended ∨ v'.state = .stopped) v := by
  refine wp_persists (fun _ h => h) ?_
  change device.wp Persists (reconcileSuspendedVms >>= _) _ (if v.state ∈ stale then _ else v)
  rw [if_neg (by simp [hstate, stale])]
  refine wp_persists (fun _ h => h) ?_
  simp only [run, Option.isNone_none, hstate]
  change device.wp Persists (.act .slotComplete _) _ v
  refine wp_alive (fun _ h => h) fun x => ?_
  change device.wp Persists ((if (x.isNone && v.slot.present) = true then
    ask (.write (.updateVmRuntime .suspended))
    else ask .removeSlot >>= fun _ => ask (.write .markVmStopped)) >>= _) _ v
  split_ifs
  · exact wp_persists (fun _ h => h) (.inl rfl)
  · exact wp_alive (fun _ h => h) fun _ => wp_persists (fun _ h => h) (.inr rfl)

lemma Own.complete {slot : Slot} {n : ℕ} (h : Own slot n) (hpresent : slot.present = true) :
    slot = ⟨some ⟨n, true⟩, some ⟨n, true⟩, some ⟨n, true⟩⟩ := by
  simp only [Slot.present, Bool.and_eq_true] at hpresent
  obtain ⟨⟨hmanifest, hmemory⟩, hvmstate⟩ := hpresent
  have hfile {f : Option SlotFile} (hsome : f.isSome = true)
      (hf : ∀ x ∈ f, x ∈ slot.manifest ∨ x ∈ slot.memory ∨ x ∈ slot.vmstate) :
      f = some ⟨n, true⟩ := by
    obtain ⟨x, rfl⟩ := Option.isSome_iff_exists.mp hsome
    have hwriter := h.writer x (hf x rfl)
    have hwhole := h.whole hmanifest x (hf x rfl)
    rw [← hwriter, ← hwhole]
  ext1
  · exact hfile hmanifest fun x hx => .inl hx
  · exact hfile hmemory fun x hx => .inr (.inl hx)
  · exact hfile hvmstate fun x hx => .inr (.inr hx)

/-- A startup calls an interrupted suspend suspended only if all three files are there, whole
and written by that very suspend; otherwise it stops the VM. -/
theorem interrupted_suspend_is_recovered (snapshots : Bool) {trace : List Event} {d : Daemon}
    (hrun : lifecycle.Run (.init snapshots) trace d) (hremoves : Meets Removes trace)
    (hstate : d.vm.state = .suspending) {restart : Trace} {result : Option Bool} {v : Vm}
    (hrestart : device.Exec d.vm startup restart result v) : (v.state = .suspended → v.slot =
      ⟨some ⟨d.vm.suspends, true⟩, some ⟨d.vm.suspends, true⟩, some ⟨d.vm.suspends, true⟩⟩) ∧
    ((∀ x ∈ restart, Persists x.1 x.2) → v.state = .suspended ∨ v.state = .stopped) := by
  have hown := (tidy_of_run hrun hremoves).owned (.inl hstate)
  constructor
  · intro hsuspended
    obtain ⟨hpresent, hslot, -⟩ := hrestart.post_all (startup_suspended hstate) hsuspended
    rw [hslot]
    exact hown.complete hpresent
  · intro hpersists
    exact hrestart.post hpersists (startup_decides hstate)

/-! ## A stale slot -/

def Daemon.perform (d : Daemon) (op : Op) (fates : Act → Fate (Option Glitch)) : Event × Daemon :=
  let (trace, result, vm) := device.exec fates (op.code d.vm.snapshots) d.vm
  (.op op trace, .after result.isSome vm)

lemma perform_step (d : Daemon) (op : Op) (fates : Act → Fate (Option Glitch)) (hup : d.up = true) :
    lifecycle.step d (d.perform op fates).1 (d.perform op fates).2 :=
  ⟨hup, _, _, exec_exec (D := device) fates (op.code d.vm.snapshots) d.vm, rfl⟩

lemma perform_meets (d : Daemon) (op : Op) {fates : Act → Fate (Option Glitch)}
    (h : ∀ a, allowed a (fates a)) : ∀ x ∈ (d.perform op fates).1.trace, allowed x.1 x.2 := by
  intro x hx
  rw [exec_fates (D := device) fates (op.code d.vm.snapshots) d.vm x hx]
  exact h x.1

def smooth (_ : Act) : Fate (Option Glitch) := .done none

def stuck (a : Act) : Fate (Option Glitch) :=
  if a = .removeSlot then .done (some ⟨.kept, .kept, .kept, false⟩) else .done none

def dying (a : Act) : Fate (Option Glitch) := if a = .snapshot then .died none else .done none

def suspendedOnce : Event × Daemon := (Daemon.init true).perform .suspend smooth

def resumedStuck : Event × Daemon := suspendedOnce.2.perform .resume stuck

def suspendCrashed : Event × Daemon := resumedStuck.2.perform .suspend dying

/-- The second suspend captured nothing, but the files of the first one are taken for its own. -/
theorem stale_slot_is_taken :
    lifecycle.Run (.init true) [suspendedOnce.1, resumedStuck.1, suspendCrashed.1] suspendCrashed.2 ∧
    suspendCrashed.2.vm.state = .suspending ∧ suspendCrashed.2.vm.suspends = 2 ∧
    (device.exec smooth startup suspendCrashed.2.vm).2.2.state = .suspended ∧
    (device.exec smooth startup suspendCrashed.2.vm).2.2.slot =
      ⟨some ⟨1, true⟩, some ⟨1, true⟩, some ⟨1, true⟩⟩ := by
  refine ⟨?_, by decide, by decide, by decide, by decide⟩
  exact .cons (perform_step _ _ _ (by decide)) (.cons (perform_step _ _ _ (by decide))
    (.cons (perform_step _ _ _ (by decide)) (.nil _)))

def dyingLate (a : Act) : Fate (Option Glitch) := if a = .destroy then .died none else .done none

def suspendInterrupted : Event × Daemon := (Daemon.init true).perform .suspend dyingLate

theorem interrupted_suspend_resumable : suspendInterrupted.2.vm.state = .suspending ∧
    (device.exec smooth startup suspendInterrupted.2.vm).2.2.state = .suspended ∧
    (device.exec smooth startup suspendInterrupted.2.vm).2.2.slot =
      ⟨some ⟨1, true⟩, some ⟨1, true⟩, some ⟨1, true⟩⟩ := by
  have hrun : lifecycle.Run (.init true) [suspendInterrupted.1] suspendInterrupted.2 :=
    .cons (perform_step _ _ _ (by decide)) (.nil _)
  have hremoves : Meets Removes [suspendInterrupted.1] := by
    rw [Meets, forall_mem_singleton]
    refine perform_meets _ _ fun a g ha => ?_
    simp [dyingLate, ha]
  have hsuspended : (device.exec smooth startup suspendInterrupted.2.vm).2.2.state = .suspended := by
    decide
  exact ⟨by decide, hsuspended, (interrupted_suspend_is_recovered true hrun hremoves (by decide)
    (exec_exec smooth startup _)).1 hsuspended⟩

end

variable {v : Vm} {allowed : Act → Fate (Option Glitch) → Prop} {β : Type}
  {Q : Option β → Vm → Prop}

/-! ## Histories -/

/-- No snapshot was restored twice, and none of a suspend that is still to come. -/
structure Once (v : Vm) : Prop where
  nodup : v.restored.Nodup
  bound : ∀ n ∈ v.restored, n ≤ v.suspends

structure Pristine (v : Vm) : Prop extends Once v where
  fresh : v.suspends ∉ v.restored

structure Fresh (v : Vm) : Prop extends Once v where
  fresh : v.state = .suspending ∨ v.state = .suspended → v.suspends ∉ v.restored

lemma Pristine.toFresh (h : Pristine v) : Fresh v := ⟨h.toOnce, fun _ => h.fresh⟩

lemma Fresh.pristine (h : Fresh v) (hstate : v.state = .suspending ∨ v.state = .suspended) :
    Pristine v := ⟨h.toOnce, h.fresh hstate⟩

lemma Once.fresh (h : Once v) (hstate : v.state ≠ .suspending ∧ v.state ≠ .suspended) : Fresh v :=
  ⟨h, fun hv => absurd hv (not_or.mpr hstate)⟩

def Act.keepsHistory (a : Act) : Prop := a ≠ .restore ∧ ∀ w, a = .write w → w.target ≠ .suspending

variable {a : Act}

open Act

lemma run_history (ha : a.keepsHistory) (x : Option Glitch) (v : Vm) :
    (run a x v).2.restored = v.restored ∧ (run a x v).2.suspends = v.suspends := by
  by_cases hsilent : a.silent = true
  · obtain ⟨g, hg⟩ := run_silent hsilent x v
    rw [hg]
    exact ⟨rfl, rfl⟩
  cases a with
  | lookup => exact ⟨rfl, rfl⟩
  | write w =>
    rcases x with - | g
    · simp [run, attempt, Vm.write, ha.2 w rfl]
    · exact ⟨rfl, rfl⟩
  | markStale =>
    rcases x with - | g
    · by_cases hstale : v.state ∈ stale <;> simp [run, attempt, hstale, Vm.write]
    · exact ⟨rfl, rfl⟩
  | snapshot =>
    by_cases hpaused : v.guest = some .paused <;> simp [run, hpaused]
  | writeManifest =>
    rcases x with - | g <;> exact ⟨rfl, rfl⟩
  | removeSlot => exact ⟨rfl, rfl⟩
  | restore => exact absurd rfl ha.1
  | _ => simp [silent] at hsilent

lemma torn_history (a : Act) (x : Option Glitch) (v : Vm) :
    (torn a x v).restored = v.restored ∧ (torn a x v).suspends = v.suspends := by
  unfold torn
  split
  · split_ifs <;> exact ⟨rfl, rfl⟩
  · exact ⟨rfl, rfl⟩
  · exact ⟨rfl, rfl⟩

lemma Pristine.congr {v v' : Vm} (h : Pristine v) (hrestored : v'.restored = v.restored)
    (hsuspends : v'.suspends = v.suspends) : Pristine v' := by
  refine ⟨⟨?_, ?_⟩, ?_⟩
  · rw [hrestored]
    exact h.nodup
  · rw [hrestored, hsuspends]
    exact h.bound
  · rw [hrestored, hsuspends]
    exact h.fresh

variable {p : Code Bool}

lemma wp_pristine (hp : p.Uses keepsHistory) (h : Pristine v) :
    device.wp allowed p (fun _ => Pristine) v := by
  refine wp_of_uses hp (fun a x v ha _ hv => ?_) (fun a x v _ _ hv => ?_) h
  · obtain ⟨hrestored, hsuspends⟩ := run_history ha x v
    exact hv.congr hrestored hsuspends
  · obtain ⟨hrestored, hsuspends⟩ := torn_history a x v
    exact hv.congr hrestored hsuspends

def Act.keepsFresh (a : Act) : Prop := a.keepsHistory ∧ ∀ w, a = .write w → w.target ≠ .suspended

lemma run_state (a : Act) (x : Option Glitch) (v : Vm) : (run a x v).2.state = v.state ∨
      (∃ w, a = .write w ∧ x = none ∧ (run a x v).2.state = w.target) ∨
      (run a x v).2.state = .stopped := by
  by_cases hsilent : a.silent = true
  · obtain ⟨g, hg⟩ := run_silent hsilent x v
    rw [hg]
    exact .inl rfl
  cases a with
  | write w =>
    rcases x with - | g
    · exact .inr (.inl ⟨w, rfl, rfl, rfl⟩)
    · exact .inl rfl
  | markStale =>
    rcases x with - | g
    · by_cases hstale : v.state ∈ stale <;> simp [run, attempt, hstale, Vm.write]
    · exact .inl rfl
  | snapshot => by_cases hpaused : v.guest = some .paused <;> simp [run, hpaused]
  | writeManifest => rcases x with - | g <;> exact .inl rfl
  | lookup | removeSlot => exact .inl rfl
  | restore =>
    left
    change (v.restore x).2.state = v.state
    unfold Vm.restore
    split <;> rfl
  | _ => simp [silent] at hsilent

lemma run_fresh (ha : a.keepsFresh) (x : Option Glitch) (v : Vm) : (run a x v).2.state = v.state ∨
      (run a x v).2.state ≠ .suspending ∧ (run a x v).2.state ≠ .suspended := by
  rcases run_state a x v with hsame | ⟨w, rfl, -, htarget⟩ | hstopped
  · exact .inl hsame
  · rw [htarget]
    exact .inr ⟨ha.1.2 w rfl, ha.2 w rfl⟩
  · simp [hstopped]

lemma torn_state (a : Act) (x : Option Glitch) (v : Vm) : (torn a x v).state = v.state := by
  unfold torn
  split
  · split_ifs <;> rfl
  · rfl
  · rfl

lemma Fresh.congr {v v' : Vm} (h : Fresh v) (hrestored : v'.restored = v.restored)
    (hsuspends : v'.suspends = v.suspends) (hstate : v'.state = v.state ∨
      v'.state ≠ .suspending ∧ v'.state ≠ .suspended) : Fresh v' := by
  refine ⟨⟨?_, ?_⟩, fun hv' => ?_⟩
  · rw [hrestored]
    exact h.nodup
  · rw [hrestored, hsuspends]
    exact h.bound
  · rcases hstate with hstate | hstate
    · rw [hrestored, hsuspends]
      exact h.fresh (hstate ▸ hv')
    · exact absurd hv' (not_or.mpr hstate)

lemma wp_fresh (hp : p.Uses keepsFresh) (h : Fresh v) :
    device.wp allowed p (fun _ => Fresh) v := by
  refine wp_of_uses hp (fun a x v ha _ hv => ?_) (fun a x v _ _ hv => ?_) h
  · obtain ⟨hrestored, hsuspends⟩ := run_history ha.1 x v
    exact hv.congr hrestored hsuspends (run_fresh ha x v)
  · obtain ⟨hrestored, hsuspends⟩ := torn_history a x v
    exact hv.congr hrestored hsuspends (.inl (torn_state a x v))

/-! ## The operations -/

/-- After a restore the record follows: the daemon lives until the write, and it commits. -/
structure Settles (a : Act) (fate : Fate (Option Glitch)) : Prop where
  removes : Removes a fate
  alive : a = .correctClock → ∃ x, fate = .done x
  commits : a = .write (.updateVmRuntime .running) → fate = .done none

lemma keepsHistory_of_silent (ha : a.silent = true) : a.keepsHistory := by
  cases a <;> simp [silent, keepsHistory] at ha ⊢

variable {A : Act → Prop}

lemma capture_uses (pausedByUs : Bool)
    (hA : ∀ a ∈ [pause, .createSlot, .snapshot, .writeManifest], A a) :
    (capture pausedByUs).Uses A := by
  have hrest : Program.Uses A (do
      if !(← ask .createSlot) then return false
      if !(← ask .snapshot) then return false
      ask .writeManifest) := by
    refine ⟨hA _ (by simp), fun _ => .ite trivial ⟨hA _ (by simp), fun _ => .ite trivial ⟨?_, ?_⟩⟩⟩
    · exact hA _ (by simp)
    · exact fun _ => trivial
  exact .ite ⟨hA _ (by simp), fun _ => .ite trivial hrest⟩ hrest

variable {original : VmLifecycleState}

lemma rollback_uses (hA : ∀ a ∈ [removeSlot, .unpause, .write (.updateVmState original)], A a) :
    (rollback original).Uses A := by
  have hwrite := hA (.write (.updateVmState original)) (by simp)
  refine ⟨hA _ (by simp), fun _ => .ite ?_ ?_⟩
  · exact ⟨hA _ (by simp), fun _ => ⟨hwrite, fun _ => trivial⟩⟩
  · exact ⟨hwrite, fun _ => trivial⟩

lemma suspendVmLocked_fresh (horiginal : original ≠ .suspending) (h : Fresh v) :
    device.wp allowed (suspendVmLocked original) (fun _ => Fresh) v := by
  refine wp_write h h ?_
  have hmarked : Pristine (v.write .suspending) :=
    ⟨⟨h.nodup, fun n hn => (h.bound n hn).trans (Nat.le_succ _)⟩,
      fun hmem => absurd (h.bound _ hmem) (by simp [Vm.write])⟩
  refine wp_mono (fun _ _ hv => hv.toFresh) (wp_pristine ?_ hmarked)
  refine .bind trivial fun _ => .ite trivial ?_
  have hrollback : (rollback original).Uses keepsHistory :=
    rollback_uses (by simp [keepsHistory, target, horiginal])
  refine .bind (capture_uses _ (by simp [keepsHistory])) fun _ => .ite hrollback ?_
  refine ⟨keepsHistory_of_silent rfl, fun _ => .ite hrollback ⟨?_, fun _ => trivial⟩⟩
  simp [keepsHistory, target]

lemma suspendVm_fresh (h : Fresh v) (supported : Bool) :
    device.wp allowed (suspendVm supported) (fun _ => Fresh) v := by
  refine wp_lookup h h ?_
  cases v.state with
  | running | paused =>
    cases supported with
    | false => exact h
    | true => exact suspendVmLocked_fresh (by simp) h
  | _ => exact h

/-- The one restore of a snapshot: the slot is that of the last suspend, and the record leaves
the suspended state before anything else can happen. -/
lemma restoreFromSuspend_fresh (hallowed : ∀ a fate, allowed a fate → Settles a fate)
    (h : Fresh v) (howned : Owned v) (hstate : v.state = .suspended) :
    device.wp allowed restoreFromSuspend (fun _ => Fresh) v := by
  have hpristine := h.pristine (.inr hstate)
  have hown := howned (.inr hstate)
  have hsame (g : Option Guest) : Fresh { v with guest := g } := ⟨⟨h.nodup, h.bound⟩, h.fresh⟩
  refine wp_silent rfl h fun r g => ?_
  cases r with
  | false => exact hsame g
  | true =>
  refine wp_restore (hsame g) (fun g => wp_silent rfl (hsame g) fun _ g => hsame g) ?_
  intro memory hmemory
  have hwriter : memory.writer = v.suspends := hown.writer memory (.inr (.inl hmemory))
  have honce (g : Option Guest) (slot : Slot) :
      Fresh { v with state := .running, guest := g, slot := slot, restored := v.restored ++ [v.suspends] } := by
    refine Once.fresh ⟨?_, ?_⟩ (by simp)
    · exact nodup_append.mpr ⟨h.nodup, nodup_singleton _, by
        rintro a ha b hb rfl
        exact hpristine.fresh (mem_singleton.mp hb ▸ ha)⟩
    · intro n hn
      rcases mem_append.mp hn with hn | hn
      · exact h.bound n hn
      · exact (mem_singleton.mp hn).le
  rw [hwriter]
  refine ⟨fun x hx => ?_, fun x _ => ⟨fun y hy => ?_, fun y hy => ?_⟩⟩
  · obtain ⟨y, hy⟩ := (hallowed _ _ hx).alive rfl
    exact absurd hy (by simp)
  · exact absurd ((hallowed _ _ hy).commits rfl) (by simp)
  · obtain rfl : y = none := Fate.done.inj ((hallowed _ _ hy).commits rfl)
    refine wp_removeSlot (fun a fate ha => (hallowed a fate ha).removes) (fun _ => ?_) ?_ ?_
    · exact honce _ _
    · exact honce _ _
    · exact honce _ _

lemma keepsFresh_of_silent (ha : a.silent = true) : a.keepsFresh :=
  ⟨keepsHistory_of_silent ha, fun w hw => by simp [hw, silent] at ha⟩

lemma keepsFresh_write {w : Write} (h : w.target ≠ .suspending ∧ w.target ≠ .suspended) :
    keepsFresh (.write w) := by
  refine ⟨⟨by simp, fun w' hw => ?_⟩, fun w' hw => ?_⟩
  · rw [← write.inj hw]
    exact h.1
  · rw [← write.inj hw]
    exact h.2

lemma keepsFresh_removeSlot : keepsFresh .removeSlot := by
  simp [keepsFresh, keepsHistory]

lemma resumeVm_fresh (hallowed : ∀ a fate, allowed a fate → Settles a fate)
    (h : Fresh v) (howned : Owned v) : device.wp allowed resumeVm (fun _ => Fresh) v := by
  refine wp_lookup h h ?_
  cases hstate : v.state with
  | paused =>
    refine wp_fresh ⟨keepsFresh_of_silent rfl, fun _ => .ite trivial ⟨?_, fun _ => trivial⟩⟩ h
    exact keepsFresh_write (by simp [target])
  | suspended =>
    have hsame (g : Option Guest) : Fresh { v with guest := g } := ⟨⟨h.nodup, h.bound⟩, h.fresh⟩
    refine wp_silent rfl h fun r g => ?_
    cases r with
    | false => exact hsame g
    | true => exact restoreFromSuspend_fresh hallowed (hsame g) howned hstate
  | _ => exact h

lemma pauseVm_fresh (h : Fresh v) : device.wp allowed pauseVm (fun _ => Fresh) v := by
  refine wp_lookup h h ?_
  cases v.state with
  | running =>
    refine wp_fresh ⟨keepsFresh_of_silent rfl, fun _ => .ite trivial ⟨?_, fun _ => ?_⟩⟩ h
    · exact keepsFresh_write (by simp [target])
    · exact .ite ⟨keepsFresh_of_silent rfl, fun _ => trivial⟩ trivial
  | _ => exact h

lemma stopVm_fresh (h : Fresh v) : device.wp allowed stopVm (fun _ => Fresh) v := by
  have hstopped : keepsFresh (.write .markVmStopped) := keepsFresh_write (by simp [target])
  refine wp_lookup h h ?_
  cases v.state with
  | running | paused =>
    exact wp_fresh ⟨keepsFresh_of_silent rfl, fun _ => .ite trivial ⟨hstopped, fun _ => trivial⟩⟩ h
  | suspended =>
    exact wp_fresh ⟨keepsFresh_removeSlot, fun _ => ⟨hstopped, fun _ => trivial⟩⟩ h
  | _ => exact h

lemma startup_fresh (h : Fresh v) : device.wp allowed startup (fun _ => Fresh) v := by
  refine wp_markStale h h ?_
  have hmarked : Fresh (if v.state ∈ stale then v.write .stopped else v) := by
    split_ifs
    · exact Once.fresh ⟨h.nodup, h.bound⟩ (by simp [Vm.write])
    · exact h
  generalize (if v.state ∈ stale then v.write .stopped else v) = v' at hmarked
  change device.wp allowed (reconcileSuspendedVms >>= _) _ _
  refine wp_seq (R := fun _ => Fresh) ?_ (fun _ hv => hv) (fun _ _ hv => hv)
  refine wp_lookup hmarked hmarked ?_
  cases hstate : v'.state with
  | suspending =>
    -- the snapshot of an interrupted suspend was not restored, whatever the record says of it
    refine wp_mono (fun _ _ hv => hv.toFresh) (wp_pristine ?_ (hmarked.pristine (.inl hstate)))
    refine ⟨keepsHistory_of_silent rfl, fun complete => ?_⟩
    cases complete with
    | true => exact ⟨by simp [keepsHistory, target], fun _ => trivial⟩
    | false =>
      refine ⟨keepsFresh_removeSlot.1, fun _ => ⟨?_, fun _ => trivial⟩⟩
      simp [keepsHistory, target]
  | _ => exact hmarked

/-! ## Runs -/

lemma fresh_after {up : Bool} (h : Fresh v) : Fresh (Daemon.after up v).vm := by
  cases up with
  | false => exact ⟨⟨h.nodup, h.bound⟩, h.fresh⟩
  | true => exact h

lemma fresh_step {d d' : Daemon} {e : Event} (htidy : Tidy d) (h : Fresh d.vm)
    (hmeets : ∀ x ∈ e.trace, Settles x.1 x.2) (hstep : lifecycle.step d e d') : Fresh d'.vm := by
  cases e with
  | op op trace =>
    obtain ⟨-, result, vm, hexec, rfl⟩ := hstep
    have hwp : device.wp Settles (op.code d.vm.snapshots) (fun _ => Fresh) d.vm := by
      cases op with
      | suspend => exact suspendVm_fresh h _
      | resume => exact resumeVm_fresh (fun _ _ ha => ha) h htidy.owned
      | pause => exact pauseVm_fresh h
      | stop => exact stopVm_fresh h
    exact fresh_after (hexec.post hmeets hwp)
  | startup trace =>
    obtain ⟨-, result, vm, hexec, rfl⟩ := hstep
    exact fresh_after (hexec.post hmeets (startup_fresh h))
  | crash =>
    obtain ⟨-, rfl⟩ := hstep
    exact fresh_after h

lemma fresh_of_run {snapshots : Bool} {trace : List Event} {d : Daemon}
    (h : lifecycle.Run (.init snapshots) trace d) (hmeets : Meets Settles trace) :
    Tidy d ∧ Fresh d.vm := by
  refine h.history (I := fun trace d => Meets Settles trace → Tidy d ∧ Fresh d.vm)
    (fun _ => ⟨tidy_init _, Once.fresh ⟨by simp [Daemon.init], by simp [Daemon.init]⟩
      (by simp [Daemon.init])⟩) (fun trace d e d' _ hd hstep hmeets => ?_) hmeets
  rw [Meets, forall_mem_append] at hmeets
  obtain ⟨htidy, hfresh⟩ := hd hmeets.1
  have hlast := hmeets.2 e (.head _)
  exact ⟨htidy.step (fun x hx => (hlast x hx).removes) hstep, fresh_step htidy hfresh hlast hstep⟩

def resumedOnce : Event × Daemon := suspendedOnce.2.perform .resume smooth

def suspendedTwice : Event × Daemon := resumedOnce.2.perform .suspend smooth

def resumedTwice : Event × Daemon := suspendedTwice.2.perform .resume smooth

def dyingRestored (a : Act) : Fate (Option Glitch) :=
  if a = .correctClock then .died none else .done none

def unrecorded (a : Act) : Fate (Option Glitch) :=
  if a = .write (.updateVmRuntime .running) then .done (some ⟨.kept, .kept, .kept, false⟩) else .done none

def Daemon.restart (d : Daemon) : Event × Daemon :=
  let (trace, result, vm) := device.exec smooth startup d.vm
  (.startup trace, .after (result = some true) vm)

lemma restart_step (d : Daemon) (hup : d.up = false) : lifecycle.step d d.restart.1 d.restart.2 :=
  ⟨hup, _, _, exec_exec (D := device) smooth startup d.vm, rfl⟩

def resumeDied : Event × Daemon := suspendedOnce.2.perform .resume dyingRestored

def resumedAfterDeath : Event × Daemon := resumeDied.2.restart.2.perform .resume smooth

def resumedUnrecorded : Event × Daemon := suspendedOnce.2.perform .resume unrecorded

def resumeRefused : Event × Daemon := resumedUnrecorded.2.perform .resume smooth

def resumedAfterRefusal : Event × Daemon := resumeRefused.2.perform .resume smooth

def resumedStale : Event × Daemon := suspendCrashed.2.restart.2.perform .resume smooth

end Husker.Suspend
