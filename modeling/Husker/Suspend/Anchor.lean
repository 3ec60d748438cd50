import Husker.Idle.Sessions
import Husker.Suspend.Restore

/-! # Since when a VM is suspended

The time to live of a suspended VM counts from a column of its own, which is written after the
state and cleared with it.
-/
namespace Husker.Suspend
open Relational Store List Option Device

/-! ## The column -/

inductive RowAct where
  | base (a : Act)
  /-- `set_suspended_at`, with the time or with nothing. -/
  | setSuspendedAt (now : Bool)
  deriving DecidableEq

def RowAct.Resp : RowAct → Type
  | .base a => a.Resp
  | .setSuspendedAt _ => Bool

abbrev rowApi : Interface := ⟨RowAct, RowAct.Resp⟩

abbrev RowCode := Program rowApi

structure Row where
  vm : Vm
  suspendedAt : Option DateTime

/-- What is left of an action that does not succeed, and the time on the clock. -/
structure Turn where
  glitch : Option Glitch
  now : DateTime

/-- `mark_vm_stopped` and `mark_stale_vms_stopped` clear the column of the rows they stop. -/
def Act.clears (v : Vm) : Act → Bool
  | .write .markVmStopped => true
  | .markStale => v.state ∈ stale
  | _ => false

def Row.run : (a : RowAct) → Turn → Row → a.Resp × Row
  | .base a, x, r =>
    let (resp, vm) := Suspend.run a x.glitch r.vm
    (resp, ⟨vm, if x.glitch.isNone && a.clears r.vm then none else r.suspendedAt⟩)
  | .setSuspendedAt now, x, r =>
    if x.glitch.isNone then (true, { r with suspendedAt := if now then some x.now else none })
    else (false, r)

def Row.torn : RowAct → Turn → Row → Row
  | .base a, x, r => { r with vm := Suspend.torn a x.glitch r.vm }
  | .setSuspendedAt _, _, r => r

def rowDevice : Device rowApi Row Turn := ⟨Row.run, Row.torn⟩

/-! ## Operations -/

def onRow {β : Type} : Code β → RowCode β
  | .ret b => .ret b
  | .act a next => .act (.base a) fun r => onRow (next r)

def base (a : Act) : RowCode a.Resp := Program.perform (I := rowApi) (.base a)

def setSuspendedAt (now : Bool) : RowCode Bool := Program.perform (I := rowApi) (.setSuspendedAt now)

namespace Row

def suspendVmLocked (original : VmLifecycleState) : RowCode Bool := do
  if !(← base (.write (.updateVmState .suspending))) then return false
  if !(← onRow (capture (original = .running))) then return ← onRow (rollback original)
  if !(← base .destroy) then return ← onRow (rollback original)
  if !(← base (.write (.updateVmRuntime .suspended))) then return false
  setSuspendedAt true

def suspendVm (supported : Bool) : RowCode Bool := do
  match ← base .lookup with
  | none => return false
  | some .suspended => return true
  | some .running => if supported then suspendVmLocked .running else return false
  | some .paused => if supported then suspendVmLocked .paused else return false
  | some _ => return false

def resumeVm : RowCode Bool := do
  match ← base .lookup with
  | none => return false
  | some .paused =>
    if !(← base .unpause) then return false
    base (.write (.updateVmState .running))
  | some .suspended =>
    if !(← base .restoreNetwork) then return false
    if !(← onRow restoreFromSuspend) then return false
    setSuspendedAt false
  | some .running => return true
  | some _ => return false

end Row

def Op.rowCode (snapshots : Bool) : Op → RowCode Bool
  | .suspend => Row.suspendVm snapshots
  | .resume => Row.resumeVm
  | .pause => onRow pauseVm
  | .stop => onRow stopVm

abbrev RowTrace := List (RowAct × Fate Turn)

structure RowDaemon where
  row : Row
  up : Bool

inductive RowEvent where
  | op (op : Op) (trace : RowTrace)
  | startup (trace : RowTrace)
  | crash

def RowDaemon.after (up : Bool) (row : Row) : RowDaemon :=
  ⟨if up then row else { row with vm := { row.vm with guest := none } }, up⟩

def rows : Machine RowDaemon RowEvent where
  step d
    | .op op trace, d' => d.up = true ∧ ∃ result row,
        rowDevice.Exec d.row (op.rowCode d.row.vm.snapshots) trace result row ∧
          d' = .after result.isSome row
    | .startup trace, d' => d.up = false ∧ ∃ result row,
        rowDevice.Exec d.row (onRow startup) trace result row ∧ d' = .after (result = some true) row
    | .crash, d' => d.up = true ∧ d' = .after false d.row

def RowDaemon.init (snapshots : Bool) : RowDaemon := ⟨⟨(Daemon.init snapshots).vm, none⟩, true⟩

/-! ## What keeps the clock running -/

variable {r : Row} {β : Type} {allowed : RowAct → Fate Turn → Prop} {Q : Option β → Row → Prop}

def Row.Anchored (r : Row) : Prop := r.vm.state = .suspended → r.suspendedAt.isSome = true

def Safe (allowed : RowAct → Fate Turn → Prop) (a : Act) : Prop :=
  ∀ w x, a = .write w → allowed (.base a) (.done x) → x.glitch = none → w.target ≠ .suspended

variable {a : Act}

lemma run_clears {v : Vm} (h : a.clears v = true) : (run a none v).2.state = .stopped := by
  cases a with
  | write w =>
    cases w with
    | markVmStopped => rfl
    | _ => cases h
  | markStale =>
    have hstale : v.state ∈ stale := of_decide_eq_true h
    simp [run, attempt, hstale, Vm.write]
  | _ => cases h

lemma run_anchored {x : Turn} (ha : Safe allowed a) (hx : allowed (.base a) (.done x))
    (h : r.Anchored) : (Row.run (.base a) x r).2.Anchored := by
  intro hstate
  change (run a x.glitch r.vm).2.state = .suspended at hstate
  change (if x.glitch.isNone && a.clears r.vm then none else r.suspendedAt).isSome = true
  split_ifs with hclears
  · obtain ⟨hdone, hclears⟩ := Bool.and_eq_true_iff.mp hclears
    rw [isNone_iff_eq_none.mp hdone, run_clears hclears] at hstate
    cases hstate
  · rcases run_state a x.glitch r.vm with hsame | ⟨w, hw, hdone, htarget⟩ | hstopped
    · exact h (hsame.symm.trans hstate)
    · exact absurd (htarget.symm.trans hstate) (ha w x hw hx hdone)
    · cases hstopped.symm.trans hstate

lemma torn_anchored (a : RowAct) (x : Turn) (h : r.Anchored) : (Row.torn a x r).Anchored := by
  cases a with
  | base a => exact fun hstate => h ((torn_state a x.glitch r.vm).symm.trans hstate)
  | setSuspendedAt now => exact h

lemma wp_base {next : a.Resp → RowCode β} (ha : Safe allowed a) (h : r.Anchored)
    (hdied : ∀ r, r.Anchored → Q none r)
    (hnext : ∀ b r, r.Anchored → rowDevice.wp allowed (next b) Q r) :
    rowDevice.wp allowed (.act (.base a) next) Q r :=
  ⟨fun x _ => hdied _ (torn_anchored _ x h), fun _ hx => hnext _ _ (run_anchored ha hx h)⟩

lemma wp_onRow {p : Code β} (hp : p.Uses (Safe allowed)) (h : r.Anchored) :
    rowDevice.wp allowed (onRow p) (fun _ => Row.Anchored) r := by
  induction p generalizing r with
  | ret b => exact h
  | act a next ih => exact wp_base hp.1 h (fun _ h => h) fun b _ h => ih b (hp.2 b) h

lemma Safe.of_ne (h : ∀ w, a = .write w → w.target ≠ .suspended) : Safe allowed a :=
  fun w _ hw _ _ => h w hw

def Stamped (a : RowAct) (fate : Fate Turn) : Prop :=
  a = .setSuspendedAt true → ∃ now, fate = .done ⟨none, now⟩

def Unfinished (a : RowAct) (fate : Fate Turn) : Prop :=
  ∀ w x, a = .base (.write w) → fate = .done x → x.glitch = none → w.target ≠ .suspended

variable {original : VmLifecycleState}

namespace Row

lemma rollback_anchored (horiginal : original ≠ .suspended)
    (h : r.Anchored) : rowDevice.wp allowed (onRow (rollback original)) (fun _ => Row.Anchored) r := by
  apply wp_onRow (rollback_uses ?_) h
  intro a ha
  apply Safe.of_ne
  rintro w rfl
  simp only [mem_cons, reduceCtorEq, not_mem_nil, or_false, false_or] at ha
  rw [Act.write.inj ha]
  exact horiginal

/-- The state is written before the column, and nothing may come between them. -/
lemma stamp_anchored (h : r.Anchored) : rowDevice.wp Stamped (do
      if !(← base (.write (.updateVmRuntime .suspended))) then return false
      setSuspendedAt true) (fun _ => Row.Anchored) r := by
  refine ⟨fun x _ => torn_anchored _ x h, fun x _ => ?_⟩
  rcases x with ⟨- | g, now⟩
  · refine ⟨fun x hx => ?_, fun x hx => ?_⟩
    · obtain ⟨now, hfate⟩ := hx rfl
      cases hfate
    · obtain ⟨now, hfate⟩ := hx rfl
      cases hfate
      exact fun _ => rfl
  · exact h

lemma suspendVmLocked_anchored (horiginal : original ≠ .suspended) (h : r.Anchored) :
    rowDevice.wp Stamped (suspendVmLocked original) (fun _ => Row.Anchored) r := by
  refine wp_base (.of_ne (by simp [Write.target])) h (fun _ h => h) fun b r h => ?_
  cases b with
  | false => exact h
  | true =>
  change rowDevice.wp Stamped (onRow (capture _) >>= _) _ _
  refine wp_seq (wp_onRow (capture_uses _ (by simp [Safe])) h) (fun _ h => h) fun b r h => ?_
  cases b with
  | false => exact rollback_anchored horiginal h
  | true =>
  refine wp_base (.of_ne (by simp)) h (fun _ h => h) fun b r h => ?_
  cases b with
  | false => exact rollback_anchored horiginal h
  | true => exact stamp_anchored h

lemma suspendVm_anchored (supported : Bool) (h : r.Anchored) :
    rowDevice.wp Stamped (suspendVm supported) (fun _ => Row.Anchored) r := by
  refine wp_base (.of_ne (by simp)) h (fun _ h => h) fun o r h => ?_
  rcases o with - | state
  · exact h
  cases state with
  | running | paused =>
    cases supported with
    | false => exact h
    | true => exact suspendVmLocked_anchored (by simp) h
  | _ => exact h

/-- A restore that succeeds leaves a VM that runs. -/
lemma restoreFromSuspend_anchored (h : r.Anchored) : rowDevice.wp allowed (onRow restoreFromSuspend)
      (fun o r => r.Anchored ∧ (o = some true → r.vm.state ≠ .suspended)) r := by
  refine wp_base (.of_ne (by simp)) h (fun _ h => ⟨h, by simp⟩) fun b r h => ?_
  cases b with
  | false => exact ⟨h, by simp⟩
  | true =>
  refine wp_base (.of_ne (by simp)) h (fun _ h => ⟨h, by simp⟩) fun b r h => ?_
  cases b with
  | false =>
    exact wp_base (.of_ne (by simp)) h (fun _ h => ⟨h, by simp⟩) fun _ _ h => ⟨h, by simp⟩
  | true =>
  refine wp_base (.of_ne (by simp)) h (fun _ h => ⟨h, by simp⟩) fun _ r h => ?_
  refine ⟨fun x _ => ⟨torn_anchored _ x h, by simp⟩, fun x _ => ?_⟩
  rcases x with ⟨- | g, now⟩
  · have hrunning {r : Row} (o : Option Bool) (hr : r.vm.state = .running) :
        r.Anchored ∧ (o = some true → r.vm.state ≠ .suspended) :=
      ⟨fun hs => by simp [hr] at hs, fun _ => by simp [hr]⟩
    exact ⟨fun x _ => hrunning _ (torn_state _ _ _), fun x _ => hrunning _ rfl⟩
  · exact ⟨h, by simp⟩

lemma resumeVm_anchored (h : r.Anchored) :
    rowDevice.wp allowed resumeVm (fun _ => Row.Anchored) r := by
  refine wp_base (.of_ne (by simp)) h (fun _ h => h) fun o r h => ?_
  rcases o with - | state
  · exact h
  cases state with
  | paused =>
    refine wp_base (.of_ne (by simp)) h (fun _ h => h) fun b r h => ?_
    cases b with
    | false => exact h
    | true => exact wp_base (.of_ne (by simp [Write.target])) h (fun _ h => h) fun _ _ h => h
  | suspended =>
    refine wp_base (.of_ne (by simp)) h (fun _ h => h) fun b r h => ?_
    cases b with
    | false => exact h
    | true =>
    change rowDevice.wp allowed (onRow restoreFromSuspend >>= _) _ _
    refine wp_seq (restoreFromSuspend_anchored h) (fun _ h => h.1) fun b r h => ?_
    cases b with
    | false => exact h.1
    | true =>
    -- the column goes only after the state
    refine ⟨fun x _ => h.1, fun x _ => ?_⟩
    rcases x with ⟨- | g, now⟩
    · exact fun hstate => absurd hstate (h.2 rfl)
    · exact h.1
  | _ => exact h

end Row

lemma Op.rowCode_anchored (op : Op) (snapshots : Bool) (h : r.Anchored) :
    rowDevice.wp Stamped (op.rowCode snapshots) (fun _ => Row.Anchored) r := by
  have hsafe {a : Act} (ha : ∀ w, a = .write w → w.target ≠ .suspended) : Safe Stamped a := .of_ne ha
  cases op with
  | suspend => exact Row.suspendVm_anchored snapshots h
  | resume => exact Row.resumeVm_anchored h
  | pause =>
    have huses : pauseVm.Uses (Safe Stamped) := by
      refine ⟨hsafe (by simp), fun o => ?_⟩
      rcases o with - | state
      · trivial
      cases state with
      | running =>
        refine ⟨hsafe (by simp), fun _ => .ite trivial ⟨hsafe (by simp [Write.target]), fun _ => ?_⟩⟩
        exact .ite ⟨hsafe (by simp), fun _ => trivial⟩ trivial
      | _ => trivial
    exact wp_onRow huses h
  | stop =>
  have hstop : Safe Stamped (.write .markVmStopped) := hsafe (by simp [Write.target])
  have huses : stopVm.Uses (Safe Stamped) := by
    refine ⟨hsafe (by simp), fun o => ?_⟩
    rcases o with - | state
    · trivial
    cases state with
    | running | paused => exact ⟨hsafe (by simp), fun _ => .ite trivial ⟨hstop, fun _ => trivial⟩⟩
    | suspended => exact ⟨hsafe (by simp), fun _ => ⟨hstop, fun _ => trivial⟩⟩
    | _ => trivial
  exact wp_onRow huses h

lemma startup_anchored (h : r.Anchored) :
    rowDevice.wp Unfinished (onRow startup) (fun _ => Row.Anchored) r := by
  have huses {β : Type} (p : Code β) : p.Uses (Safe Unfinished) := by
    induction p with
    | ret b => trivial
    | act a next ih => exact ⟨fun w x hw hx => hx w x (congrArg RowAct.base hw) rfl, ih⟩
  exact wp_onRow (huses startup) h

/-! ## Runs -/

/-- Operations set the column after the state, and startups finish no suspend. -/
def RowEvent.Anchors : RowEvent → Prop
  | .op _ trace => ∀ x ∈ trace, Stamped x.1 x.2
  | .startup trace => ∀ x ∈ trace, Unfinished x.1 x.2
  | .crash => True

lemma Row.Anchored.after {up : Bool} (h : r.Anchored) : (RowDaemon.after up r).row.Anchored := by
  cases up <;> exact h

lemma step_anchored {d d' : RowDaemon} {e : RowEvent} (h : d.row.Anchored) (he : e.Anchors)
    (hstep : rows.step d e d') : d'.row.Anchored := by
  cases e with
  | op op trace =>
    obtain ⟨-, result, row, hexec, rfl⟩ := hstep
    exact (hexec.post he (op.rowCode_anchored _ h)).after
  | startup trace =>
    obtain ⟨-, result, row, hexec, rfl⟩ := hstep
    exact (hexec.post he (startup_anchored h)).after
  | crash =>
    obtain ⟨-, rfl⟩ := hstep
    exact h.after

open Idle in
structure Reapable {ι : Type} (record : VmRecord ι) (ttl : ℕ) : Prop where
  opted : record.idleTimeoutSecs.isSome = true
  vmm : record.vmm = .firecracker
  service : record.serviceId = none
  fork : record.forkedFrom = none
  volume : record.volume = none
  pos : ttl ≠ 0
  ttl : record.suspendTtlSecs = some ttl

open Idle in
/-- In every run in which the column is set after the state and no startup finishes a suspend, a
suspended VM has its column set, and its time to live counts from there. -/
theorem suspended_vms_are_anchored {ι : Type} (snapshots : Bool) {trace : List RowEvent}
    {d : RowDaemon} (hrun : rows.Run (.init snapshots) trace d) (htrace : ∀ e ∈ trace, e.Anchors)
    (hstate : d.row.vm.state = .suspended) : ∃ since, d.row.suspendedAt = some since ∧
      ∀ (record : VmRecord ι) ttl now idleFor, Reapable record ttl → record.state = .suspended →
        record.suspendedAt = d.row.suspendedAt →
        (evaluatePolicy record now idleFor false false = .reap ↔ asI64 ttl ≤ numSeconds now since) := by
  have hanchored : d.row.Anchored := by
    refine (hrun.when_of_mem (C := fun _ e => e.Anchors) fun _ e he => htrace e he).invariant ?_
      fun d e d' h hstep => step_anchored h hstep.2 hstep.1
    exact fun h => by cases h
  obtain ⟨since, hsince⟩ := isSome_iff_exists.mp (hanchored hstate)
  refine ⟨since, hsince, fun record ttl now idleFor hreap hrecord hcolumn => ?_⟩
  obtain ⟨timeout, htimeout⟩ := isSome_iff_exists.mp hreap.opted
  rw [hsince] at hcolumn
  simp [evaluatePolicy, htimeout, hreap.vmm, hreap.service, hreap.fork, hreap.volume, hreap.ttl,
    hreap.pos, hrecord, hcolumn]

def atNoon (_ : RowAct) : Fate Turn := .done ⟨none, ⟨0⟩⟩

def RowDaemon.suspend (d : RowDaemon) (fates : RowAct → Fate Turn) : RowEvent × RowDaemon :=
  let (trace, result, row) := rowDevice.exec fates (Row.suspendVm d.row.vm.snapshots) d.row
  (.op .suspend trace, .after result.isSome row)

lemma RowDaemon.suspend_step {d : RowDaemon} (hup : d.up = true) (fates : RowAct → Fate Turn) :
    rows.step d (d.suspend fates).1 (d.suspend fates).2 :=
  ⟨hup, _, _, exec_exec (D := rowDevice) fates (Row.suspendVm d.row.vm.snapshots) d.row, rfl⟩

def suspendedAtNoon : RowEvent × RowDaemon := (RowDaemon.init true).suspend atNoon

theorem suspend_starts_clock : suspendedAtNoon.2.row.vm.state = .suspended ∧
    ∃ since, suspendedAtNoon.2.row.suspendedAt = some since := by
  have hrun : rows.Run (.init true) [suspendedAtNoon.1] suspendedAtNoon.2 :=
    .cons (RowDaemon.suspend_step rfl _) (.nil _)
  have hanchors : ∀ e ∈ [suspendedAtNoon.1], e.Anchors := by
    rw [forall_mem_singleton]
    intro x hx _
    have hfate := exec_fates (D := rowDevice) atNoon (Row.suspendVm true) (RowDaemon.init true).row
    exact ⟨⟨0⟩, hfate x hx⟩
  have hstate : suspendedAtNoon.2.row.vm.state = .suspended := by decide
  obtain ⟨since, hsince, -⟩ := suspended_vms_are_anchored (ι := ℕ) true hrun hanchors hstate
  exact ⟨hstate, since, hsince⟩

def dyingAtDestroy (a : RowAct) : Fate Turn :=
  if a = .base .destroy then .died ⟨none, ⟨0⟩⟩ else .done ⟨none, ⟨0⟩⟩

def cutShort : RowEvent × RowDaemon := (RowDaemon.init true).suspend dyingAtDestroy

def finished : RowTrace × Option Bool × Row := rowDevice.exec atNoon (onRow startup) cutShort.2.row

/-- The next startup finishes the suspend and leaves the column empty. -/
theorem finished_suspend_has_no_clock :
    rows.Run (.init true) [cutShort.1, .startup finished.1] (.after true finished.2.2) ∧
      finished.2.2.vm.state = .suspended ∧ finished.2.2.suspendedAt = none := by
  have hstartup : rows.step cutShort.2 (.startup finished.1) (.after true finished.2.2) :=
    ⟨by decide, finished.2.1, finished.2.2, exec_exec (D := rowDevice) atNoon _ _, rfl⟩
  exact ⟨.cons (RowDaemon.suspend_step rfl _) (.cons hstartup (.nil _)), by decide, by decide⟩

end Husker.Suspend
