import Husker.Relational.Machine
import Husker.Relational.Program
import Husker.Store.Schema

/-! # Whose files a slot holds

The files of a slot are judged by their existence alone.  As long as every removal of the slot
succeeds, a VM that runs has none, so what a suspend finds or leaves there is its own.
-/
namespace Husker.Suspend
open Relational Store Option

/-! ## Suspending and resuming one VM

The operations hold the VM's name lock from the first read on, so for one VM they run one after
another.  What they await is an action of its own: the daemon may die at each of them, and each
may fail.  Awaits that touch neither the record, nor the slot, nor the VMM are left out; dying
there is dying at the next action.
-/

/-! ## State -/

/-- A file of the suspend slot: which suspend wrote it, and whether it wrote all of it. -/
structure SlotFile where
  writer : ℕ
  whole : Bool
  deriving DecidableEq

@[ext] structure Slot where
  manifest : Option SlotFile
  memory : Option SlotFile
  vmstate : Option SlotFile
  deriving DecidableEq

def Slot.empty : Slot := ⟨none, none, none⟩

inductive Guest where
  | running | paused | halted
  deriving DecidableEq

/-- The record's state and the slot are durable, the instance dies with the daemon.  The suspends
are numbered, and `restored` lists the suspends whose snapshot was restored in place. -/
structure Vm where
  state : VmLifecycleState
  slot : Slot
  guest : Option Guest
  snapshots : Bool
  suspends : ℕ
  restored : List ℕ

/-! ## Actions -/

inductive Write where
  | updateVmState (s : VmLifecycleState)
  | updateVmRuntime (s : VmLifecycleState)
  | markVmStopped
  deriving DecidableEq

def Write.target : Write → VmLifecycleState
  | .updateVmState s | .updateVmRuntime s => s
  | .markVmStopped => .stopped

inductive Act where
  /-- `lookup_vm` and the checks that follow it. -/
  | lookup
  | write (w : Write)
  | markStale
  | pause
  | unpause
  | createSlot
  | snapshot
  | writeManifest
  | removeSlot
  | destroy
  | readManifest
  | restoreNetwork
  | restore
  | abort
  | correctClock
  | stop
  | slotComplete
  deriving DecidableEq

def Act.Resp : Act → Type
  | .lookup => Option VmLifecycleState
  | .correctClock => Unit
  | _ => Bool

abbrev api : Interface := ⟨Act, Act.Resp⟩

inductive Touch where
  | kept | partly | fully
  deriving DecidableEq

structure Glitch where
  manifest : Touch
  memory : Touch
  vmstate : Touch
  halts : Bool

def Touch.written (t : Touch) (writer : ℕ) (old : Option SlotFile) : Option SlotFile :=
  match t with
  | .kept => old
  | .partly => some ⟨writer, false⟩
  | .fully => some ⟨writer, true⟩

def Touch.removed (t : Touch) (old : Option SlotFile) : Option SlotFile :=
  if t = .kept then old else none

def Slot.captured (s : Slot) (writer : ℕ) (g : Glitch) : Slot :=
  { s with memory := g.memory.written writer s.memory, vmstate := g.vmstate.written writer s.vmstate }

def Slot.removed (s : Slot) (g : Glitch) : Slot :=
  ⟨g.manifest.removed s.manifest, g.memory.removed s.memory, g.vmstate.removed s.vmstate⟩

def Glitch.whole : Glitch := ⟨.kept, .fully, .fully, false⟩

def Slot.present (s : Slot) : Bool := s.manifest.isSome && s.memory.isSome && s.vmstate.isSome

def stale : List VmLifecycleState := [.running, .creating, .paused]

/-- An action that either succeeds with this effect or fails without any. -/
def attempt (x : Option Glitch) (v v' : Vm) : Bool × Vm := if x.isNone then (true, v') else (false, v)

/-- An action on the VMM's instance; without one it fails. -/
def onGuest (x : Option Glitch) (v : Vm) (next : Option Guest) : Bool × Vm :=
  match x, v.guest with
  | _, none => (false, v)
  | none, some _ => (true, { v with guest := next })
  | some g, some old => (false, { v with guest := some (if g.halts then .halted else old) })

/-- The number of the current suspend is drawn when the transient state is persisted. -/
def Vm.write (v : Vm) (s : VmLifecycleState) : Vm :=
  { v with state := s, suspends := if s = .suspending then v.suspends + 1 else v.suspends }

def Vm.restore (v : Vm) (x : Option Glitch) : Bool × Vm :=
  match x, v.guest, v.slot.memory, v.slot.vmstate with
  | none, none, some memory, some _ =>
    (true, { v with guest := some .running, restored := v.restored ++ [memory.writer] })
  | some g, none, _, _ => (false, { v with guest := if g.halts then some .halted else none })
  | _, _, _, _ => (false, v)

def run : (a : Act) → Option Glitch → Vm → a.Resp × Vm
  | .lookup, x, v => (if x.isNone then some v.state else none, v)
  | .write w, x, v => attempt x v (v.write w.target)
  | .markStale, x, v => attempt x v (if v.state ∈ stale then v.write .stopped else v)
  | .pause, x, v => onGuest x v (some .paused)
  | .unpause, x, v => onGuest x v (some .running)
  | .createSlot, x, v | .restoreNetwork, x, v => attempt x v v
  | .snapshot, x, v =>
    if v.guest = some .paused then
      (x.isNone, { v with slot := v.slot.captured v.suspends (x.getD .whole) })
    else (false, v)
  | .writeManifest, x, v =>
    attempt x v { v with slot := { v.slot with manifest := some ⟨v.suspends, true⟩ } }
  | .removeSlot, x, v =>
    (x.isNone, { v with slot := x.elim .empty v.slot.removed })
  | .destroy, x, v => onGuest x v none
  | .readManifest, x, v => (x.isNone && v.slot.manifest.isSome, v)
  | .restore, x, v => v.restore x
  | .abort, x, v => attempt x v { v with guest := none }
  | .correctClock, _, v => ((), v)
  | .stop, x, v => onGuest x v (some .halted)
  | .slotComplete, x, v => (x.isNone && v.slot.present, v)

def torn : Act → Option Glitch → Vm → Vm
  | .snapshot, some g, v =>
    if v.guest = some .paused then { v with slot := v.slot.captured v.suspends g } else v
  | .removeSlot, some g, v => { v with slot := v.slot.removed g }
  | _, _, v => v

def device : Device api Vm (Option Glitch) := ⟨run, torn⟩

/-! ## Operations -/

abbrev Code := Program api

def ask (a : Act) : Code a.Resp := Program.perform (I := api) a

/-- Pause, snapshot, then the manifest, which is written last and atomically. -/
def capture (pausedByUs : Bool) : Code Bool := do
  if pausedByUs then
    if !(← ask .pause) then return false
  if !(← ask .createSlot) then return false
  if !(← ask .snapshot) then return false
  ask .writeManifest

def rollback (original : VmLifecycleState) : Code Bool := do
  let _ ← ask .removeSlot
  if original = .running then
    let _ ← ask .unpause
  let _ ← ask (.write (.updateVmState original))
  return false

def suspendVmLocked (original : VmLifecycleState) : Code Bool := do
  if !(← ask (.write (.updateVmState .suspending))) then return false
  if !(← capture (original = .running)) then return ← rollback original
  if !(← ask .destroy) then return ← rollback original
  ask (.write (.updateVmRuntime .suspended))

def suspendVm (supported : Bool) : Code Bool := do
  match ← ask .lookup with
  | none => return false
  | some .suspended => return true
  | some .running => if supported then suspendVmLocked .running else return false
  | some .paused => if supported then suspendVmLocked .paused else return false
  | some _ => return false

def restoreFromSuspend : Code Bool := do
  if !(← ask .readManifest) then return false
  if !(← ask .restore) then
    -- the instance a failed restore may have left would refuse every later one
    let _ ← ask .abort
    return false
  ask .correctClock
  if !(← ask (.write (.updateVmRuntime .running))) then return false
  let _ ← ask .removeSlot
  return true

def resumeVm : Code Bool := do
  match ← ask .lookup with
  | none => return false
  | some .paused =>
    if !(← ask .unpause) then return false
    ask (.write (.updateVmState .running))
  | some .suspended =>
    if !(← ask .restoreNetwork) then return false
    restoreFromSuspend
  | some .running => return true
  | some _ => return false

def pauseVm : Code Bool := do
  match ← ask .lookup with
  | none => return false
  | some .running =>
    if !(← ask .pause) then return false
    if !(← ask (.write (.updateVmState .paused))) then
      let _ ← ask .unpause
      return false
    return true
  | some .paused => return true
  | some _ => return false

def stopVm : Code Bool := do
  match ← ask .lookup with
  | none => return false
  | some .running | some .paused =>
    if !(← ask .stop) then return false
    ask (.write .markVmStopped)
  | some .suspended =>
    let _ ← ask .removeSlot
    ask (.write .markVmStopped)
  | some .stopped => return true
  | some _ => return false

def reconcileSuspendedVms : Code Bool := do
  match ← ask .lookup with
  | some .suspending =>
    let complete : Bool ← ask .slotComplete
    if complete then ask (.write (.updateVmRuntime .suspended))
    else
      let _ ← ask .removeSlot
      ask (.write .markVmStopped)
  | _ => return true

/-- Startup: a failed reconciliation is only logged, a failed stale-state pass ends it. -/
def startup : Code Bool := do
  if !(← ask .markStale) then return false
  let _ ← reconcileSuspendedVms
  return true

/-! ## Runs -/

inductive Op where
  | suspend | resume | pause | stop

def Op.code (snapshots : Bool) : Op → Code Bool
  | .suspend => suspendVm snapshots
  | .resume => resumeVm
  | .pause => pauseVm
  | .stop => stopVm

abbrev Trace := List (Act × Fate (Option Glitch))

structure Daemon where
  vm : Vm
  up : Bool

inductive Event where
  | op (op : Op) (trace : Trace)
  | startup (trace : Trace)
  | crash

def Event.trace : Event → Trace
  | .op _ trace | .startup trace => trace
  | .crash => []

/-- The daemon after an operation that ended or, without a result, killed it. -/
def Daemon.after (up : Bool) (vm : Vm) : Daemon := ⟨if up then vm else { vm with guest := none }, up⟩

def lifecycle : Machine Daemon Event where
  step d
    | .op op trace, d' => d.up = true ∧ ∃ result vm,
        device.Exec d.vm (op.code d.vm.snapshots) trace result vm ∧ d' = .after result.isSome vm
    | .startup trace, d' => d.up = false ∧ ∃ result vm,
        device.Exec d.vm startup trace result vm ∧ d' = .after (result = some true) vm
    | .crash, d' => d.up = true ∧ d' = .after false d.vm

def Daemon.init (snapshots : Bool) : Daemon :=
  ⟨⟨.running, .empty, some .running, snapshots, 0, []⟩, true⟩

variable {v : Vm} {allowed : Act → Fate (Option Glitch) → Prop} {β : Type}
  {Q : Option β → Vm → Prop}

/-! ## One rule for each kind of action -/

def Act.silent : Act → Bool
  | .pause | .unpause | .createSlot | .destroy | .readManifest | .restoreNetwork | .abort
  | .correctClock | .stop | .slotComplete => true
  | _ => false

variable {a : Act} {next : Bool → Code β} {slot : Slot} {n : ℕ}

lemma run_silent (ha : a.silent = true) (x : Option Glitch) (v : Vm) :
    ∃ g, (run a x v).2 = { v with guest := g } := by
  cases a with
  | pause | unpause | destroy | stop =>
    rcases x with - | g <;> rcases hg : v.guest with - | old <;> simp only [run, onGuest, hg]
    all_goals exact ⟨_, rfl⟩
  | createSlot | restoreNetwork | abort =>
    rcases x with - | g <;> exact ⟨_, rfl⟩
  | readManifest | correctClock | slotComplete => exact ⟨v.guest, rfl⟩
  | _ => simp [Act.silent] at ha

lemma torn_silent (ha : a.silent = true) (x : Option Glitch) (v : Vm) : torn a x v = v := by
  cases a <;> first | rfl | simp [Act.silent] at ha

lemma wp_silent {next : a.Resp → Code β} (ha : a.silent = true) (hdied : Q none v)
    (hdone : ∀ r g, device.wp allowed (next r) Q { v with guest := g }) :
    device.wp allowed (.act a next) Q v := by
  refine ⟨fun x _ => ?_, fun x _ => ?_⟩
  · change Q none (torn a x v)
    rwa [torn_silent ha]
  · change device.wp allowed (next (run a x v).1) Q (run a x v).2
    obtain ⟨g, hg⟩ := run_silent ha x v
    rw [hg]
    exact hdone _ g

lemma wp_lookup {next : Option VmLifecycleState → Code β} (hdied : Q none v)
    (hfailed : device.wp allowed (next none) Q v)
    (hdone : device.wp allowed (next (some v.state)) Q v) :
    device.wp allowed (.act .lookup next) Q v := by
  refine ⟨fun x _ => hdied, fun x _ => ?_⟩
  cases x with
  | none => exact hdone
  | some g => exact hfailed

lemma wp_write {w : Write} (hdied : Q none v) (hfailed : device.wp allowed (next false) Q v)
    (hdone : device.wp allowed (next true) Q (v.write w.target)) :
    device.wp allowed (.act (.write w) next) Q v := by
  refine ⟨fun x _ => hdied, fun x _ => ?_⟩
  cases x with
  | none => exact hdone
  | some g => exact hfailed

def Removes (a : Act) (fate : Fate (Option Glitch)) : Prop :=
  ∀ g, a = .removeSlot → fate ≠ .done (some g)

lemma wp_removeSlot (hallowed : ∀ a fate, allowed a fate → Removes a fate)
    (hdied : ∀ g, Q none { v with slot := v.slot.removed g }) (hkept : Q none v)
    (hdone : device.wp allowed (next true) Q { v with slot := .empty }) :
    device.wp allowed (.act .removeSlot next) Q v := by
  refine ⟨fun x _ => ?_, fun x hx => ?_⟩
  · cases x with
    | none => exact hkept
    | some g => exact hdied g
  · cases x with
    | none => exact hdone
    | some g => exact absurd rfl (hallowed _ _ hx g rfl)

lemma wp_snapshot (hdied : ∀ g, Q none { v with slot := v.slot.captured v.suspends g })
    (hkept : Q none v)
    (hfailed : ∀ g, device.wp allowed (next false) Q { v with slot := v.slot.captured v.suspends g })
    (hrefused : device.wp allowed (next false) Q v)
    (hdone : device.wp allowed (next true) Q { v with slot := v.slot.captured v.suspends .whole }) :
    device.wp allowed (.act .snapshot next) Q v := by
  refine ⟨fun x _ => ?_, fun x _ => ?_⟩
  · change Q none (torn .snapshot x v)
    unfold torn
    split
    · split_ifs
      · exact hdied _
      · exact hkept
    all_goals first | exact hkept | contradiction
  · change device.wp allowed (next (run .snapshot x v).1) Q (run .snapshot x v).2
    by_cases hpaused : v.guest = some .paused
    · rw [run, if_pos hpaused]
      cases x with
      | none => exact hdone
      | some g => exact hfailed g
    · rw [run, if_neg hpaused]
      exact hrefused

lemma wp_writeManifest (hdied : Q none v) (hfailed : device.wp allowed (next false) Q v)
    (hdone : device.wp allowed (next true) Q
      { v with slot := { v.slot with manifest := some ⟨v.suspends, true⟩ } }) :
    device.wp allowed (.act .writeManifest next) Q v := by
  refine ⟨fun x _ => hdied, fun x _ => ?_⟩
  cases x with
  | none => exact hdone
  | some g => exact hfailed

open Vm

lemma wp_restore (hdied : Q none v)
    (hfailed : ∀ g, device.wp allowed (next false) Q { v with guest := g })
    (hdone : ∀ memory ∈ v.slot.memory, device.wp allowed (next true) Q
      { v with guest := some .running, restored := v.restored ++ [memory.writer] }) :
    device.wp allowed (.act .restore next) Q v := by
  refine ⟨fun x _ => hdied, fun x _ => ?_⟩
  change device.wp allowed (next (v.restore x).1) Q (v.restore x).2
  unfold restore
  split
  · rename_i memory _ _ hmemory _ _
    exact hdone memory hmemory
  · exact hfailed _
  · exact hfailed v.guest

/-! ## Ownership -/

/-- Every file is one of the current suspend, and next to a manifest it is whole. -/
structure Own (slot : Slot) (n : ℕ) : Prop where
  writer : ∀ f, f ∈ slot.manifest ∨ f ∈ slot.memory ∨ f ∈ slot.vmstate → f.writer = n
  whole : slot.manifest.isSome = true →
    ∀ f, f ∈ slot.manifest ∨ f ∈ slot.memory ∨ f ∈ slot.vmstate → f.whole = true

def Owned (v : Vm) : Prop := v.state = .suspending ∨ v.state = .suspended → Own v.slot v.suspends

def Cleared (v : Vm) : Prop := v.state ∈ stale → v.slot = .empty

lemma owned_of_state (h : v.state ≠ .suspending ∧ v.state ≠ .suspended) : Owned v :=
  fun hv => absurd hv (not_or.mpr h)

lemma own_empty (n : ℕ) : Own .empty n := ⟨by simp [Slot.empty], by simp [Slot.empty]⟩

lemma Own.removed (h : Own slot n) (g : Glitch) : Own (slot.removed g) n := by
  have hfile (t : Touch) (old : Option SlotFile) (f : SlotFile) (hf : f ∈ t.removed old) :
      f ∈ old := by
    unfold Touch.removed at hf
    split_ifs at hf
    · exact hf
    · contradiction
  have hkeep (f : SlotFile) (hf : f ∈ (slot.removed g).manifest ∨ f ∈ (slot.removed g).memory ∨
      f ∈ (slot.removed g).vmstate) : f ∈ slot.manifest ∨ f ∈ slot.memory ∨ f ∈ slot.vmstate :=
    hf.imp (hfile _ _ f) (Or.imp (hfile _ _ f) (hfile _ _ f))
  refine ⟨fun f hf => h.writer f (hkeep f hf), fun hmanifest f hf => h.whole ?_ f (hkeep f hf)⟩
  obtain ⟨m, hm⟩ := isSome_iff_exists.mp hmanifest
  exact isSome_iff_exists.mpr ⟨m, hfile _ _ m hm⟩

lemma own_captured (h : Own slot n) (hmanifest : slot.manifest = none)
    (g : Glitch) : Own (slot.captured n g) n := by
  have hfile (t : Touch) (old : Option SlotFile) (hold : ∀ f ∈ old, f.writer = n) (f : SlotFile)
      (hf : f ∈ t.written n old) : f.writer = n := by
    cases t with
    | kept => exact hold f hf
    | partly | fully =>
      rw [← some.inj hf]
  refine ⟨fun f hf => ?_, fun hsome => ?_⟩
  · rcases hf with hf | hf | hf
    · exact h.writer f (.inl hf)
    · exact hfile _ _ (fun f hf => h.writer f (.inr (.inl hf))) f hf
    · exact hfile _ _ (fun f hf => h.writer f (.inr (.inr hf))) f hf
  · simp [Slot.captured, hmanifest] at hsome

lemma own_manifest : Own { slot.captured n .whole with manifest := some ⟨n, true⟩ } n := by
  refine ⟨fun f hf => ?_, fun _ f hf => ?_⟩ <;> rcases hf with hf | hf | hf <;> rw [← some.inj hf]

/-! ## The operations keep it -/

variable {original : VmLifecycleState} {o : Option Bool}

section
variable (hallowed : ∀ a fate, allowed a fate → Removes a fate)

def Suspending (v : Vm) : Prop := v.state = .suspending ∧ Own v.slot v.suspends

/-- What every operation leaves; one that died may leave a slot next to a running record. -/
def Kept (o : Option Bool) (v : Vm) : Prop := Owned v ∧ (o.isSome = true → Cleared v)

lemma Suspending.owned (h : Suspending v) : Owned v := fun _ => h.2

lemma capture_suspending {pausedByUs : Bool} (h : Suspending v) (hmanifest : v.slot.manifest = none) :
    device.wp allowed (capture pausedByUs) (fun _ => Suspending) v := by
  have hrest (g : Option Guest) : device.wp allowed (do
      if !(← ask .createSlot) then return false
      if !(← ask .snapshot) then return false
      ask .writeManifest) (fun _ => Suspending) { v with guest := g } := by
    refine wp_silent rfl h fun r g => ?_
    cases r with
    | false => exact h
    | true =>
    have htouched (glitch : Glitch) :
        Suspending { v with guest := g, slot := v.slot.captured v.suspends glitch } :=
      ⟨h.1, own_captured h.2 hmanifest glitch⟩
    refine wp_snapshot (v := { v with guest := g }) htouched h htouched h ?_
    exact wp_writeManifest (htouched _) (htouched _) ⟨h.1, own_manifest⟩
  cases pausedByUs with
  | false => exact hrest v.guest
  | true =>
  refine wp_silent rfl h fun r g => ?_
  cases r with
  | false => exact h
  | true => exact hrest g

include hallowed in
lemma rollback_cleared (h : Suspending v) : device.wp allowed (rollback original) Kept v := by
  have hgone (g : Option Guest) : Owned { v with slot := .empty, guest := g } ∧
      Cleared { v with slot := .empty, guest := g } := ⟨fun _ => own_empty _, fun _ => rfl⟩
  have hwrite (g : Option Guest) : device.wp allowed (do
      let _ ← ask (.write (.updateVmState original))
      return false) Kept
      { v with slot := .empty, guest := g } := by
    refine wp_write ⟨(hgone g).1, by simp⟩ ⟨(hgone g).1, fun _ => (hgone g).2⟩ ⟨?_, fun _ _ => rfl⟩
    exact fun _ => own_empty _
  refine wp_removeSlot hallowed (fun g => ⟨fun _ => h.2.removed g, by simp⟩) ⟨h.owned, by simp⟩ ?_
  change device.wp allowed (if original = .running then _ else _) _ _
  split_ifs
  · exact wp_silent rfl ⟨(hgone v.guest).1, by simp⟩ fun _ g => hwrite g
  · exact hwrite v.guest

include hallowed in
lemma suspendVmLocked_cleared (h : Owned v) (hclear : Cleared v)
    (hstate : v.state = original) (horiginal : original ∈ stale) :
    device.wp allowed (suspendVmLocked original) Kept v := by
  have hempty : v.slot = .empty := hclear (hstate ▸ horiginal)
  refine wp_write ⟨h, by simp⟩ ⟨h, fun _ => hclear⟩ ?_
  have hmarked : Suspending (v.write .suspending) := ⟨rfl, by rw [write, hempty]; exact own_empty _⟩
  change device.wp allowed (capture _ >>= _) _ _
  refine Device.wp_seq (capture_suspending hmarked (by rw [write, hempty]; rfl))
    (fun v' hv' => ⟨hv'.owned, by simp⟩) fun captured v' hv' => ?_
  cases captured with
  | false => exact rollback_cleared hallowed hv'
  | true =>
  refine wp_silent rfl ⟨hv'.owned, by simp⟩ fun r g => ?_
  cases r with
  | false => exact rollback_cleared hallowed (v := { v' with guest := g }) hv'
  | true =>
  refine wp_write ⟨hv'.owned, by simp⟩ ⟨hv'.owned, fun _ hstale => ?_⟩
    ⟨fun _ => hv'.2, fun _ hstale => ?_⟩
  · simp [hv'.1, stale] at hstale
  · simp [write, Write.target, stale] at hstale

lemma Kept.of_owned (h : Owned v) (hstate : v.state ∉ stale) : Kept o v :=
  ⟨h, fun _ hstale => absurd hstale hstate⟩

include hallowed in
lemma suspendVm_kept (h : Owned v) (hclear : Cleared v) (supported : Bool) :
    device.wp allowed (suspendVm supported) Kept v := by
  have hsame (o : Option Bool) : Kept o v := ⟨h, fun _ => hclear⟩
  refine wp_lookup (hsame _) (hsame _) ?_
  cases hstate : v.state with
  | running | paused =>
    cases supported with
    | false => exact hsame _
    | true => exact suspendVmLocked_cleared hallowed h hclear hstate (by simp [stale])
  | _ => exact hsame _

include hallowed in
lemma restoreFromSuspend_kept (h : Owned v) (hstate : v.state = .suspended) :
    device.wp allowed restoreFromSuspend Kept v := by
  have hsame (o : Option Bool) (g : Option Guest) (restored : List ℕ) :
      Kept o { v with guest := g, restored := restored } :=
    .of_owned (v := { v with guest := g, restored := restored }) h (by simp [hstate, stale])
  refine wp_silent rfl (hsame _ _ _) fun r g => ?_
  cases r with
  | false => exact hsame _ _ _
  | true =>
  refine wp_restore (hsame _ _ _) (fun g => ?_) fun memory _ => ?_
  · exact wp_silent rfl (hsame _ _ _) fun _ g => hsame _ _ _
  refine wp_silent rfl (hsame _ _ _) fun _ g => ?_
  refine wp_write (hsame _ _ _) (hsame _ _ _) ?_
  -- the record says running now, so only the removal that follows clears the slot
  have howned {v' : Vm} (hv' : v'.state = .running) : Owned v' := owned_of_state (by simp [hv'])
  exact wp_removeSlot hallowed (fun _ => ⟨howned rfl, by simp⟩) ⟨howned rfl, by simp⟩
    ⟨howned rfl, fun _ _ => rfl⟩

include hallowed in
lemma resumeVm_kept (h : Owned v) (hclear : Cleared v) : device.wp allowed resumeVm Kept v := by
  have hsame (o : Option Bool) (g : Option Guest) : Kept o { v with guest := g } :=
    ⟨h, fun _ => hclear⟩
  refine wp_lookup (hsame _ _) (hsame _ _) ?_
  cases hstate : v.state with
  | paused =>
    have hempty : v.slot = .empty := hclear (by simp [hstate, stale])
    refine wp_silent rfl (hsame _ _) fun r g => ?_
    cases r with
    | false => exact hsame _ _
    | true =>
      refine wp_write (hsame _ _) (hsame _ _) ⟨owned_of_state ?_, fun _ _ => hempty⟩
      simp [write, Write.target]
  | suspended =>
    refine wp_silent rfl (hsame _ _) fun r g => ?_
    cases r with
    | false => exact hsame _ _
    | true => exact restoreFromSuspend_kept hallowed (v := { v with guest := g }) h hstate
  | _ => exact hsame _ v.guest

lemma pauseVm_kept (h : Owned v) (hclear : Cleared v) : device.wp allowed pauseVm Kept v := by
  have hsame (o : Option Bool) (g : Option Guest) : Kept o { v with guest := g } :=
    ⟨h, fun _ => hclear⟩
  refine wp_lookup (hsame _ _) (hsame _ _) ?_
  cases hstate : v.state with
  | running =>
    have hempty : v.slot = .empty := hclear (by simp [hstate, stale])
    refine wp_silent rfl (hsame _ _) fun r g => ?_
    cases r with
    | false => exact hsame _ _
    | true =>
      refine wp_write (hsame _ _) (wp_silent rfl (hsame _ _) fun _ _ => hsame _ _)
        ⟨owned_of_state ?_, fun _ _ => hempty⟩
      simp [write, Write.target]
  | _ => exact hsame _ v.guest

lemma kept_stopped (v : Vm) : Kept o (v.write .stopped) :=
  .of_owned (owned_of_state (by simp [write])) (by simp [write, stale])

include hallowed in
/-- A VM whose slot is given up is stopped. -/
lemma discard_kept (hown : Own v.slot v.suspends) (hstate : v.state ∉ stale) :
    device.wp allowed (do let _ ← ask .removeSlot; ask (.write .markVmStopped)) Kept v := by
  have hkept (o : Option Bool) (slot : Slot) (hslot : Own slot v.suspends) :
      Kept o { v with slot := slot } := .of_owned (fun _ => hslot) hstate
  exact wp_removeSlot hallowed (fun g => hkept _ _ (hown.removed g)) (hkept _ _ hown)
    (wp_write (hkept _ _ (own_empty _)) (hkept _ _ (own_empty _)) (kept_stopped _))

include hallowed in
lemma stopVm_kept (h : Owned v) (hclear : Cleared v) : device.wp allowed stopVm Kept v := by
  have hsame (o : Option Bool) (g : Option Guest) : Kept o { v with guest := g } :=
    ⟨h, fun _ => hclear⟩
  refine wp_lookup (hsame _ _) (hsame _ _) ?_
  cases hstate : v.state with
  | running | paused =>
    refine wp_silent rfl (hsame _ _) fun r g => ?_
    cases r with
    | false => exact hsame _ _
    | true => exact wp_write (hsame _ _) (hsame _ _) (kept_stopped _)
  | suspended =>
    exact discard_kept hallowed (h (.inr hstate)) (by simp [hstate, stale])
  | _ => exact hsame _ v.guest

lemma wp_markStale {next : Bool → Code β} (hdied : Q none v)
    (hfailed : device.wp allowed (next false) Q v)
    (hdone : device.wp allowed (next true) Q (if v.state ∈ stale then v.write .stopped else v)) :
    device.wp allowed (.act .markStale next) Q v := by
  refine ⟨fun x _ => hdied, fun x _ => ?_⟩
  cases x with
  | none => exact hdone
  | some g => exact hfailed

include hallowed in
lemma reconcileSuspendedVms_kept (h : Owned v) (hstale : v.state ∉ stale) :
    device.wp allowed reconcileSuspendedVms Kept v := by
  have hsame (o : Option Bool) (g : Option Guest) : Kept o { v with guest := g } :=
    .of_owned (v := { v with guest := g }) h hstale
  refine wp_lookup (hsame _ _) (hsame _ _) ?_
  cases hstate : v.state with
  | suspending =>
    have hown : Own v.slot v.suspends := h (.inl hstate)
    refine wp_silent rfl (hsame _ _) fun r g => ?_
    cases r with
    | true =>
      exact wp_write (hsame _ _) (hsame _ _) (.of_owned (fun _ => hown) (by simp [write, stale,
        Write.target]))
    | false =>
      exact discard_kept hallowed (v := { v with guest := g }) hown (by simp [hstate, stale])
  | _ => exact hsame _ v.guest

/-- What a startup leaves; only one that went through clears what a crash had left. -/
def Started (o : Option Bool) (v : Vm) : Prop := Owned v ∧ (o = some true → Cleared v)

include hallowed in
lemma startup_started (h : Owned v) : device.wp allowed startup Started v := by
  refine wp_markStale ⟨h, by simp⟩ ⟨h, by simp⟩ ?_
  have hmarked : Owned (if v.state ∈ stale then v.write .stopped else v) ∧
      (if v.state ∈ stale then v.write .stopped else v).state ∉ stale := by
    split_ifs with hstale
    · exact ⟨owned_of_state (by simp [write]), by simp [write, stale]⟩
    · exact ⟨h, hstale⟩
  change device.wp allowed (reconcileSuspendedVms >>= _) _ _
  exact Device.wp_seq (reconcileSuspendedVms_kept hallowed hmarked.1 hmarked.2)
    (fun v' hv' => ⟨hv'.1, by simp⟩) fun o v' hv' => ⟨hv'.1, fun _ => hv'.2 rfl⟩

end

/-! ## Runs -/

def Meets (allowed : Act → Fate (Option Glitch) → Prop) (trace : List Event) : Prop :=
  ∀ e ∈ trace, ∀ x ∈ e.trace, allowed x.1 x.2

structure Tidy (d : Daemon) : Prop where
  owned : Owned d.vm
  cleared : d.up = true → Cleared d.vm

lemma tidy_after {up : Bool} (h : Owned v) (hclear : up = true → Cleared v) : Tidy (.after up v) := by
  cases up with
  | false => exact ⟨h, by simp [Daemon.after]⟩
  | true => exact ⟨h, fun _ => hclear rfl⟩

lemma Tidy.step {d d' : Daemon} {e : Event} (h : Tidy d)
    (hmeets : ∀ x ∈ e.trace, Removes x.1 x.2) (hstep : lifecycle.step d e d') : Tidy d' := by
  cases e with
  | op op trace =>
    obtain ⟨hup, result, vm, hexec, rfl⟩ := hstep
    have hwp : device.wp Removes (op.code d.vm.snapshots) Kept d.vm := by
      cases op with
      | suspend => exact suspendVm_kept (fun _ _ ha => ha) h.owned (h.cleared hup) _
      | resume => exact resumeVm_kept (fun _ _ ha => ha) h.owned (h.cleared hup)
      | pause => exact pauseVm_kept h.owned (h.cleared hup)
      | stop => exact stopVm_kept (fun _ _ ha => ha) h.owned (h.cleared hup)
    obtain ⟨howned, hclear⟩ := hexec.post hmeets hwp
    exact tidy_after howned hclear
  | startup trace =>
    obtain ⟨-, result, vm, hexec, rfl⟩ := hstep
    obtain ⟨howned, hclear⟩ := hexec.post hmeets (startup_started (fun _ _ ha => ha) h.owned)
    exact tidy_after howned fun hup => hclear (of_decide_eq_true hup)
  | crash =>
    obtain ⟨-, rfl⟩ := hstep
    exact tidy_after h.owned (by simp)

lemma tidy_init (snapshots : Bool) : Tidy (.init snapshots) :=
  ⟨owned_of_state (by simp [Daemon.init]), fun _ _ => rfl⟩

lemma tidy_of_run {snapshots : Bool} {trace : List Event} {d : Daemon}
    (h : lifecycle.Run (.init snapshots) trace d) (hmeets : Meets Removes trace) : Tidy d := by
  refine h.history (I := fun trace d => Meets Removes trace → Tidy d) (fun _ => tidy_init _)
    (fun trace d e d' _ hd hstep hmeets => ?_) hmeets
  rw [Meets, List.forall_mem_append] at hmeets
  exact (hd hmeets.1).step (hmeets.2 e (.head _)) hstep

end Husker.Suspend
