import Husker.Store.Schema
import Husker.Relational.Machine
import Husker.Relational.Tasks

/-! # The idle policy

When a VM that opted in is suspended for being idle, and when a suspended one is reaped.
-/
namespace Husker.Idle
open Store

variable {ι : Type}

inductive BackendKind where
  | firecracker
  | qemu
  | appleVz
  deriving DecidableEq

def BackendKind.snapshot : BackendKind → Bool
  | .firecracker => true
  | .qemu | .appleVz => false

structure VmRecord (ι : Type) where
  id : ι
  name : String
  state : VmLifecycleState
  vmm : BackendKind
  serviceId : Option ι
  forkedFrom : Option ι
  volume : Option String
  tapDevice : Option String
  lastActivityAt : DateTime
  suspendedAt : Option DateTime
  idleTimeoutSecs : Option ℕ
  suspendTtlSecs : Option ℕ
  autoResume : Bool
  deriving DecidableEq

inductive PolicyAction where
  | none
  | suspend
  | reap
  deriving DecidableEq

def nanosPerSec : ℕ := 1000000000

def numSeconds (later earlier : DateTime) : ℤ := (later.nanos - earlier.nanos).tdiv nanosPerSec

/-- A `u64` read as an `i64`. -/
def asI64 (n : ℕ) : ℤ := (BitVec.ofNat 64 n).toInt

/-- The decision, from inputs that the caller has resolved; durations are in nanoseconds. -/
def evaluatePolicy (record : VmRecord ι) (now : DateTime) (idleFor : Option ℕ)
    (hasActiveSession hasLiveFork : Bool) : PolicyAction :=
  match record.idleTimeoutSecs with
  | none => .none
  | some idleTimeout =>
    if record.vmm ≠ .firecracker then .none
    else if record.serviceId.isSome || record.forkedFrom.isSome then .none
    else if hasActiveSession then .none
    else
      match record.state with
      | .running =>
        match idleFor with
        | some d => if idleTimeout ≤ d / nanosPerSec then .suspend else .none
        | none => .none
      | .suspended =>
        let ttl := record.suspendTtlSecs.getD 0
        if ttl = 0 then .none
        else if record.volume.isSome || hasLiveFork then .none
        else
          match record.suspendedAt with
          | none => .none
          | some since => if asI64 ttl ≤ numSeconds now since then .reap else .none
      | _ => .none

lemma evaluatePolicy_active (record : VmRecord ι) (now : DateTime) (idleFor : Option ℕ)
    (hasLiveFork : Bool) : evaluatePolicy record now idleFor true hasLiveFork = .none := by
  cases h : record.idleTimeoutSecs with
  | none => simp [evaluatePolicy, h]
  | some idleTimeout => simp [evaluatePolicy, h]

/-! # Sessions and the idle tick

The tick of the idle policy holds the name lock of a VM from its second look until the VM is
suspended.  A session is pinned by a counter, without that lock.  Calls are cut where another one
can come between two of their steps.
-/
open Relational

/-! ## Places -/

inductive Task (ι : Type) where
  /-- `idle_policy_tick` is about to list the VMs. -/
  | tick
  | next (rest : List (VmRecord ι))
  /-- The first verdict was to suspend; the name lock comes next. -/
  | suspendLock (vm : VmRecord ι) (rest : List (VmRecord ι))
  | reread (vm : VmRecord ι) (rest : List (VmRecord ι))
  | judge (fresh : VmRecord ι) (rest : List (VmRecord ι))
  /-- `suspend_vm_locked` ends the userdata job. -/
  | cancel (fresh : VmRecord ι) (rest : List (VmRecord ι))
  | persist (fresh : VmRecord ι) (rest : List (VmRecord ι))
  | pause (fresh : VmRecord ι) (rest : List (VmRecord ι))
  | capture (fresh : VmRecord ι) (rest : List (VmRecord ι))
  | reapLock (vm : VmRecord ι) (rest : List (VmRecord ι))
  | reapJudge (vm : VmRecord ι) (rest : List (VmRecord ι))
  | reap (fresh : VmRecord ι) (rest : List (VmRecord ι))
  /-- `agent_connect_ready` is called. -/
  | ready (name : String)
  | readyPin (name : String) (id : ι)
  /-- `agent_connect` is called, perhaps under the guard of `agent_connect_ready`. -/
  | connect (outer : Option ι) (name : String)
  | resumeLock (outer : Option ι) (name : String)
  | resume (outer : Option ι) (name : String)
  | connectRead (outer : Option ι) (name : String)
  | pin (outer : Option ι) (name : String) (id : ι)
  | dial (outer : Option ι) (name : String) (id : ι)
  | ping (outer : Option ι) (name : String) (id : ι)
  /-- A caller of `begin_session`. -/
  | session (id : ι)
  | opened (id : ι)
  deriving DecidableEq

def Task.pins : Task ι → List ι
  | .connect outer _ | .resumeLock outer _ | .resume outer _ | .connectRead outer _
  | .pin outer _ _ => outer.toList
  | .dial outer _ id | .ping outer _ id => id :: outer.toList
  | .opened id => [id]
  | _ => []

def Task.lockName : Task ι → Option String
  | .resume _ name => some name
  | _ => none

def Task.connecting : Task ι → Bool
  | .ready _ | .readyPin _ _ | .connect _ _ | .resumeLock _ _ | .resume _ _ | .connectRead _ _
  | .pin _ _ _ | .dial _ _ _ | .ping _ _ _ | .session _ | .opened _ => true
  | _ => false

/-- A VM whose suspension a tick began, with the sessions open at that moment. -/
structure Begun (ι : Type) where
  id : ι
  sessions : ℕ
  guards : List (ℕ × ι)
  deriving DecidableEq

/-- What a step asks of the store, the backend, the counters of the kernel and the guest. -/
structure Answer where
  fails : Bool := false
  /-- Whether `agent_connect_ready` has time for another attempt. -/
  again : Bool := false
  counters : String → Option (ℕ × ℕ) := fun _ => none

structure Core (ι : Type) where
  vms : List (VmRecord ι)
  forwards : ι → List ℕ
  activeSessions : ι → ℕ
  guards : List (ℕ × ι)
  controlPlaneLastActive : ι → Option ℕ
  networkLastActive : ι → Option ℕ
  networkCounters : String → Option (ℕ × ℕ)
  instant : ℕ
  now : DateTime
  lock : String → Option ℕ
  tasks : Tasks ℕ (Task ι)
  begun : List (Begun ι)

namespace Core

variable [DecidableEq ι]

/-! ## Activity and sessions -/

def noteActivity (c : Core ι) (id : ι) : Core ι :=
  { c with controlPlaneLastActive := Function.update c.controlPlaneLastActive id (some c.instant) }

def markNetworkActive (c : Core ι) (id : ι) : Core ι :=
  { c with networkLastActive := Function.update c.networkLastActive id (some c.instant) }

def beginSession (c : Core ι) (t : ℕ) (id : ι) : Core ι :=
  { c with
    activeSessions := Function.update c.activeSessions id (c.activeSessions id + 1)
    guards := (t, id) :: c.guards }

def dropGuard (c : Core ι) (t : ℕ) (id : ι) : Core ι :=
  { c with
    activeSessions := Function.update c.activeSessions id (c.activeSessions id - 1)
    guards := c.guards.erase (t, id) }

def getVm (c : Core ι) (id : ι) : Option (VmRecord ι) := c.vms.find? (·.id = id)

def lookupVm (c : Core ι) (name : String) : Option (VmRecord ι) := c.vms.find? (·.name = name)

def updateVm (c : Core ι) (id : ι) (f : VmRecord ι → VmRecord ι) : Core ι :=
  { c with vms := c.vms.map fun r => if r.id = id then f r else r }

def countLiveForksOf (c : Core ι) (id : ι) : ℕ :=
  c.vms.countP fun r => r.forkedFrom = some id && r.state ≠ .stopped && r.state ≠ .failed

/-- How long the VM has been idle, unless it is not running or a session pins it. -/
def idleFor (c : Core ι) (record : VmRecord ι) : Option ℕ :=
  if record.state ≠ .running ∨ 0 < c.activeSessions record.id then none
  else
    let dbElapsed := (c.now.nanos - record.lastActivityAt.nanos).toNat
    let elapsed (last : Option ℕ) : ℕ := last.elim dbElapsed (c.instant - ·)
    some (min (elapsed (c.controlPlaneLastActive record.id)) (elapsed (c.networkLastActive record.id)))

/-- Compare the counters of the VM's forwards with the last tick, and keep the new ones. -/
def refreshNetworkActivity (c : Core ι) (vm : VmRecord ι) (counters : String → Option (ℕ × ℕ)) :
    Core ι :=
  match vm.tapDevice with
  | none => c
  | some tap =>
    let keys := (c.forwards vm.id).map fun port => s!"husker-pf:{tap}:{port}"
    let fresh (key : String) : ℕ × ℕ := (counters key).getD (0, 0)
    let grew := keys.any fun key => ((c.networkCounters key).getD (0, 0)).1 < (fresh key).1
    let c := { c with networkCounters := fun key =>
      if key ∈ keys then some (fresh key) else c.networkCounters key }
    if grew then c.markNetworkActive vm.id else c

def verdict (c : Core ι) (record : VmRecord ι) : PolicyAction :=
  evaluatePolicy record c.now (c.idleFor record) (0 < c.activeSessions record.id)
    (0 < c.countLiveForksOf record.id)

def reapVerdict (c : Core ι) (record : VmRecord ι) : PolicyAction :=
  evaluatePolicy record c.now none (0 < c.activeSessions record.id)
    (0 < c.countLiveForksOf record.id)

/-! ## Steps -/

def goto (c : Core ι) (t : ℕ) (task : Task ι) : Core ι := { c with tasks := c.tasks.set t task }

def finish (c : Core ι) (t : ℕ) : Core ι := { c with tasks := c.tasks.clear t }

def takeLock (c : Core ι) (t : ℕ) (name : String) (task : Task ι) : Option (Core ι) :=
  if (c.lock name).isSome then none
  else some ({ c with lock := Function.update c.lock name (some t) }.goto t task)

def unlock (c : Core ι) (name : String) : Core ι :=
  { c with lock := Function.update c.lock name none }

/-- The attempt failed for good: the guard of `agent_connect_ready` goes as well. -/
def giveUp (c : Core ι) (t : ℕ) (outer : Option ι) : Core ι :=
  (outer.elim c (c.dropGuard t)).finish t

def retry (c : Core ι) (t : ℕ) (outer : Option ι) (name : String) (again : Bool) : Core ι :=
  if outer.isSome && again then c.goto t (.connect outer name) else c.giveUp t outer

def begin (c : Core ι) (id : ι) : Core ι :=
  { c with begun := ⟨id, c.activeSessions id, c.guards.filter (·.2 = id)⟩ :: c.begun }

def advance (c : Core ι) (t : ℕ) (answer : Answer) : Option (Core ι) :=
  match c.tasks t with
  | none => none
  | some .tick => some (if answer.fails then c.finish t else c.goto t (.next c.vms))
  | some (.next []) => some (c.finish t)
  | some (.next (vm :: rest)) =>
    if vm.idleTimeoutSecs.isNone then some (c.goto t (.next rest))
    else
      let c := c.refreshNetworkActivity vm answer.counters
      some (c.goto t (match c.verdict vm with
        | .none => .next rest
        | .suspend => .suspendLock vm rest
        | .reap => .reapLock vm rest))
  | some (.suspendLock vm rest) => c.takeLock t vm.name (.reread vm rest)
  | some (.reread vm rest) =>
    match if answer.fails then none else c.getVm vm.id with
    | none => some ((c.unlock vm.name).goto t (.next rest))
    | some fresh =>
      some ((c.refreshNetworkActivity fresh answer.counters).goto t (.judge fresh rest))
  | some (.judge fresh rest) =>
    if c.verdict fresh = .suspend && fresh.vmm.snapshot then some (c.goto t (.cancel fresh rest))
    else some ((c.unlock fresh.name).goto t (.next rest))
  | some (.cancel fresh rest) => some (c.goto t (.persist fresh rest))
  | some (.persist fresh rest) =>
    if answer.fails || (c.getVm fresh.id).isNone then some ((c.unlock fresh.name).goto t (.next rest))
    else
      some (((c.updateVm fresh.id fun r => { r with state := .suspending }).begin fresh.id).goto t
        (.pause fresh rest))
  | some (.pause fresh rest) =>
    if answer.fails then
      some (((c.updateVm fresh.id fun r => { r with state := fresh.state }).unlock fresh.name).goto t
        (.next rest))
    else some ((c.begin fresh.id).goto t (.capture fresh rest))
  | some (.capture fresh rest) =>
    let c := c.updateVm fresh.id fun r =>
      if answer.fails then { r with state := fresh.state }
      else { r with state := .suspended, suspendedAt := some c.now }
    some ((c.unlock fresh.name).goto t (.next rest))
  | some (.reapLock vm rest) => c.takeLock t vm.name (.reapJudge vm rest)
  | some (.reapJudge vm rest) =>
    match if answer.fails then none else c.getVm vm.id with
    | none => some ((c.unlock vm.name).goto t (.next rest))
    | some fresh =>
      if c.reapVerdict fresh = .reap then some (c.goto t (.reap fresh rest))
      else some ((c.unlock vm.name).goto t (.next rest))
  | some (.reap fresh rest) =>
    let c := if answer.fails then c else { c with vms := c.vms.filter (·.id ≠ fresh.id) }
    some ((c.unlock fresh.name).goto t (.next rest))
  | some (.ready name) =>
    match c.lookupVm name with
    | none => some (c.finish t)
    | some record => some ((c.noteActivity record.id).goto t (.readyPin name record.id))
  | some (.readyPin name id) => some ((c.beginSession t id).goto t (.connect (some id) name))
  | some (.connect outer name) =>
    match c.lookupVm name with
    | none => some (c.giveUp t outer)
    | some record =>
      if record.state = .suspended then
        if record.autoResume then some (c.goto t (.resumeLock outer name))
        else some (c.giveUp t outer)
      else some (c.goto t (.connectRead outer name))
  | some (.resumeLock outer name) => c.takeLock t name (.resume outer name)
  | some (.resume outer name) =>
    let c := c.unlock name
    match c.lookupVm name with
    | none => some (c.giveUp t outer)
    | some record =>
      match record.state with
      | .running => some (c.goto t (.connectRead outer name))
      | .paused =>
        if answer.fails then some (c.retry t outer name answer.again)
        else some ((c.updateVm record.id fun r => { r with state := .running }).goto t
          (.connectRead outer name))
      | .suspended =>
        if answer.fails then some (c.retry t outer name answer.again)
        else
          let c := c.updateVm record.id fun r =>
            { r with state := .running, suspendedAt := none, lastActivityAt := c.now }
          some (((c.noteActivity record.id).markNetworkActive record.id).goto t
            (.connectRead outer name))
      | _ => some (c.giveUp t outer)
  | some (.connectRead outer name) =>
    match c.lookupVm name with
    | none => some (c.giveUp t outer)
    | some record =>
      if record.state ≠ .running then some (c.giveUp t outer)
      else
        let c := c.noteActivity record.id
        let c := if 30 ≤ numSeconds c.now record.lastActivityAt && !answer.fails then
          c.updateVm record.id fun r => { r with lastActivityAt := c.now } else c
        some (c.goto t (.pin outer name record.id))
  | some (.pin outer name id) => some ((c.beginSession t id).goto t (.dial outer name id))
  | some (.dial outer name id) =>
    if answer.fails then some ((c.dropGuard t id).retry t outer name answer.again)
    else some (c.goto t (.ping outer name id))
  | some (.ping outer name id) =>
    match outer with
    | none => some (c.goto t (.opened id))
    | some hold =>
      if answer.fails then some ((c.dropGuard t id).retry t outer name answer.again)
      else some ((c.dropGuard t hold).goto t (.opened id))
  | some (.session id) => some ((c.beginSession t id).goto t (.opened id))
  | some (.opened id) => some ((c.dropGuard t id).finish t)

end Core

/-! ## Runs -/

inductive Call (ι : Type) where
  | tick
  | agentConnect (name : String)
  | agentConnectReady (name : String)
  | beginSession (id : ι)

def Call.task : Call ι → Task ι
  | .tick => .tick
  | .agentConnect name => .connect none name
  | .agentConnectReady name => .ready name
  | .beginSession id => .session id

inductive Event (ι : Type) where
  | call (t : ℕ) (c : Call ι)
  | advance (t : ℕ) (answer : Answer)
  /-- The caller goes away; guards and locks are dropped with its call. -/
  | abandon (t : ℕ)
  | elapse (nanos : ℕ)

namespace Core

variable [DecidableEq ι]

def abandon (c : Core ι) (t : ℕ) (a : Task ι) : Core ι :=
  a.pins.foldl (fun c id => c.dropGuard t id) (a.lockName.elim c c.unlock)

def step (c : Core ι) : Event ι → Option (Core ι)
  | .call t call => if (c.tasks t).isSome then none else some (c.goto t call.task)
  | .advance t answer => c.advance t answer
  | .abandon t =>
    match c.tasks t with
    | some a => if a.connecting then some ((c.abandon t a).finish t) else none
    | none => none
  | .elapse nanos =>
    some { c with instant := c.instant + nanos, now := ⟨c.now.nanos + nanos⟩ }

structure Quiet (c : Core ι) : Prop where
  tasks : ∀ t, c.tasks t = none
  sessions : ∀ id, c.activeSessions id = 0
  guards : c.guards = []
  begun : c.begun = []

end Core

def interleaved (ι : Type) [DecidableEq ι] : Machine (Core ι) (Event ι) := .ofStep Core.step

end Husker.Idle
