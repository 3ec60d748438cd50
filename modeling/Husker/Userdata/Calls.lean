import Husker.Relational.Tasks
import Husker.Store.Schema
import Mathlib.Data.List.AList
import Husker.Relational.Machine

/-! # Calls that start, cancel and drain userdata jobs

A script is claimed and its job is cancelled under the name lock of the VM; the shutdown drain
takes no name lock.  Calls are cut where another thread can come between two of their steps.
A generation has its row from the start, and one that is created later is one nobody calls before.
-/
namespace Husker.Userdata
open Relational Store

/-! ## Userdata jobs

The script of a VM runs on a task of its own.  A registry owns those tasks, and the status column
of the VM says whether its script may still be claimed.
-/

section
variable {ι : Type}

inductive UserdataStatus where
  | pending | running | completed | failed | interrupted
  deriving DecidableEq

structure VmRow where
  state : VmLifecycleState
  userdata : Option String
  userdataStatus : Option UserdataStatus

inductive StateError (ι : Type) where
  | vmNotFound (id : ι)

/-! ## The registry -/

/-- A registered job; its handle is the number of its task. -/
structure UserdataJob where
  token : UInt64
  handle : ℕ
  deriving DecidableEq

structure UserdataJobs (ι : Type) where
  nextToken : UInt64 := 1
  accepting : Bool := true
  jobs : AList fun _ : ι => UserdataJob := ∅

namespace UserdataJobs

variable [DecidableEq ι]

def removeIfCurrent (u : UserdataJobs ι) (vm : ι) (token : UInt64) : UserdataJobs ι × Option ℕ :=
  match u.jobs.lookup vm with
  | some job =>
    if job.token = token then ({ u with jobs := u.jobs.erase vm }, some job.handle) else (u, none)
  | none => (u, none)

def take (u : UserdataJobs ι) (vm : ι) : UserdataJobs ι × Option ℕ :=
  ({ u with jobs := u.jobs.erase vm }, (u.jobs.lookup vm).map (·.handle))

omit [DecidableEq ι] in
def closeAndTakeAll (u : UserdataJobs ι) : UserdataJobs ι × List (ι × ℕ) :=
  ({ u with accepting := false, jobs := ∅ }, u.jobs.entries.map fun e => (e.1, e.2.handle))

end UserdataJobs

/-! ## Tasks -/

inductive Stage where
  | parked
  /-- A worker polls the task and is about to look at the signal. -/
  | polled
  /-- `execute_claimed_userdata` runs. -/
  | executing
  | refinish
  | leaving
  | finished

structure Exec (ι : Type) where
  vm : ι
  token : UInt64
  signalled : Bool := false
  aborted : Bool := false
  /-- Whether its `UserdataRunGuard` puts the status back when it is dropped. -/
  armed : Bool := true
  stage : Stage := .parked

def Exec.started (a : Exec ι) : Bool :=
  match a.stage with
  | .parked | .polled => false
  | .executing | .refinish | .leaving | .finished => true

/-- How the script or its agent session ends, or that the task is dropped at an await. -/
inductive Outcome where
  | exit (code : ℤ)
  | error
  | cancelled

structure Host (ι : Type) where
  rows : ι → Option VmRow
  registry : UserdataJobs ι
  execs : Tasks ℕ (Exec ι)
  spawned : ℕ

namespace Host

def status (h : Host ι) (vm : ι) : Option UserdataStatus := (h.rows vm).bind (·.userdataStatus)

def setExec (h : Host ι) (t : ℕ) (a : Exec ι) : Host ι := { h with execs := h.execs.set t a }

def endExec (h : Host ι) (t : ℕ) : Host ι := { h with execs := h.execs.clear t }

def abort (h : Host ι) (handle : ℕ) : Host ι :=
  match h.execs handle with
  | some a => h.setExec handle { a with aborted := true }
  | none => h

def send (h : Host ι) (handle : ℕ) : Option (Host ι) :=
  (h.execs handle).map fun a => h.setExec handle { a with signalled := true }

variable [DecidableEq ι]

def setRow (h : Host ι) (vm : ι) (row : Option VmRow) : Host ι :=
  { h with rows := Function.update h.rows vm row }

def setState (h : Host ι) (vm : ι) (state : VmLifecycleState) : Host ι :=
  h.setRow vm ((h.rows vm).map fun row => { row with state })

def transitionUserdataStatus (h : Host ι) (vm : ι) (expected next : UserdataStatus) :
    Host ι × Except (StateError ι) Bool :=
  match h.rows vm with
  | none => (h, .error (.vmNotFound vm))
  | some row =>
    if row.userdataStatus = some expected then
      (h.setRow vm (some { row with userdataStatus := some next }), .ok true)
    else (h, .ok false)

/-- Claim the script and register its task, under the mutex of the registry. -/
def claimAndInsert (h : Host ι) (vm : ι) :
    Host ι × Except (StateError ι) (Option UserdataJob) :=
  if !h.registry.accepting || vm ∈ h.registry.jobs then (h, .ok none)
  else
    match h.transitionUserdataStatus vm .pending .running with
    | (h, .error e) => (h, .error e)
    | (h, .ok false) => (h, .ok none)
    | (h, .ok true) =>
      let job : UserdataJob := ⟨h.registry.nextToken, h.spawned⟩
      ({ h with
        registry := { h.registry with
          nextToken := h.registry.nextToken + 1
          jobs := h.registry.jobs.insert vm job }
        execs := h.execs.set h.spawned { vm, token := job.token }
        spawned := h.spawned + 1 }, .ok (some job))

/-- `UserdataRunGuard::finish`: the guard afterwards and whether the status was recorded. -/
def finish (h : Host ι) (a : Exec ι) (status : UserdataStatus) : Host ι × Exec ι × Bool :=
  match h.transitionUserdataStatus a.vm .running status with
  | (h, .ok recorded) => (h, { a with armed := false }, recorded)
  | (h, .error _) => (h, a, false)

def dropGuard (h : Host ι) (a : Exec ι) : Host ι :=
  if a.armed then (h.transitionUserdataStatus a.vm .running .pending).1 else h

/-- What a task does next.  An abort takes effect where the task would be polled, or at an await
of the execution. -/
def poll (h : Host ι) (t : ℕ) (outcome : Outcome) : Option (Host ι) :=
  match h.execs t with
  | none => none
  | some a =>
    match a.stage with
    | .parked => some (if a.aborted then h.endExec t else h.setExec t { a with stage := .polled })
    | .polled =>
      some (h.setExec t { a with stage := if a.signalled then .executing else .parked })
    | .executing =>
      match outcome with
      | .exit code =>
        let (h, a, recorded) := h.finish a (if code = 0 then .completed else .failed)
        some (h.setExec t { a with stage := if recorded then .leaving else .refinish })
      | .error => some (h.setExec t { a with stage := .refinish })
      | .cancelled => if a.aborted then some ((h.endExec t).dropGuard a) else none
    | .refinish =>
      let (h, a, _) := h.finish a .failed
      some (h.setExec t { a with stage := .leaving })
    | .leaving => some ((h.dropGuard a).setExec t { a with stage := .finished })
    | .finished =>
      some { h.endExec t with registry := (h.registry.removeIfCurrent a.vm a.token).1 }

end Host

end

variable {ι : Type}

/-! ## Places -/

inductive Op where
  | stop
  | pause
  | suspend
  | destroy (recoverable : Bool)
  deriving DecidableEq

def Op.admits : Op → VmLifecycleState → Bool
  | .stop, .running | .stop, .paused | .stop, .suspended => true
  | .pause, .running => true
  | .suspend, .running | .suspend, .paused => true
  | .destroy _, _ => true
  | _, _ => false

def Op.outcome : Op → Option VmLifecycleState
  | .stop => some .stopped
  | .pause => some .paused
  | .suspend => some .suspended
  | .destroy _ => none

def Op.recovers : Op → Bool
  | .destroy recoverable => recoverable
  | _ => true

/-- Where `finish_userdata_interruption` returns to. -/
inductive After (ι : Type) where
  | unlock
  | join (rest : List (ι × ℕ))
  | drain
  deriving DecidableEq

inductive Call (ι : Type) where
  /-- `start_userdata_job` waits for the name lock. -/
  | start (vm : ι) (requireRunning : Bool)
  /-- `start_userdata_job_locked` is called, perhaps to undo an interruption. -/
  | check (vm : ι) (requireRunning recovering : Bool)
  | claim (vm : ι) (recovering : Bool)
  | signal (vm : ι) (job : UserdataJob) (recovering : Bool)
  | retract (vm : ι) (job : UserdataJob) (recovering : Bool)
  | unclaim (vm : ι) (recovering : Bool)
  | lifecycle (op : Op) (vm : ι)
  | look (op : Op) (vm : ι)
  /-- `cancel_userdata_job` is called. -/
  | take (op : Op) (vm : ι)
  | abort (op : Op) (vm : ι) (handle : ℕ)
  | join (op : Op) (vm : ι) (handle : ℕ)
  | reopen (op : Op) (vm : ι)
  | act (op : Op) (vm : ι) (interrupted : Bool)
  /-- `recover_userdata_after_lifecycle_failure_locked` is called. -/
  | recover (vm : ι) (interrupted : Bool)
  | probe (vm : ι) (interrupted running : Bool)
  /-- `finish_userdata_interruption` with the statuses it has not tried. -/
  | interrupt (vm : ι) (expected : List UserdataStatus) (after : After ι)
  /-- `shutdown_userdata_jobs` is called. -/
  | close
  | abortAll (todo handles : List (ι × ℕ))
  | joinAll (rest : List (ι × ℕ))
  /-- `drain_vms` goes on to stop the VMs. -/
  | drain
  deriving DecidableEq

def Call.subject : Call ι → Option ι
  | .check vm _ _ | .claim vm _ | .signal vm _ _ | .retract vm _ _ | .unclaim vm _ | .look _ vm
  | .take _ vm | .abort _ vm _ | .join _ vm _ | .reopen _ vm | .act _ vm _ | .recover vm _
  | .probe vm _ _ | .interrupt vm _ .unlock => some vm
  | _ => none

def Call.droppable : Call ι → Bool
  | .start _ _ | .lifecycle _ _ | .join _ _ _ | .act _ _ _ | .probe _ _ _ | .joinAll _
  | .drain => true
  | _ => false

/-- What a step learns from outside: whether the guards or the backend refuse, whether the backend
still runs the VM, the order in which a map is drained and the next VM to stop. -/
structure Answer (ι : Type) where
  fails : Bool := false
  running : Bool := false
  order : List (ι × ℕ) := []
  vm : Option ι := none

structure Core (ι : Type) where
  host : Host ι
  lock : String → Option ℕ
  calls : Tasks ℕ (Call ι)

namespace Core

def start (rows : ι → Option VmRow) : Core ι :=
  { host := { rows, registry := {}, execs := fun _ => none, spawned := 0 }
    lock := fun _ => none
    calls := fun _ => none }

/-! ## Steps -/

def goto (s : Core ι) (c : ℕ) (a : Call ι) : Core ι := { s with calls := s.calls.set c a }

def finish (s : Core ι) (c : ℕ) : Core ι := { s with calls := s.calls.clear c }

def withHost (s : Core ι) (host : Host ι) : Core ι := { s with host }

def takeLock (s : Core ι) (c : ℕ) (name : String) (a : Call ι) : Option (Core ι) :=
  if (s.lock name).isSome then none
  else some ({ s with lock := Function.update s.lock name (some c) }.goto c a)

def unlock (s : Core ι) (name : String) : Core ι :=
  { s with lock := Function.update s.lock name none }

variable (name : ι → String)

def leave (s : Core ι) (c : ℕ) (vm : ι) : Core ι := (s.unlock (name vm)).finish c

def interruptible : List UserdataStatus := [.running, .pending]

def declined (s : Core ι) (c : ℕ) (vm : ι) (recovering : Bool) : Core ι :=
  if recovering then s.goto c (.interrupt vm interruptible .unlock) else s.leave name c vm

/-- `finish_userdata_interruption` returns. -/
def proceed (s : Core ι) (c : ℕ) (vm : ι) : After ι → Core ι
  | .unlock => s.leave name c vm
  | .join rest => s.goto c (.joinAll rest)
  | .drain => s.goto c .drain

variable [DecidableEq ι]

def advance (s : Core ι) (c : ℕ) (answer : Answer ι) : Option (Core ι) :=
  match s.calls c with
  | none => none
  | some (.start vm requireRunning) => s.takeLock c (name vm) (.check vm requireRunning false)
  | some (.check vm requireRunning recovering) =>
    match s.host.rows vm with
    | none => some (s.declined name c vm recovering)
    | some row =>
      if (requireRunning && row.state ≠ .running) || row.userdata.isNone then
        some (s.declined name c vm recovering)
      else some (s.goto c (.claim vm recovering))
  | some (.claim vm recovering) =>
    match s.host.claimAndInsert vm with
    | (host, .ok (some job)) => some ((s.withHost host).goto c (.signal vm job recovering))
    | (host, _) => some ((s.withHost host).declined name c vm recovering)
  | some (.signal vm job recovering) =>
    match s.host.send job.handle with
    | some host => some ((s.withHost host).leave name c vm)
    | none => some (s.goto c (.retract vm job recovering))
  | some (.retract vm job recovering) =>
    let (registry, handle) := s.host.registry.removeIfCurrent vm job.token
    let host := { s.host with registry }
    some ((s.withHost (handle.elim host host.abort)).goto c (.unclaim vm recovering))
  | some (.unclaim vm recovering) =>
    some ((s.withHost (s.host.transitionUserdataStatus vm .running .pending).1).declined name c vm
      recovering)
  | some (.lifecycle op vm) => s.takeLock c (name vm) (.look op vm)
  | some (.look op vm) =>
    match s.host.rows vm with
    | none => some (s.leave name c vm)
    | some row =>
      -- A refused destroy comes to the recovery with nothing cancelled.
      if answer.fails then
        if op = .destroy true then some (s.goto c (.recover vm false))
        else some (s.leave name c vm)
      else if op.admits row.state then some (s.goto c (.take op vm))
      else some (s.leave name c vm)
  | some (.take op vm) =>
    match s.host.registry.take vm with
    | (_, none) => some (s.goto c (.act op vm false))
    | (registry, some handle) =>
      some ((s.withHost { s.host with registry }).goto c (.abort op vm handle))
  | some (.abort op vm handle) =>
    some ((s.withHost (s.host.abort handle)).goto c (.join op vm handle))
  | some (.join op vm handle) =>
    if (s.host.execs handle).isSome then none else some (s.goto c (.reopen op vm))
  | some (.reopen op vm) =>
    some ((s.withHost (s.host.transitionUserdataStatus vm .running .pending).1).goto c
      (.act op vm true))
  | some (.act op vm interrupted) =>
    if answer.fails then
      if op.recovers then some (s.goto c (.recover vm interrupted)) else some (s.leave name c vm)
    else
      match op.outcome with
      | some state =>
        some ((s.withHost (s.host.setState vm state)).goto c (.interrupt vm interruptible .unlock))
      | none => some ((s.withHost (s.host.setRow vm none)).leave name c vm)
  | some (.recover vm interrupted) =>
    some (s.goto c (.probe vm interrupted ((s.host.rows vm).any (·.state = .running))))
  | some (.probe vm interrupted running) =>
    if running && answer.running then
      if interrupted then some (s.goto c (.check vm true true)) else some (s.leave name c vm)
    else some (s.goto c (.interrupt vm interruptible .unlock))
  | some (.interrupt vm [] after) => some (s.proceed name c vm after)
  | some (.interrupt vm (expected :: rest) after) =>
    match s.host.transitionUserdataStatus vm expected .interrupted with
    | (host, .ok true) => some ((s.withHost host).proceed name c vm after)
    | (host, _) => some ((s.withHost host).goto c (.interrupt vm rest after))
  | some .close =>
    let (registry, handles) := s.host.registry.closeAndTakeAll
    if answer.order.Perm handles then
      some ((s.withHost { s.host with registry }).goto c (.abortAll answer.order answer.order))
    else none
  | some (.abortAll [] handles) => some (s.goto c (.joinAll handles))
  | some (.abortAll ((_, handle) :: todo) handles) =>
    some ((s.withHost (s.host.abort handle)).goto c (.abortAll todo handles))
  | some (.joinAll []) => some (s.goto c .drain)
  | some (.joinAll ((vm, handle) :: rest)) =>
    if (s.host.execs handle).isSome then none
    else some (s.goto c (.interrupt vm interruptible (.join rest)))
  | some .drain =>
    match answer.vm with
    | none => some (s.finish c)
    | some vm =>
      some ((s.withHost (s.host.setState vm .stopped)).goto c (.interrupt vm interruptible .drain))

end Core

/-! ## Runs -/

inductive Request (ι : Type) where
  | runUserdata (vm : ι)
  | spawnUserdata (vm : ι)
  | lifecycle (op : Op) (vm : ι)
  | drainVms

def Request.call : Request ι → Call ι
  | .runUserdata vm => .start vm false
  | .spawnUserdata vm => .start vm true
  | .lifecycle op vm => .lifecycle op vm
  | .drainVms => .close

inductive Event (ι : Type) where
  | request (c : ℕ) (r : Request ι)
  | advance (c : ℕ) (answer : Answer ι)
  | poll (t : ℕ) (outcome : Outcome)
  /-- The caller goes away; a name lock is dropped with its call. -/
  | abandon (c : ℕ)
  /-- The state of the VM changes on a path that leaves its userdata alone. -/
  | observe (vm : ι) (state : VmLifecycleState)

namespace Core

variable (name : ι → String) [DecidableEq ι]

def step (s : Core ι) : Event ι → Option (Core ι)
  | .request c r => if (s.calls c).isSome then none else some (s.goto c r.call)
  | .advance c answer => s.advance name c answer
  | .poll t outcome => (s.host.poll t outcome).map s.withHost
  | .abandon c =>
    match s.calls c with
    | some a =>
      if a.droppable then some ((a.subject.elim s fun vm => s.unlock (name vm)).finish c) else none
    | none => none
  | .observe vm state => some (s.withHost (s.host.setState vm state))

end Core

def interleaved [DecidableEq ι] (name : ι → String) : Machine (Core ι) (Event ι) :=
  .ofStep (Core.step name)

end Husker.Userdata
