import Husker.Relational.Machine
import Husker.Relational.Text

/-! # Receipts of supervised processes

A receipt names a process by its boot, namespace, pid and start time.  Confirming it ends that
process and no other, and removes its cgroup, while processes come and go around the call.
-/
namespace Husker.Vmm
open Relational

/-- Identifiers as texts, by the `uuid` crate; the nil one is zero. -/
structure Ids where
  parse : Text → Option ℕ
  format : ℕ → Text

/-! ## The host -/

structure Birth where
  boot : Text
  pidNamespace : ℕ
  pid : ℕ
  start : ℕ
  deriving DecidableEq

structure Process where
  start : ℕ
  uid : ℕ
  cmdline : Text
  exited : Bool

structure Cgroup where
  isDir : Bool
  inode : ℕ
  tasks : ℕ

structure Removed where
  boot : Text
  cgroup : Cgroup

/-- The births and boots there were so far are only kept to say that none comes again, and the
signals and removals to speak about them. -/
structure World where
  boot : Text
  earlier : List Text
  pidNamespace : ℕ
  processes : ℕ → ℕ → Option Process
  births : List (ℕ × ℕ × ℕ)
  cgroups : Text → Option Cgroup
  inodes : List ℕ
  signalled : List Birth
  removed : List Removed

namespace World

variable (w : World)

def process (pid : ℕ) : Option Process := w.processes w.pidNamespace pid

def Running (birth : Birth) : Prop :=
  w.boot = birth.boot ∧
    ∃ p, w.processes birth.pidNamespace birth.pid = some p ∧ p.start = birth.start ∧ p.exited = false

instance (birth : Birth) : Decidable (w.Running birth) := by
  unfold Running
  cases w.processes birth.pidNamespace birth.pid with
  | none => exact isFalse (by simp)
  | some p =>
    exact decidable_of_iff (w.boot = birth.boot ∧ p.start = birth.start ∧ p.exited = false) (by simp)

def setProcess (pidNamespace pid : ℕ) (p : Option Process) : World :=
  { w with processes := fun ns n => if ns = pidNamespace ∧ n = pid then p else w.processes ns n }

def setCgroup (path : Text) (g : Option Cgroup) : World :=
  { w with cgroups := fun q => if q = path then g else w.cgroups q }

end World

inductive VmmError where
  | processError (message : Text)
  | io
  deriving DecidableEq

def failure (message : Text) : VmmError := .processError ("factory recovery: ".toList ++ message)

/-! ## Receipts -/

structure VmInfo where
  id : ℕ
  name : Text
  pid : Option ℕ
  vsockCid : ℕ

structure Receipt where
  version : ℕ
  id : ℕ
  name : Text
  cid : ℕ
  boot : Text
  pid : ℕ
  start : ℕ
  uid : ℕ
  pidNamespace : ℕ
  cgroup : Text
  cgroupInode : ℕ
  deriving DecidableEq

variable (ids : Ids)

def bootId (w : World) : Except VmmError Text :=
  match ids.parse w.boot with
  | some _ => .ok w.boot
  | none => .error (failure "invalid boot id".toList)

def processStart (w : World) (pid : ℕ) : Except VmmError (Option ℕ) :=
  match w.process pid with
  | none => .ok none
  | some p => if p.start = 0 then .error (failure "invalid process birth time".toList) else .ok (some p.start)

namespace Receipt

def capture (w : World) (info : VmInfo) (cgroup : Text) : Except VmmError Receipt := do
  let pid ← info.pid.elim (.error (failure "missing process identity".toList)) .ok
  let start ← (← processStart w pid).elim (.error (failure "process already exited".toList)) .ok
  let metadata ← (w.cgroups cgroup).elim (.error .io) .ok
  if !metadata.isDir then throw (failure "invalid cgroup".toList)
  let boot ← bootId ids w
  let process ← (w.process pid).elim (.error .io) .ok
  return {
    version := 1
    id := info.id
    name := info.name
    cid := info.vsockCid
    boot := boot
    pid := pid
    start := start
    uid := process.uid
    pidNamespace := w.pidNamespace
    cgroup := cgroup
    cgroupInode := metadata.inode }

def birth (r : Receipt) : Birth := ⟨r.boot, r.pidNamespace, r.pid, r.start⟩

structure Request where
  id : ℕ
  name : Text
  cid : ℕ
  runtime : Text
  cgroup : Text

structure Caller where
  euid : ℕ
  pid : ℕ

/-- The receipt is the one of the request, and could be confirmed at all. -/
def accepts (r : Receipt) (caller : Caller) (request : Request) : Bool :=
  !(r.version ≠ 1 || r.id ≠ request.id || request.id = 0 || r.name ≠ request.name ||
    ((Text.stripPrefix "job-".toList request.name).bind ids.parse).isNone || r.cid ≠ request.cid ||
    r.cgroup ≠ request.cgroup || request.cgroup.head? ≠ some '/' || r.uid ≠ caller.euid ||
    r.pid = 0 || r.pid > 2 ^ 31 - 1 || r.pid = caller.pid || r.start = 0 || (ids.parse r.boot).isNone)

def join (dir name : Text) : Text :=
  if dir = [] ∨ dir.getLast? = some '/' then dir ++ name else dir ++ '/' :: name

def hasSocket (cmdline socket : Text) : Bool :=
  let args := cmdline.splitOnP (· = Char.ofNat 0)
  (args.zip args.tail).any fun (a, b) => a = "--api-sock".toList && b = socket

/-! ## Confirmation, call by call -/

/-- What a call does next.  A descriptor is the process it was opened for. -/
inductive Phase where
  | readBoot
  | readNamespace
  | pidfdOpen
  | poll (process : Birth)
  | readStart (process : Birth)
  | readOwner (process : Birth)
  | readCmdline (process : Birth) (uid : ℕ)
  | sendSignal (process : Birth)
  | awaitExit (process : Birth)
  | inspectCgroup (sameBoot : Bool)
  | readEvents
  | removeDir

inductive Next where
  | go (phase : Phase)
  | done (result : Except VmmError Unit)

/-- The lines of `cgroup.events`. -/
def eventLines (g : Cgroup) : List Text :=
  [if g.tasks = 0 then "populated 0".toList else "populated 1".toList, "frozen 0".toList]

def unpopulated (lines : List Text) : Bool :=
  lines.any (· = "populated 0".toList) &&
    !lines.any fun line => "populated ".toList.isPrefixOf line && line ≠ "populated 0".toList

/-- One system call of `confirm` and `end_original_process`. -/
def advance (r : Receipt) (runtime : Text) (expired : Bool) (w : World) : Phase → World × Next
  | .readBoot =>
    match bootId ids w with
    | .error e => (w, .done (.error e))
    | .ok boot => (w, .go (if r.boot = boot then .readNamespace else .inspectCgroup false))
  | .readNamespace =>
    if r.pidNamespace ≠ w.pidNamespace then
      (w, .done (.error (failure "PID namespace changed".toList)))
    else (w, .go .pidfdOpen)
  | .pidfdOpen =>
    match w.process r.pid with
    | none => (w, .go (.inspectCgroup true))
    | some p => (w, .go (.poll ⟨w.boot, w.pidNamespace, r.pid, p.start⟩))
  | .poll process => (w, .go (if w.Running process then .readStart process else .inspectCgroup true))
  | .readStart process =>
    match processStart w r.pid with
    | .error e => (w, .done (.error e))
    | .ok start => (w, .go (if start = some r.start then .readOwner process else .inspectCgroup true))
  | .readOwner process =>
    match w.process r.pid with
    | none => (w, .done (.error .io))
    | some p => (w, .go (.readCmdline process p.uid))
  | .readCmdline process uid =>
    match w.process r.pid with
    | none => (w, .done (.error .io))
    | some p =>
      let socket := join runtime (ids.format r.id ++ ".sock".toList)
      if uid ≠ r.uid || p.cmdline.length > 65536 || !hasSocket p.cmdline socket then
        (w, .done (.error (failure "original process argv or uid mismatch".toList)))
      else (w, .go (.sendSignal process))
  | .sendSignal process => ({ w with signalled := w.signalled ++ [process] }, .go (.awaitExit process))
  | .awaitExit process =>
    if w.Running process then
      if expired then (w, .done (.error (failure "process exit unconfirmed".toList)))
      else (w, .go (.awaitExit process))
    else (w, .go (.inspectCgroup true))
  | .inspectCgroup sameBoot =>
    match w.cgroups r.cgroup with
    | none => (w, .done (.ok ()))
    | some g =>
      if !sameBoot || !g.isDir || g.inode ≠ r.cgroupInode then
        (w, .done (.error (failure "cgroup generation changed".toList)))
      else (w, .go .readEvents)
  | .readEvents =>
    match w.cgroups r.cgroup with
    | none => (w, .done (.error .io))
    | some g =>
      if !unpopulated (eventLines g) then
        (w, .done (.error (failure "cgroup is still populated".toList)))
      else (w, .go .removeDir)
  | .removeDir =>
    match w.cgroups r.cgroup with
    | none => (w, .done (.error .io))
    | some g =>
      if g.isDir && g.tasks = 0 then
        ({ w.setCgroup r.cgroup none with removed := w.removed ++ [⟨w.boot, g⟩] }, .done (.ok ()))
      else (w, .done (.error .io))

/-- A system call that fails for another reason.  Only the first poll is not looked at. -/
def fail : Phase → Next
  | .poll process => .go (.readStart process)
  | _ => .done (.error .io)

end Receipt
end Husker.Vmm
