import Husker.Net.Allocator
import Husker.Relational.Tasks

/-! # Guest addresses in the store and in the allocator

The address of a VM is in its record or in the lease of its creation, and in the allocator in
memory.  Creations, destroys, sweeps and lease recovery write the two in separate steps; the calls
are cut where another one can come between.
-/
namespace Husker.Address
open Net Relational

/-! ## The store -/

structure VmRecord where
  name : String
  guestIp : Option Ipv4Addr

structure Lease where
  vmName : String
  guestIp : Option Ipv4Addr
  deriving DecidableEq

/-! ## Places -/

inductive Task where
  | create (name : String) (nat replaceStopped : Bool)
  | existing (name : String) (nat replaceStopped : Bool)
  | allocate (name : String) (nat : Bool)
  | lease (name : String) (ip : Option Ipv4Addr)
  | network (name : String) (ip : Option Ipv4Addr) (lease : ℕ)
  /-- The lease names the address; TAP, disk and backend follow. -/
  | build (name : String) (ip : Option Ipv4Addr) (lease : ℕ)
  | commit (name : String) (ip : Option Ipv4Addr) (lease : ℕ)
  /-- `rollback_create`, before the lease is released; `named` says whether it names the address. -/
  | rollback (name : String) (ip : Option Ipv4Addr) (lease : ℕ) (named : Bool)
  | unlease (name : String) (ip : Option Ipv4Addr) (lease : ℕ) (named : Bool)
  | giveBack (name : String) (ip : Option Ipv4Addr)
  /-- `destroy_vm` reads its record before it waits for the name lock. -/
  | destroy (name : String)
  | destroyLock (vm : ℕ) (record : VmRecord)
  /-- `destroy_vm_generation_locked`; a creation that replaces a stopped VM goes on afterwards. -/
  | generation (vm : ℕ) (record : VmRecord) (creation : Option Bool)
  | release (vm : ℕ) (record : VmRecord) (creation : Option Bool)
  | retire (vm : ℕ) (record : VmRecord) (creation : Option Bool)
  /-- `reclaim_vm_network_resources` is about to list the VMs. -/
  | sweep
  | sweepNext (rest : List (ℕ × VmRecord))
  | sweepLock (vm : ℕ) (name : String) (rest : List (ℕ × VmRecord))
  | sweepRead (vm : ℕ) (name : String) (rest : List (ℕ × VmRecord))
  | sweepRelease (vm : ℕ) (name : String) (ip : Option Ipv4Addr) (rest : List (ℕ × VmRecord))
  | sweepClear (vm : ℕ) (name : String) (rest : List (ℕ × VmRecord))
  /-- `recover_host_resource_leases` is about to list the leases. -/
  | recover
  | recoverNext (rest : List (ℕ × Lease))
  | recoverLock (lease : ℕ) (name : String) (rest : List (ℕ × Lease))
  | recoverRead (lease : ℕ) (name : String) (rest : List (ℕ × Lease))
  | recoverUnlease (lease : ℕ) (name : String) (ip : Option Ipv4Addr) (rest : List (ℕ × Lease))
  | recoverRelease (name : String) (ip : Option Ipv4Addr) (rest : List (ℕ × Lease))

def Task.lockName : Task → Option String
  | .existing name _ _ | .allocate name _ | .lease name _ | .network name _ _ | .build name _ _
  | .commit name _ _ | .rollback name _ _ _ | .unlease name _ _ _ | .giveBack name _
  | .sweepRead _ name _ | .sweepRelease _ name _ _ | .sweepClear _ name _
  | .recoverRead _ name _ | .recoverUnlease _ name _ _ | .recoverRelease name _ _ => some name
  | .generation _ record _ | .release _ record _ | .retire _ record _ => some record.name
  | _ => none

def Task.droppable : Task → Bool
  | .destroyLock _ _ | .generation _ _ none | .release _ _ none | .retire _ _ none => true
  | _ => false

/-- What a step learns: whether the write or the host operation fails, and whether the record is
one the call may take. -/
structure Answer where
  fails : Bool := false
  eligible : Bool := true

structure Core where
  rows : ℕ → Option VmRecord
  leases : ℕ → Option Lease
  minted : ℕ
  allocator : IpAllocator
  lock : String → Option ℕ
  tasks : Tasks ℕ Task

namespace Core

def goto (s : Core) (t : ℕ) (a : Task) : Core := { s with tasks := s.tasks.set t a }

def finish (s : Core) (t : ℕ) : Core := { s with tasks := s.tasks.clear t }

def setRow (s : Core) (vm : ℕ) (row : Option VmRecord) : Core :=
  { s with rows := Function.update s.rows vm row }

def setLease (s : Core) (id : ℕ) (lease : Option Lease) : Core :=
  { s with leases := Function.update s.leases id lease }

def mint (s : Core) : Core := { s with minted := s.minted + 1 }

def takeLock (s : Core) (t : ℕ) (name : String) (a : Task) : Option Core :=
  if (s.lock name).isSome then none
  else some ({ s with lock := Function.update s.lock name (some t) }.goto t a)

def unlock (s : Core) (name : String) : Core :=
  { s with lock := Function.update s.lock name none }

def leave (s : Core) (t : ℕ) (name : String) : Core := (s.unlock name).finish t

def listVms (s : Core) : List (ℕ × VmRecord) :=
  (List.range s.minted).filterMap fun id => (s.rows id).map (id, ·)

def listLeases (s : Core) : List (ℕ × Lease) :=
  (List.range s.minted).filterMap fun id => (s.leases id).map (id, ·)

def getVmByName (s : Core) (name : String) : Option (ℕ × VmRecord) :=
  s.listVms.find? fun vm => vm.2.name = name

def otherOwner (s : Core) (lease : ℕ) (ip : Ipv4Addr) : Bool :=
  s.listVms.any (fun vm => vm.2.guestIp = some ip) ||
    s.listLeases.any fun other => other.1 ≠ lease && other.2.guestIp = some ip

/-- Give an address back; the allocator may not know it. -/
def freeIp (s : Core) (ip : Ipv4Addr) : Option (Bool × Core) :=
  (s.allocator.release ip).map fun r => (r.1.isOk, { s with allocator := r.2 })

/-- `Ok` and `NotAllocated` are alike. -/
def freeQuietly (s : Core) : Option Ipv4Addr → Option Core
  | none => some s
  | some ip => (s.freeIp ip).map (·.2)

/-- `release_vm_host_network` after the TAP is gone: whether it succeeded. -/
def freeRecorded (s : Core) : Option Ipv4Addr → Option (Bool × Core)
  | none => some (true, s)
  | some ip => s.freeIp ip

def advance (s : Core) (t : ℕ) (answer : Answer) : Option Core :=
  match s.tasks t with
  | none => none
  | some (.create name nat replaceStopped) => s.takeLock t name (.existing name nat replaceStopped)
  | some (.existing name nat replaceStopped) =>
    match s.getVmByName name with
    | some (vm, record) =>
      if replaceStopped && answer.eligible then some (s.goto t (.generation vm record (some nat)))
      else some (s.leave t name)
    | none => some (s.goto t (.allocate name nat))
  | some (.allocate name nat) =>
    if answer.fails then some (s.leave t name)
    else if nat then
      match s.allocator.allocate with
      | none => none
      | some (.ok ip, allocator) => some ({ s with allocator }.goto t (.lease name (some ip)))
      | some (.error _, allocator) => some ({ s with allocator }.leave t name)
    else some (s.goto t (.lease name none))
  | some (.lease name ip) =>
    if answer.fails || s.listLeases.any (·.2.vmName = name) then
      some (s.goto t (.giveBack name ip))
    else
      some (((s.setLease s.minted (some ⟨name, none⟩)).mint).goto t (.network name ip s.minted))
  | some (.network name ip lease) =>
    if answer.fails || (s.leases lease).isNone then some (s.goto t (.rollback name ip lease false))
    else some ((s.setLease lease (some ⟨name, ip⟩)).goto t (.build name ip lease))
  | some (.build name ip lease) =>
    if answer.fails then some (s.goto t (.rollback name ip lease true))
    else some (s.goto t (.commit name ip lease))
  | some (.commit name ip lease) =>
    if answer.fails || s.leases lease ≠ some ⟨name, ip⟩ || (s.getVmByName name).isSome then
      some (s.goto t (.rollback name ip lease true))
    else
      some ((((s.setLease lease none).setRow s.minted (some ⟨name, ip⟩)).mint).leave t name)
  | some (.rollback name ip lease named) =>
    if answer.fails then some (s.leave t name) else some (s.goto t (.unlease name ip lease named))
  | some (.unlease name ip lease _) =>
    if answer.fails then some (s.leave t name)
    else some ((s.setLease lease none).goto t (.giveBack name ip))
  | some (.giveBack name ip) => (s.freeQuietly ip).map fun s => s.leave t name
  | some (.destroy name) =>
    match s.getVmByName name with
    | none => some (s.finish t)
    | some (vm, record) => some (s.goto t (.destroyLock vm record))
  | some (.destroyLock vm record) => s.takeLock t record.name (.generation vm record none)
  | some (.generation vm record creation) =>
    if (s.getVmByName record.name).any (·.1 = vm) then
      if answer.fails then some (s.leave t record.name)
      else some (s.goto t (.release vm record creation))
    else
      some (creation.elim (s.leave t record.name) fun nat => s.goto t (.allocate record.name nat))
  | some (.release vm record creation) =>
    if answer.fails then some (s.leave t record.name)
    else
      (s.freeRecorded record.guestIp).map fun r =>
        if r.1 then r.2.goto t (.retire vm record creation) else r.2.leave t record.name
  | some (.retire vm record creation) =>
    if answer.fails || (s.rows vm).isNone then some (s.leave t record.name)
    else
      let s := s.setRow vm none
      some (creation.elim (s.leave t record.name) fun nat => s.goto t (.allocate record.name nat))
  | some .sweep => some (s.goto t (.sweepNext s.listVms))
  | some (.sweepNext []) => some (s.finish t)
  | some (.sweepNext ((vm, record) :: rest)) =>
    if answer.eligible then some (s.goto t (.sweepLock vm record.name rest))
    else some (s.goto t (.sweepNext rest))
  | some (.sweepLock vm name rest) => s.takeLock t name (.sweepRead vm name rest)
  | some (.sweepRead vm name rest) =>
    match s.rows vm with
    | none => some ((s.unlock name).goto t (.sweepNext rest))
    | some current =>
      if answer.eligible then some (s.goto t (.sweepRelease vm name current.guestIp rest))
      else some ((s.unlock name).goto t (.sweepNext rest))
  | some (.sweepRelease vm name ip rest) =>
    if answer.fails then some ((s.unlock name).goto t (.sweepNext rest))
    else
      (s.freeRecorded ip).map fun r =>
        if r.1 then r.2.goto t (.sweepClear vm name rest)
        else (r.2.unlock name).goto t (.sweepNext rest)
  | some (.sweepClear vm name rest) =>
    let cleared := if answer.fails then s.rows vm
      else (s.rows vm).map fun record => { record with guestIp := none }
    some (((s.setRow vm cleared).unlock name).goto t (.sweepNext rest))
  | some .recover => some (s.goto t (.recoverNext s.listLeases))
  | some (.recoverNext []) => some (s.finish t)
  | some (.recoverNext ((id, lease) :: rest)) =>
    some (s.goto t (.recoverLock id lease.vmName rest))
  | some (.recoverLock id name rest) => s.takeLock t name (.recoverRead id name rest)
  | some (.recoverRead id name rest) =>
    match s.leases id with
    | none => some ((s.unlock name).goto t (.recoverNext rest))
    | some lease =>
      if answer.fails || lease.vmName ≠ name || (s.getVmByName name).isSome ||
          lease.guestIp.any (s.otherOwner id) then
        some ((s.unlock name).goto t (.recoverNext rest))
      else some (s.goto t (.recoverUnlease id name lease.guestIp rest))
  | some (.recoverUnlease id name ip rest) =>
    if answer.fails then
      -- A store error ends the recovery, a host error only this lease.
      if answer.eligible then some ((s.unlock name).goto t (.recoverNext rest))
      else some (s.leave t name)
    else some ((s.setLease id none).goto t (.recoverRelease name ip rest))
  | some (.recoverRelease name ip rest) =>
    (s.freeQuietly ip).map fun s => (s.unlock name).goto t (.recoverNext rest)

end Core

/-! ## Runs -/

inductive Call where
  | createVm (name : String) (nat replaceStopped : Bool)
  | forkVm (name : String)
  | destroyVm (name : String)
  | reclaimVms
  | recoverHostResourceLeases

def Call.task : Call → Task
  | .createVm name nat replaceStopped => .create name nat replaceStopped
  | .forkVm name => .create name true false
  | .destroyVm name => .destroy name
  | .reclaimVms => .sweep
  | .recoverHostResourceLeases => .recover

inductive Event where
  | call (t : ℕ) (c : Call)
  | advance (t : ℕ) (answer : Answer)
  /-- The caller of a destroy goes away; its name lock is dropped. -/
  | abandon (t : ℕ)

def Core.step (s : Core) : Event → Option Core
  | .call t c => if (s.tasks t).isSome then none else some (s.goto t c.task)
  | .advance t answer => s.advance t answer
  | .abandon t =>
    match s.tasks t with
    | some a => if a.droppable then some ((a.lockName.elim s s.unlock).finish t) else none
    | none => none

def interleaved : Machine Core Event := .ofStep Core.step

end Husker.Address
