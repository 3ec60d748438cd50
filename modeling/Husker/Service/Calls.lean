import Husker.Store.Schema
import Mathlib.Data.List.AList
import Husker.Relational.Machine
import Husker.Relational.Tasks

/-! # Calls on services

`scale_service`, `delete_service` and the sweeps of the daemon, cut where one of them can come
between two steps of another.  A pass holds the reconcile lock of its service; the record it works
on was read before it waited for the lock.
-/
namespace Husker.Service
open List

/-! ## One pass over a service

A pass lists the VMs of a service, keeps one survivor per ordinal, replaces what is not running
and destroys what is not wanted.  Identifiers are drawn from any linear order in which there is
always one that was never used.
-/

section
open Store

variable {ι : Type}

structure VmRecord (ι : Type) where
  id : ι
  name : String
  state : VmLifecycleState
  createdAt : DateTime
  serviceId : Option ι
  serviceOrdinal : Option ℕ

structure ServiceRecord (ι : Type) where
  id : ι
  name : String
  desiredInstances : ℕ
  rootfsPath : String
  cloudImage : Option String
  volume : Option String
  deriving DecidableEq

structure ReconcileOutcome where
  created : List String := []
  destroyed : List String := []
  failed : List (String × String) := []
  deriving DecidableEq

def isLive (state : VmLifecycleState) : Bool := state = .running || state = .paused

def instanceName (service : String) (ordinal : ℕ) : String := service ++ "-" ++ toString ordinal

def rank (state : VmLifecycleState) : ℕ := if state = .running then 0 else 1

def betterSurvivor [LinearOrder ι] (candidate current : VmRecord ι) : Bool :=
  match compare (rank candidate.state) (rank current.state) with
  | .lt => true
  | .gt => false
  | .eq =>
    match compare candidate.createdAt.nanos current.createdAt.nanos with
    | .lt => true
    | .gt => false
    | .eq => candidate.id < current.id

/-- The records of the store, and what the backend says is running or paused. -/
structure World (ι : Type) where
  vms : List (VmRecord ι)
  live : ι → Bool
  used : List ι
  ids : (vms.map VmRecord.id).Nodup
  names : (vms.map VmRecord.name).Nodup
  known : ∀ vm ∈ vms, vm.id ∈ used

/-- What a pass does not decide itself: new identifiers, the clock, and what fails. -/
structure Env (ι : Type) where
  newId : List ι → ι
  fresh : ∀ used, newId used ∉ used
  now : DateTime
  listError : Option String
  createError : String → Option String
  destroyError : ι → Option String
  markError : ι → Bool

variable {vm : VmRecord ι}

namespace World

variable (w : World ι)

def getVmByName (name : String) : Option (VmRecord ι) := w.vms.find? (·.name = name)

lemma getVmByName_eq_none {w : World ι} {name : String} :
    w.getVmByName name = none ↔ name ∉ w.vms.map VmRecord.name := by
  simp [getVmByName, find?_eq_none]

lemma getVmByName_mem {w : World ι} (h : vm ∈ w.vms) : w.getVmByName vm.name = some vm := by
  obtain ⟨found, hfound⟩ : ∃ found, w.getVmByName vm.name = some found := by
    rw [← Option.isSome_iff_exists, getVmByName, find?_isSome]
    exact ⟨vm, h, by simp⟩
  have hname : found.name = vm.name := by simpa using find?_some hfound
  rw [hfound, inj_on_of_nodup_map w.names (mem_of_find?_eq_some hfound) h hname]

variable [LinearOrder ι]

/-- `ORDER BY service_ordinal`: rows without one come first. -/
def listVmsForService (id : ι) : List (VmRecord ι) :=
  (w.vms.filter fun vm => vm.serviceId = some id).insertionSort fun a b =>
    a.serviceOrdinal.elim 0 Nat.succ ≤ b.serviceOrdinal.elim 0 Nat.succ

def markVmStopped (id : ι) : World ι where
  vms := w.vms.map fun vm => if vm.id = id then { vm with state := .stopped } else vm
  live := w.live
  used := w.used
  ids := by
    rw [List.map_map, List.map_congr_left (g := VmRecord.id)]
    · exact w.ids
    · intro vm _
      simp only [Function.comp_apply]
      split_ifs <;> rfl
  names := by
    rw [List.map_map, List.map_congr_left (g := VmRecord.name)]
    · exact w.names
    · intro vm _
      simp only [Function.comp_apply]
      split_ifs <;> rfl
  known vm hvm := by
    obtain ⟨vm', hvm', rfl⟩ := List.mem_map.mp hvm
    split_ifs
    · exact w.known vm' hvm'
    · exact w.known vm' hvm'

def retireVm (id : ι) : World ι where
  vms := w.vms.filter fun vm => vm.id ≠ id
  live := Function.update w.live id false
  used := w.used
  ids := w.ids.sublist (List.filter_sublist.map _)
  names := w.names.sublist (List.filter_sublist.map _)
  known vm hvm := w.known vm (List.mem_of_mem_filter hvm)

def insertVm (vm : VmRecord ι) (hid : vm.id ∉ w.used) (hname : vm.name ∉ w.vms.map VmRecord.name) :
    World ι where
  vms := w.vms ++ [vm]
  live := Function.update w.live vm.id true
  used := vm.id :: w.used
  ids := by
    rw [List.map_append]
    refine List.nodup_append.mpr ⟨w.ids, List.nodup_singleton _, fun a ha b hb hab => hid ?_⟩
    obtain ⟨vm', hvm', rfl⟩ := List.mem_map.mp ha
    rw [← List.mem_singleton.mp hb, ← hab]
    exact w.known vm' hvm'
  names := by
    rw [List.map_append]
    refine List.nodup_append.mpr ⟨w.names, List.nodup_singleton _, fun a ha b hb hab => hname ?_⟩
    rw [← List.mem_singleton.mp hb, ← hab]
    exact ha
  known vm' hvm' := by
    rcases List.mem_append.mp hvm' with h | h
    · exact .tail _ (w.known vm' h)
    · rw [List.mem_singleton.mp h]
      exact .head _

variable {w}

lemma mem_listVmsForService {id : ι} :
    vm ∈ w.listVmsForService id ↔ vm ∈ w.vms ∧ vm.serviceId = some id := by
  rw [listVmsForService, (perm_insertionSort _ _).mem_iff, mem_filter, decide_eq_true_iff]

lemma listVmsForService_ids (id : ι) : ((w.listVmsForService id).map VmRecord.id).Nodup := by
  rw [listVmsForService, ((perm_insertionSort _ _).map VmRecord.id).nodup_iff]
  exact w.ids.sublist (filter_sublist.map _)

end World

/-! ## The pass -/

structure Pass (ι : Type) where
  world : World ι
  outcome : ReconcileOutcome

namespace Pass

variable [LinearOrder ι] (env : Env ι)

def fail (p : Pass ι) (name error : String) : Pass ι :=
  { p with outcome := { p.outcome with failed := p.outcome.failed ++ [(name, error)] } }

/-- The liveness of a listed VM; the stop is persisted if the store lets it. -/
def refreshVmLiveness (vm : VmRecord ι) (p : Pass ι) : VmRecord ι × Pass ι :=
  if !isLive vm.state then (vm, p)
  else if p.world.live vm.id then (vm, p)
  else ({ vm with state := .stopped },
    if env.markError vm.id then p else { p with world := p.world.markVmStopped vm.id })

/-- Destroy the generation that was listed; one that is gone is destroyed already. -/
def destroyInstance (vm : VmRecord ι) (p : Pass ι) : Bool × Pass ι :=
  let done (world : World ι) : Bool × Pass ι :=
    (true, ⟨world, { p.outcome with destroyed := p.outcome.destroyed ++ [vm.name] }⟩)
  match p.world.getVmByName vm.name with
  | none => done p.world
  | some current =>
    if current.id = vm.id then
      match env.destroyError vm.id with
      | some e => (false, p.fail vm.name e)
      | none => done (p.world.retireVm vm.id)
    else done p.world

def createInstance (svc : ServiceRecord ι) (ordinal : ℕ) (p : Pass ι) : Pass ι :=
  let name := instanceName svc.name ordinal
  match h : p.world.getVmByName name with
  | some existing =>
    -- never clobber a VM not owned by this service; one that is owned is not replaced either
    if existing.serviceId ≠ some svc.id then p.fail name "name owned by a non-service VM"
    else p.fail name s!"VM already exists: {name}"
  | none =>
    match env.createError name with
    | some e => p.fail name e
    | none =>
      let vm : VmRecord ι :=
        ⟨env.newId p.world.used, name, .running, env.now, some svc.id, some ordinal⟩
      ⟨p.world.insertVm vm (env.fresh _) (World.getVmByName_eq_none.mp h),
        { p.outcome with created := p.outcome.created ++ [name] }⟩

abbrev Survivors (ι : Type) := AList fun _ : ℕ => VmRecord ι

def dedupe (st : Pass ι × Survivors ι) (listed : VmRecord ι) : Pass ι × Survivors ι :=
  let (vm, p) := st.1.refreshVmLiveness env listed
  match vm.serviceOrdinal with
  | none => ((p.destroyInstance env vm).2, st.2)
  | some ordinal =>
    match st.2.lookup ordinal with
    | none => (p, st.2.insert ordinal vm)
    | some existing =>
      if betterSurvivor vm existing then
        ((p.destroyInstance env existing).2, st.2.insert ordinal vm)
      else ((p.destroyInstance env vm).2, st.2)

def ensure (svc : ServiceRecord ι) (survivors : Survivors ι) (p : Pass ι) (ordinal : ℕ) : Pass ι :=
  match survivors.lookup ordinal with
  | none => p.createInstance env svc ordinal
  | some vm =>
    if vm.state = .running then p
    else
      match p.destroyInstance env vm with
      | (true, p) => p.createInstance env svc ordinal
      | (false, p) => p

def excess (desired : ℕ) (survivors : Survivors ι) : List (VmRecord ι) :=
  ((survivors.entries.insertionSort fun a b => a.1 ≤ b.1).filter fun s => desired ≤ s.1).map
    Sigma.snd

end Pass

open Pass in
def reconcileService [LinearOrder ι] (env : Env ι) (svc : ServiceRecord ι) (w : World ι) : Pass ι :=
  if svc.rootfsPath.isEmpty && svc.cloudImage.isNone then
    fail ⟨w, {}⟩ svc.name "service has no rootfs template"
  else
    match env.listError with
    | some e => fail ⟨w, {}⟩ svc.name e
    | none =>
      let (p, survivors) := (w.listVmsForService svc.id).foldl (dedupe env) (⟨w, {}⟩, ∅)
      let p := (List.range svc.desiredInstances).foldl (ensure env svc survivors) p
      (excess svc.desiredInstances survivors).foldl (fun p vm => (p.destroyInstance env vm).2) p

end

open Relational

variable {ι : Type}

inductive CoreError where
  | serviceNotFound (name : String)
  | invalidArgument (text : String)
  | serviceOperationFailed (text : String)
  deriving DecidableEq

def maxResourceNameLen : ℕ := 64

def validateResourceName (kind name : String) : Except CoreError Unit :=
  if name.isEmpty then .error (.invalidArgument s!"{kind} name cannot be empty")
  else if maxResourceNameLen < name.utf8ByteSize then
    .error (.invalidArgument s!"{kind} name exceeds maximum length of {maxResourceNameLen}")
  else if name.startsWith '.' then
    .error (.invalidArgument s!"{kind} name '{name}' cannot start with '.'")
  else if name.toList.all fun c => c.isAlphanum || c == '-' || c == '_' || c == '.' then .ok ()
  else .error (.invalidArgument
    s!"{kind} name '{name}' contains invalid character; allowed: [A-Za-z0-9._-]")

/-- The worst generated name has to fit; there is none when no instance is wanted. -/
def validateServiceInstanceNames (name : String) (desired : ℕ) : Except CoreError Unit :=
  if 0 < desired then validateResourceName "service instance" (instanceName name (desired - 1))
  else .ok ()

structure Services (ι : Type) where
  rows : List (ServiceRecord ι)
  ids : (rows.map ServiceRecord.id).Nodup
  names : (rows.map ServiceRecord.name).Nodup

namespace Services

variable (s : Services ι)

def getServiceByName (name : String) : Option (ServiceRecord ι) := s.rows.find? (·.name = name)

variable [DecidableEq ι]

def has (id : ι) : Bool := s.rows.any (·.id = id)

def updateServiceDesiredInstances (id : ι) (desired : ℕ) : Services ι where
  rows := s.rows.map fun r => if r.id = id then { r with desiredInstances := desired } else r
  ids := by
    rw [List.map_map, List.map_congr_left (g := ServiceRecord.id)]
    · exact s.ids
    · intro r _
      simp only [Function.comp_apply]
      split_ifs <;> rfl
  names := by
    rw [List.map_map, List.map_congr_left (g := ServiceRecord.name)]
    · exact s.names
    · intro r _
      simp only [Function.comp_apply]
      split_ifs <;> rfl

def deleteService (id : ι) : Services ι where
  rows := s.rows.filter fun r => r.id ≠ id
  ids := s.ids.sublist (List.filter_sublist.map _)
  names := s.names.sublist (List.filter_sublist.map _)

end Services

/-! ## Places in a call -/

inductive Purpose (ι : Type) where
  | scale
  | delete
  | sweep (rest : List (ServiceRecord ι))
  deriving DecidableEq

inductive Task (ι : Type) where
  /-- `scale_service` is called. -/
  | scale (name : String) (desired : ℕ)
  /-- Its arguments are checked against the row it read. -/
  | store (svc : ServiceRecord ι) (desired : ℕ)
  | reread (svc : ServiceRecord ι)
  /-- `delete_service` is called. -/
  | delete (name : String)
  /-- The startup or a tick of the loop is about to list the services. -/
  | sweep
  /-- `reconcile_service` waits for the lock. -/
  | wait (svc : ServiceRecord ι) (purpose : Purpose ι)
  | pass (svc : ServiceRecord ι) (purpose : Purpose ι)
  | remove (svc : ServiceRecord ι)

inductive Report (ι : Type) where
  | passed (svc : ServiceRecord ι) (outcome : ReconcileOutcome)
  | scaled (svc : ServiceRecord ι) (outcome : ReconcileOutcome)
  | deleted (svc : ServiceRecord ι)
  | swept
  | failed (error : CoreError)
  deriving DecidableEq

def Task.Holds : Task ι → ι → Prop
  | .pass svc _, id => svc.id = id
  | _, _ => False

structure Daemon (ι : Type) where
  services : Services ι
  world : World ι
  tasks : Tasks ℕ (Task ι)
  lock : ι → Option ℕ
  log : List (Report ι)

namespace Daemon

def goto (d : Daemon ι) (t : ℕ) (task : Task ι) : Daemon ι := { d with tasks := d.tasks.set t task }

def finish (d : Daemon ι) (t : ℕ) (report : Report ι) : Daemon ι :=
  { d with tasks := d.tasks.clear t, log := report :: d.log }

def fail (d : Daemon ι) (t : ℕ) (e : CoreError) : Daemon ι := d.finish t (.failed e)

def sweepOn (d : Daemon ι) (t : ℕ) : List (ServiceRecord ι) → Daemon ι
  | [] => d.finish t .swept
  | svc :: rest => d.goto t (.wait svc (.sweep rest))

variable [LinearOrder ι]

/-- The pass itself; the guard of the lock is dropped at its end. -/
def reconcile (env : Env ι) (d : Daemon ι) (svc : ServiceRecord ι) : Daemon ι :=
  let p := reconcileService env svc d.world
  { d with
    world := p.world
    lock := Function.update d.lock svc.id none
    log := .passed svc p.outcome :: d.log }

def afterPass (d : Daemon ι) (t : ℕ) (svc : ServiceRecord ι) (outcome : ReconcileOutcome) :
    Purpose ι → Daemon ι
  | .scale => d.finish t (.scaled svc outcome)
  | .delete =>
    match outcome.failed with
    | [] => d.goto t (.remove svc)
    | (inst, err) :: _ => d.fail t (.serviceOperationFailed
        s!"cannot delete service '{svc.name}': instance {inst} cleanup failed: {err}")
  | .sweep rest => d.sweepOn t rest

def advance (env : Env ι) (d : Daemon ι) (t : ℕ) : Option (Daemon ι) :=
  match d.tasks t with
  | none => none
  | some (.scale name desired) =>
    match d.services.getServiceByName name with
    | none => some (d.fail t (.serviceNotFound name))
    | some svc =>
      match validateServiceInstanceNames name desired with
      | .error e => some (d.fail t e)
      | .ok () =>
        match svc.volume with
        | none => some (d.goto t (.store svc desired))
        | some volume =>
          if 1 < desired then some (d.fail t (.invalidArgument
            (s!"cannot scale service '{name}' to {desired} instances with volume '{volume}': " ++
              "volumes are exclusive-attach, so a volume-backed service is limited to 1 instance")))
          else some (d.goto t (.store svc desired))
  | some (.store svc desired) =>
    if d.services.has svc.id then
      some { d.goto t (.reread svc) with
        services := d.services.updateServiceDesiredInstances svc.id desired }
    else some (d.fail t (.serviceNotFound svc.name))
  | some (.reread svc) =>
    match d.services.getServiceByName svc.name with
    | none => some (d.fail t (.serviceNotFound svc.name))
    | some svc' => some (d.goto t (.wait svc' .scale))
  | some (.delete name) =>
    match d.services.getServiceByName name with
    | none => some (d.fail t (.serviceNotFound name))
    | some svc => some (d.goto t (.wait { svc with desiredInstances := 0 } .delete))
  | some .sweep => some (d.sweepOn t d.services.rows)
  | some (.wait svc purpose) =>
    if (d.lock svc.id).isSome then none
    else some { d.goto t (.pass svc purpose) with lock := Function.update d.lock svc.id (some t) }
  | some (.pass svc purpose) =>
    some ((d.reconcile env svc).afterPass t svc (reconcileService env svc d.world).outcome purpose)
  | some (.remove svc) =>
    if d.services.has svc.id then
      some { d.finish t (.deleted svc) with services := d.services.deleteService svc.id }
    else some (d.fail t (.serviceNotFound svc.name))

structure Idle (d : Daemon ι) : Prop where
  tasks : ∀ t, d.tasks t = none
  lock : ∀ id, d.lock id = none
  log : d.log = []

end Daemon

inductive Call where
  | scale (name : String) (desired : ℕ)
  | delete (name : String)
  | sweep

def Call.task : Call → Task ι
  | .scale name desired => .scale name desired
  | .delete name => .delete name
  | .sweep => .sweep

inductive Event (ι : Type) where
  | call (t : ℕ) (c : Call)
  | advance (t : ℕ) (env : Env ι)

namespace Daemon

variable [LinearOrder ι]

def step (d : Daemon ι) : Event ι → Option (Daemon ι)
  | .call t c => if (d.tasks t).isSome then none else some (d.goto t c.task)
  | .advance t env => d.advance env t

end Daemon

def interleaved (ι : Type) [LinearOrder ι] : Machine (Daemon ι) (Event ι) := .ofStep Daemon.step

end Husker.Service
