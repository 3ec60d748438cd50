import Husker.Relational.JsonValue
import Mathlib.Data.List.AList
import Husker.Relational.Sharing

/-! # The session store of the guest agent

The requests as programs over the files and the memory of the agent.  What holds the creation lock
keeps it to the end, whatever happens in between.
-/
namespace Husker.Session
open Relational

/-! ## The files of a session store

A directory for each session, a directory of tombstones, and the memory of the agent that serves
them.  Every action on them is one step; file operations may fail without an effect.  A crash
leaves the files and loses the memory.
-/

/-! ## Sessions

What the guest persists about a session and how it refuses a request.
-/

inductive SessionState where
  | running
  | completed
  | cancelled
  | timedOut
  | interrupted
  deriving DecidableEq

def SessionState.text : SessionState → String
  | .running => "running"
  | .completed => "completed"
  | .cancelled => "cancelled"
  | .timedOut => "timed_out"
  | .interrupted => "interrupted"

structure SessionInfo where
  id : String
  command : String
  state : SessionState
  createdAt : UInt64
  finishedAt : Option UInt64
  exitCode : Option Int32
  outputTruncated : Bool

/-- The bytes of `status.json`. -/
def SessionInfo.json (info : SessionInfo) : List Char :=
  Json.object [
    ("id", Json.string info.id),
    ("command", Json.string info.command),
    ("state", Json.string info.state.text),
    ("created_at", Json.nat info.createdAt.toNat),
    ("finished_at", Json.option (fun n => Json.nat n.toNat) info.finishedAt),
    ("exit_code", Json.option (fun n => Json.int n.toInt) info.exitCode),
    ("output_truncated", Json.bool info.outputTruncated)]

structure ExecRequest where
  command : String
  args : List String
  workingDir : Option String
  env : List (String × String)
  timeoutSecs : Option UInt64

structure SessionStartRequest where
  id : String
  exec : ExecRequest

structure Specification where
  command : String
  args : List String
  workingDir : Option String
  env : List (String × String)
  timeout : UInt64
  deriving DecidableEq

def SessionStartRequest.specification (request : SessionStartRequest) (defaultTimeout : UInt64) :
    Specification where
  command := request.exec.command
  args := request.exec.args
  workingDir := request.exec.workingDir
  env := request.exec.env
  timeout := request.exec.timeoutSecs.getD defaultTimeout

def maxSessions : ℕ := 128
def maxReplayReceipts : ℕ := 1024
def maxRunning : ℕ := 16
def maxEvents : ℕ := 4096
def maxStatusBytes : ℕ := 16 * 1024
def maxCommandBytes : ℕ := 4096
def maxSpecificationBytes : ℕ := 64 * 1024

inductive SessionError where
  | invalidId
  | notFound
  | tooManyRunning
  | retentionLimitReached
  | retentionLimitExceeded
  | running
  | idExists
  | replayConflict
  | other (text : String)
  /-- A file operation or the start of the command failed. -/
  | io

def statusExceedsLimit : SessionError := .other "session status exceeds limit"

def validId (id : String) : Bool :=
  id.toList.length = 36 && (id.toList.zipIdx.all fun (c, i) =>
    if i ∈ [8, 13, 18, 23] then c = '-' else c.isDigit || c ∈ "abcdefABCDEF".toList)

/-- `events.jsonl`: a worker writes to the file it opened, whatever has the name now. -/
structure Log where
  inode : ℕ
  size : ℕ

structure Dir where
  status : Option SessionInfo := none
  /-- `request.sha256` and its contents once they are written. -/
  receipt : Option (Option String) := none
  log : Option Log := none
  temps : List ℕ := []

inductive File where
  | status
  | receipt
  | log
  | temp (n : ℕ)
  deriving DecidableEq

namespace Dir

def contains (d : Dir) : File → Bool
  | .status => d.status.isSome
  | .receipt => d.receipt.isSome
  | .log => d.log.isSome
  | .temp n => n ∈ d.temps

def files (d : Dir) : List File :=
  (if d.status.isSome then [.status] else []) ++ (if d.receipt.isSome then [.receipt] else []) ++
    (if d.log.isSome then [.log] else []) ++ d.temps.map .temp

def unlink (d : Dir) : File → Dir
  | .status => { d with status := none }
  | .receipt => { d with receipt := none }
  | .log => { d with log := none }
  | .temp n => { d with temps := d.temps.filter (· ≠ n) }

def append (d : Dir) (inode bytes : ℕ) : Dir :=
  { d with log := d.log.map fun log => ⟨log.inode, if log.inode = inode then log.size + bytes
    else log.size⟩ }

end Dir

structure ActiveSession where
  sequence : ℕ
  /-- The sender is there until the first cancellation takes it. -/
  cancel : Bool
  deriving DecidableEq

inductive Fact where
  | accepted (specification : Specification)
  | spawned
  | started (specification : Specification)
  | removed (receipt : Bool)
  deriving DecidableEq

structure Job where
  task : ℕ
  id : String
  inode : ℕ
  writing : Bool
  deriving DecidableEq

structure Store where
  dirs : AList fun _ : String => Dir := ∅
  tombstones : List String := []
  inodes : ℕ := 0
  active : AList fun _ : String => ActiveSession := ∅
  nextSequence : ℕ := 0
  nextTemp : ℕ := 0
  creation : Option ℕ := none
  history : String → List Fact := fun _ => []
  /-- The directory that `remove` deletes. -/
  removing : Option String := none
  /-- The tasks that found a session running but not active. -/
  doubting : List (ℕ × String) := []
  jobs : ℕ → Option Job := fun _ => none

structure Worker where
  info : SessionInfo
  sequence : ℕ
  inode : ℕ

inductive Ending where
  | completed
  | cancelled
  | timedOut
  | failed

def Ending.state : Ending → SessionState
  | .completed => .completed
  | .cancelled => .cancelled
  | .timedOut => .timedOut
  | .failed => .interrupted

inductive Act where
  | lock
  | unlock
  | now
  | readRoot
  | tryExists (id : String) (file : File)
  | dirExists (id : String)
  | logSize (id : String)
  | readStatus (id : String)
  | readReceipt (id : String)
  | tombstoned (id : String)
  | countTombstones
  | sync
  | createDir (id : String)
  | createLog (id : String)
  | createReceipt (id : String)
  | writeReceipt (id digest : String)
  | createTemp (id : String)
  /-- The temporary file becomes the status; a worker publishes its outcome so. -/
  | rename (info : SessionInfo) (temp : ℕ) (worker : Option ℕ)
  | createTombstone (id : String)
  | readDir (id : String)
  | unlink (id : String) (file : File)
  | rmdir (id : String)
  | activeLen
  | activeContains (id : String)
  | settle
  | register (id : String)
  | release (id : String) (sequence : ℕ)
  | takeCancel (id : String)
  | spawn (id : String)
  | handOver (worker : Worker)
  /-- The size of the next event the worker writes, if there is one. -/
  | poll
  | outcome
  | retire (sequence : ℕ)
  | append (id : String) (inode bytes : ℕ)
  | note (id : String) (fact : Fact)
  | removing (id : Option String)

def Act.Resp : Act → Type
  | .lock | .unlock | .settle | .release .. | .takeCancel _ | .handOver _ | .retire _ | .note ..
  | .removing _ => Unit
  | .now => UInt64
  | .readRoot => Option (List String)
  | .tryExists .. | .dirExists _ | .tombstoned _ => Option Bool
  /- Nothing inside: the file is not there. -/
  | .logSize _ => Option (Option ℕ)
  | .readStatus _ => Option (Option SessionInfo)
  /- Nothing inside: the contents are not complete. -/
  | .readReceipt _ => Option (Option String)
  | .countTombstones => Option ℕ
  | .sync | .createReceipt _ | .writeReceipt .. | .rename .. | .createTombstone _ | .unlink ..
  | .rmdir _ | .spawn _ | .append .. => Option Unit
  /- `false`: the directory is there already. -/
  | .createDir _ => Option Bool
  | .createLog _ | .createTemp _ => Option ℕ
  | .readDir _ => Option (List File)
  | .activeLen => ℕ
  | .activeContains _ => Bool
  | .register _ => ℕ
  | .poll => Option ℕ
  | .outcome => Ending × Option Int32 × Bool

abbrev api : Interface := ⟨Act, Act.Resp⟩

structure Choice where
  fails : Bool := false
  now : UInt64 := 0
  ids : List String := []
  files : List File := []
  output : Option ℕ := none
  outcome : Ending × Option Int32 × Bool := (.completed, some 0, false)

namespace Store

def update (s : Store) (id : String) (f : Dir → Dir) : Store :=
  match s.dirs.lookup id with
  | none => s
  | some d => { s with dirs := s.dirs.insert id (f d) }

def change (s : Store) (id : String) (f : Dir → Dir) : Option Unit × Store :=
  match s.dirs.lookup id with
  | none => (none, s)
  | some _ => (some (), s.update id f)

def record (s : Store) (id : String) (fact : Fact) : Store :=
  { s with history := Function.update s.history id (fact :: s.history id) }

def settleJob (s : Store) (worker : Option ℕ) : Store :=
  { s with jobs := fun q => if worker = some q then (s.jobs q).map ({ · with writing := false })
    else s.jobs q }

def publish (s : Store) (info : SessionInfo) (temp : ℕ) (worker : Option ℕ) :
    Option Unit × Store :=
  match s.dirs.lookup info.id with
  | none => (none, s)
  | some d =>
    if temp ∈ d.temps then
      (some (), (s.update info.id fun d =>
        { d with status := some info, temps := d.temps.filter (· ≠ temp) }).settleJob worker)
    else (none, s)

def perform (t n : ℕ) (x : Choice) (s : Store) : (a : Act) → Option (a.Resp × Store)
  | .lock => if s.creation = none then some ((), { s with creation := some t }) else none
  | .unlock => some ((), if s.creation = some t then { s with creation := none } else s)
  | .now => some (x.now, s)
  | .readRoot => if x.ids.isPerm s.dirs.keys then some (some x.ids, s) else none
  | .tryExists id file => some (some ((s.dirs.lookup id).any (·.contains file)), s)
  | .dirExists id => some (some (s.dirs.lookup id).isSome, s)
  | .logSize id => some (some ((s.dirs.lookup id).bind (·.log.map Log.size)), s)
  | .readStatus id => some (some ((s.dirs.lookup id).bind (·.status)), s)
  | .readReceipt id => some ((s.dirs.lookup id).bind (·.receipt), s)
  | .tombstoned id => some (some (decide (id ∈ s.tombstones)), s)
  | .countTombstones => some (some s.tombstones.length, s)
  | .sync => some (some (), s)
  | .createDir id =>
    some (match s.dirs.lookup id with
      | some _ => (some false, s)
      | none => (some true, { s with dirs := s.dirs.insert id {} }))
  | .createLog id =>
    some (match s.dirs.lookup id with
      | none => (none, s)
      | some _ => (some s.inodes,
        { s.update id fun d => { d with log := some ⟨s.inodes, 0⟩ } with inodes := s.inodes + 1 }))
  | .createReceipt id => some (s.change id fun d => { d with receipt := some none })
  | .writeReceipt id digest => some (s.change id fun d => { d with receipt := some (some digest) })
  | .createTemp id =>
    some (match s.dirs.lookup id with
      | none => (none, { s with nextTemp := s.nextTemp + 1 })
      | some _ => (some s.nextTemp,
        { s.update id fun d => { d with temps := d.temps.insert s.nextTemp } with
          nextTemp := s.nextTemp + 1 }))
  | .rename info temp worker => some (s.publish info temp worker)
  | .createTombstone id => some (some (), { s with tombstones := s.tombstones.insert id })
  | .readDir id =>
    match s.dirs.lookup id with
    | none => some (none, s)
    | some d => if x.files.isPerm d.files then some (some x.files, s) else none
  | .unlink id file => some (s.change id (·.unlink file))
  | .rmdir id =>
    some (match s.dirs.lookup id with
      | some ⟨none, none, none, []⟩ => (some (), { s with dirs := s.dirs.erase id })
      | _ => (none, s))
  | .activeLen => some (s.active.keys.length, s)
  | .activeContains id =>
    some (match s.active.lookup id with
      | some _ => (true, s)
      | none => (false, { s with doubting := (t, id) :: s.doubting }))
  | .settle => some ((), { s with doubting := s.doubting.filter (·.1 ≠ t) })
  | .register id =>
    some (s.nextSequence,
      { s with
        active := s.active.insert id ⟨s.nextSequence, true⟩
        nextSequence := s.nextSequence + 1 })
  | .release id sequence =>
    some ((), if (s.active.lookup id).any (·.sequence = sequence) then
      { s with active := s.active.erase id } else s)
  | .takeCancel id =>
    some ((), match s.active.lookup id with
      | some a => { s with active := s.active.insert id { a with cancel := false } }
      | none => s)
  | .spawn id => some (some (), s.record id .spawned)
  | .handOver w => some ((), { s with
      jobs := Function.update s.jobs w.sequence (some ⟨n, w.info.id, w.inode, true⟩) })
  | .poll => some (x.output, s)
  | .outcome => some (x.outcome, s)
  | .retire sequence => some ((), s.settleJob (some sequence))
  | .append id inode bytes => some (some (), s.update id (·.append inode bytes))
  | .note id fact => some ((), s.record id fact)
  | .removing id => some ((), { s with removing := id })

def fallible : (a : Act) → Option a.Resp
  | .readRoot | .tryExists .. | .dirExists _ | .logSize _ | .readStatus _ | .readReceipt _
  | .tombstoned _ | .countTombstones | .sync | .createReceipt _ | .writeReceipt .. | .rename ..
  | .createTombstone _ | .unlink .. | .rmdir _ | .spawn _ | .append .. | .createDir _
  | .createLog _ | .createTemp _ | .readDir _ => some none
  | _ => none

def run (t n : ℕ) (a : Act) (x : Choice) (s : Store) : Option (a.Resp × Store) :=
  match x.fails, fallible a with
  | true, some r => some (r, s)
  | true, none => none
  | false, _ => s.perform t n x a

def crash (s : Store) : Store :=
  { dirs := s.dirs
    tombstones := s.tombstones
    inodes := s.inodes
    history := s.history }

end Store

abbrev Try := ExceptT SessionError (Program api)

/-- `serde_json` and SHA-256 on specifications. -/
structure Settings where
  size : Specification → ℕ
  digest : Specification → String

/-! ## Single steps -/

def orIo {α : Type} : Option α → Except SessionError α
  | some a => .ok a
  | none => .error .io

@[irreducible] def ensure (b : Bool) (e : SessionError) : Try Unit := if b then pure () else throw e

@[irreducible] def only (b : Bool) (m : Try Unit) : Try Unit := if b then m else pure ()

@[simp] lemma only_true (m : Try Unit) : only true m = m := by simp [only]

@[simp] lemma only_false (m : Try Unit) : only false m = pure () := by simp [only]

def memory (a : Act) : Try a.Resp := Program.attempt (I := api) a .ok

def activeContains (id : String) : Try Bool := memory (.activeContains id)

def activeLen : Try ℕ := memory .activeLen

def sync : Try Unit := Program.attempt (I := api) .sync orIo

def tryExists (id : String) (file : File) : Try Bool :=
  Program.attempt (I := api) (.tryExists id file) orIo

def dirExists (id : String) : Try Bool := Program.attempt (I := api) (.dirExists id) orIo

def tombstoned (id : String) : Try Bool := Program.attempt (I := api) (.tombstoned id) orIo

def spawn (id : String) : Try Unit := Program.attempt (I := api) (.spawn id) orIo

/-! ## Reading and publishing a status -/

def save (info : SessionInfo) (worker : Option ℕ) : Try Unit := do
  ensure (validId info.id) .invalidId
  ensure (Json.size info.json ≤ maxStatusBytes) statusExceedsLimit
  let temp ← Program.attempt (I := api) (.createTemp info.id) orIo
  sync
  Program.attempt (I := api) (.rename info temp worker) orIo
  sync

def orNotFound : Option (Option SessionInfo) → Except SessionError SessionInfo
  | some (some info) =>
    if Json.size info.json ≤ maxStatusBytes then .ok info else .error statusExceedsLimit
  | some none => .error .notFound
  | none => .error .io

def readStatus (id : String) : Try SessionInfo := do
  ensure (validId id) .invalidId
  Program.attempt (I := api) (.readStatus id) orNotFound

def interrupt (id : String) : Try SessionInfo := do
  -- A worker may have completed between the first read and the look at the map.
  let info ← readStatus id
  if info.state = .running then do
    let now ← memory .now
    let interrupted := { info with state := .interrupted, finishedAt := some now }
    save interrupted none
    pure interrupted
  else pure info

def settling {α : Type} (m : Try α) : Try α :=
  ExceptT.mk (m.run >>= fun r => .act .settle fun _ => .ret r)

def get (id : String) : Try SessionInfo := do
  let info ← readStatus id
  if info.state = .running then do
    let active ← activeContains id
    if active then pure info else settling (interrupt id)
  else pure info

/-! ## Directories -/

def unlinkAll (id : String) : List File → Try Unit
  | [] => pure ()
  | file :: rest => do
    Program.attempt (I := api) (.unlink id file) orIo
    unlinkAll id rest

def removeDirAll (id : String) : Try Unit := do
  let files ← Program.attempt (I := api) (.readDir id) orIo
  unlinkAll id files
  Program.attempt (I := api) (.rmdir id) orIo

def retainedOutput : SessionError :=
  .other "incomplete session has retained output; inspect the guest session directory"

/-- A directory whose status was never published goes, if its log is empty. -/
def discard (id : String) : Try Unit := do
  ensure (validId id) .invalidId
  let size ← Program.attempt (I := api) (.logSize id) orIo
  ensure (size.getD 0 = 0) retainedOutput
  removeDirAll id

def collect : List String → List SessionInfo → Try (List SessionInfo)
  | [], found => pure found
  | id :: rest, found => do
    let published ← tryExists id .status
    if published then do
      let info ← get id
      ensure (found.length + 1 ≤ maxSessions) .retentionLimitExceeded
      collect rest (found ++ [info])
    else do
      discard id
      collect rest found

def before (a b : SessionInfo) : Prop :=
  b.createdAt < a.createdAt ∨ b.createdAt = a.createdAt ∧ a.id ≤ b.id

instance : DecidableRel before := fun a b => by unfold before; infer_instance

def listEntries : Try (List SessionInfo) := do
  let ids ← Program.attempt (I := api) .readRoot orIo
  let sessions ← collect ids []
  pure (sessions.insertionSort before)

/-! ## The creation lock -/

def locked {α : Type} (m : Try α) : Try α :=
  ExceptT.mk (.act .lock fun _ => m.run >>= fun r => .act .unlock fun _ => .ret r)

def list : Try (List SessionInfo) := locked listEntries

def bury (id : String) : Try Unit := do
  sync
  Program.attempt (I := api) (.createTombstone id) orIo
  sync

def remove (id : String) : Try Unit := locked do
  let info ← get id
  ensure (info.state ≠ .running) .running
  let receipt ← tryExists id .receipt
  only receipt (bury id)
  memory (.removing (some id))
  let removed ← ExceptT.lift (removeDirAll id).run
  memory (.removing none)
  match removed with
  | .error e => throw e
  | .ok () => memory (.note id (.removed receipt))

def cancel (id : String) : Try SessionInfo := do
  let info ← get id
  memory (.takeCancel id)
  pure info

/-- Reading the log changes nothing; what it yields is the subject of the log itself. -/
def events (id : String) : Try Unit := do
  let _ ← get id
  let _ ← Program.attempt (I := api) (.logSize id) orIo

/-! ## Starting a session -/

def orConflict : Option (Option String) → Except SessionError (Option String)
  | some contents => .ok contents
  | none => .error .replayConflict

def countReceipts : List SessionInfo → Try ℕ
  | [] => Program.attempt (I := api) .countTombstones orIo
  | session :: rest => do
    let receipt ← tryExists session.id .receipt
    let count ← countReceipts rest
    pure (if receipt then count + 1 else count)

/-- The session of an earlier start with the same specification, if there is one. -/
def replay (settings : Settings) (id : String) (specification : Specification) :
    Try (Option SessionInfo) := do
  let removed ← tombstoned id
  ensure (!removed) .replayConflict
  let known ← dirExists id
  if known then do
    let contents ← Program.attempt (I := api) (.readReceipt id) orConflict
    ensure (contents = some (settings.digest specification)) .replayConflict
    let info ← get id
    pure (some info)
  else pure none

def leaveReceipt (settings : Settings) (id : String) (specification : Specification) : Try Unit := do
  Program.attempt (I := api) (.createReceipt id) orIo
  Program.attempt (I := api) (.writeReceipt id (settings.digest specification)) orIo
  sync

/-- Up to the publication of the status; on failure nothing was accepted. -/
def prepare (settings : Settings) (request : SessionStartRequest) (specification : Specification)
    (isReplay : Bool) : Try Worker := do
  -- Permissions and the command line, which may be refused.
  sync
  let inode ← Program.attempt (I := api) (.createLog request.id) orIo
  only (!isReplay) (spawn request.id)
  only isReplay (leaveReceipt settings request.id specification)
  let now ← memory .now
  let info : SessionInfo := ⟨request.id, request.exec.command, .running, now, none, none, false⟩
  let sequence ← memory (.register request.id)
  let saved ← ExceptT.lift (save info none).run
  match saved with
  | .ok () => pure ⟨info, sequence, inode⟩
  | .error e => do
    memory (.release request.id sequence)
    throw e

def abandon (worker : Worker) (e : SessionError) : Try Unit := do
  let now ← memory .now
  let saved ← ExceptT.lift
    (save { worker.info with state := .interrupted, finishedAt := some now } none).run
  memory (.release worker.info.id worker.sequence)
  match saved with
  | .error e => throw e
  | .ok () => throw e

/-- Once the status is published a replayed session is never executed again. -/
def accept (id : String) (specification : Specification) (worker : Worker) : Try Unit := do
  memory (.note id (.accepted specification))
  let synced ← ExceptT.lift sync.run
  match synced with
  | .error e => do
    memory (.release id worker.sequence)
    throw e
  | .ok () => do
    let spawned ← ExceptT.lift (spawn id).run
    match spawned with
    | .error e => abandon worker e
    | .ok () => pure ()

def create (settings : Settings) (request : SessionStartRequest) (specification : Specification)
    (isReplay : Bool) : Try SessionInfo := do
  sync
  let fresh ← Program.attempt (I := api) (.createDir request.id) orIo
  ensure fresh .idExists
  let prepared ← ExceptT.lift (prepare settings request specification isReplay).run
  match prepared with
  | .error e => do
    let _ ← ExceptT.lift (removeDirAll request.id).run
    throw e
  | .ok worker => do
    only isReplay (accept request.id specification worker)
    memory (.handOver worker)
    pure worker.info

/-- Receipt space is reserved at acceptance, so that removing a session always works. -/
def reserve (sessions : List SessionInfo) : Try Unit := do
  let count ← countReceipts sessions
  ensure (count < maxReplayReceipts)
    (.other "replay receipt budget exhausted; destroy this VM before accepting more submissions")

def checkLimits (sessions : List SessionInfo) (isReplay : Bool) : Try Unit := do
  only isReplay (reserve sessions)
  let running ← activeLen
  ensure (running < maxRunning) .tooManyRunning
  ensure (sessions.length < maxSessions) .retentionLimitReached

def startLocked (settings : Settings) (request : SessionStartRequest)
    (specification : Specification) (isReplay : Bool) : Try SessionInfo := do
  ensure (validId request.id) .invalidId
  let sessions ← listEntries
  ensure (!isReplay || settings.size specification ≤ maxSpecificationBytes)
    (.other "session specification exceeds limit")
  let earlier ← if isReplay then replay settings request.id specification else pure none
  match earlier with
  | some info => pure info
  | none => do
    checkLimits sessions isReplay
    create settings request specification isReplay

def startOwned (settings : Settings) (request : SessionStartRequest) (defaultTimeout : UInt64)
    (isReplay : Bool) : Try SessionInfo := do
  ensure (request.exec.command.utf8ByteSize ≤ maxCommandBytes)
    (.other "session command exceeds limit")
  let specification := request.specification defaultTimeout
  locked do
    let info ← startLocked settings request specification isReplay
    only isReplay (memory (.note request.id (.started specification)))
    pure info

/-! ## Workers -/

/-- At most so many events are written; how the command ended. -/
def work (worker : Worker) : ℕ → Try SessionInfo
  | 0 => do
    let (ending, exitCode, truncated) ← memory .outcome
    pure { worker.info with state := ending.state, exitCode, outputTruncated := truncated }
  | n + 1 => do
    let output ← memory .poll
    match output with
    | none => work worker 0
    | some bytes => do
      Program.attempt (I := api) (.append worker.info.id worker.inode bytes) orIo
      work worker n

def Worker.outcome (worker : Worker) : Except SessionError SessionInfo → SessionInfo
  | .ok info => info
  | .error _ => { worker.info with state := .interrupted }

def Worker.publish (worker : Worker) (outcome : SessionInfo) : Try Unit := do
  let now ← memory .now
  let _ ← ExceptT.lift (save { outcome with finishedAt := some now } (some worker.sequence)).run
  memory (.retire worker.sequence)
  memory (.release worker.info.id worker.sequence)

def Worker.run (worker : Worker) : Try Unit := do
  let ended ← ExceptT.lift (work worker maxEvents).run
  worker.publish (worker.outcome ended)

/-! ## The agent -/

inductive Request where
  | start (request : SessionStartRequest) (defaultTimeout : UInt64)
  | startReplay (request : SessionStartRequest) (defaultTimeout : UInt64)
  | get (id : String)
  | events (id : String)
  | cancel (id : String)
  | list
  | remove (id : String)

def answering {α : Type} (m : Try α) : Program api Unit := m.run >>= fun _ => .ret ()

def Request.body (settings : Settings) : Request → Program api Unit
  | .start request defaultTimeout => answering (startOwned settings request defaultTimeout false)
  | .startReplay request defaultTimeout =>
    answering (startOwned settings request defaultTimeout true)
  | .get id => answering (Session.get id)
  | .events id => answering (Session.events id)
  | .cancel id => answering (Session.cancel id)
  | .list => answering Session.list
  | .remove id => answering (Session.remove id)

def agent : Shared api Store Choice where
  run := Store.run
  fork
    | .handOver worker => some (answering worker.run)
    | _ => none
  crash := Store.crash

abbrev Agent := Shared.Config api Store
abbrev Event := Shared.Event Request Choice

def interleaved (settings : Settings) : Machine Agent Event :=
  agent.interleaved (Request.body settings)

/-! ## Sample requests -/

def sampleId : String := "12345678-1234-1234-1234-123456789abc"

def sampleRequest : SessionStartRequest := ⟨sampleId, ⟨"sh", [], none, [], some 5⟩⟩

def sampleSettings : Settings where
  size spec := spec.command.utf8ByteSize
  digest spec := "v1:" ++ spec.command

def steps (t n : ℕ) : List Event := List.replicate n (.run t {})

end Husker.Session
