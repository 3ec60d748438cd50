import Mathlib.Data.List.Destutter
import Husker.Wire.Frame
import Husker.Mount.Spec
import Husker.Relational.Program
import Husker.Relational.JsonValue

/-! # One job of the command line

A job creates a machine, runs a command in it, brings back what was asked for and destroys the
machine.  The daemon and the guest behind it may answer anything.
-/
namespace Husker.Cli
open Relational Wire

/-! ## The working tree a job is given

The command line packs the working tree, has a shell in the guest unpack it and run the command
there, and names the paths it wants back by their positions in one list.
-/

structure PathBuf where
  bytes : Bytes

/-- `std::path::Component`, in the order it compares. -/
inductive Part where
  | root
  | current
  | parent
  | normal (name : Bytes)
  deriving DecidableEq, Ord

namespace PathBuf

def slash : UInt8 := 47
def dot : UInt8 := 46

/-- A part after the first; an empty one and a dot say nothing there. -/
def inner (seg : Bytes) : List Part :=
  if seg = [] ∨ seg = [dot] then [] else if seg = [dot, dot] then [.parent] else [.normal seg]

def components (path : PathBuf) : List Part :=
  let segs := path.bytes.splitOnP (· = slash)
  match segs with
  | [] :: _ :: _ => .root :: segs.flatMap inner
  | seg :: rest => (if seg = [dot] then [.current] else inner seg) ++ rest.flatMap inner
  | [] => []

def Same (p q : PathBuf) : Prop := p.components = q.components

instance (p q : PathBuf) : Decidable (p.Same q) := inferInstanceAs (Decidable (_ = _))

end PathBuf

def sort (paths : List PathBuf) : List PathBuf :=
  paths.insertionSort fun p q => (compare p.components q.components).isLE

def dedup (paths : List PathBuf) : List PathBuf := paths.destutter fun p q => ¬ p.Same q

/-- What is to come back: the files that were packed if they are written back, and the paths named. -/
def retrievePaths (tree out : List PathBuf) : List PathBuf := dedup (sort (tree ++ out))

def syncArchiveGuestPath : String := "/tmp/.husker-sync.tgz"
def syncWorkdir : String := "/work"
def syncOutputGuestPath : String := "/tmp/.husker-out.tgz"
def syncManifestGuestPath : String := "/tmp/.husker-out.manifest"

def shellSingleQuote (s : String) : String :=
  "'" ++ String.ofList (s.toList.flatMap fun c => if c.toNat = 39 then "'\\''".toList else [c]) ++ "'"

/-- `lossy` is `Path::to_string_lossy`. -/
def wrapSyncCommand (lossy : Bytes → Text) (archiveGuestPath workdir : String)
    (command : List String) (outputPath manifestPath : String) (paths : List PathBuf) :
    String × List String :=
  let setup := s!"set -e; mkdir -p {workdir}; tar -xzf {archiveGuestPath} -C {workdir}; " ++
    s!"rm -f {archiveGuestPath}; cd {workdir}; "
  let script :=
    if paths.isEmpty then setup ++ "exec \"$@\""
    else
      let quoted := " ".intercalate
        (paths.map fun p => shellSingleQuote ("./" ++ String.ofList (lossy p.bytes)))
      setup ++ "set +e; \"$@\"; __rc=$?; " ++
        s!"set --; __i=0; : > {manifestPath}; __oifs=$IFS; IFS=; " ++
        s!"for __p in {quoted}; do __i=$((__i+1)); __n=0; " ++
        "for __m in $__p; do " ++
        "if [ -e \"$__m\" ]; then set -- \"$@\" \"$__m\"; __n=1; fi; done; " ++
        s!"if [ $__n -eq 0 ]; then printf '%s\\n' \"$__i\" >> {manifestPath}; fi; done; " ++
        "IFS=$__oifs; " ++
        "if [ $# -gt 0 ]; then " ++
        "__tar_opts=; if tar --version 2>/dev/null | grep -q bsdtar; then " ++
        "__tar_opts='--no-xattrs --no-acls --no-fflags'; fi; " ++
        s!"TAR_OPTIONS= COPYFILE_DISABLE=1 tar $__tar_opts -czf {outputPath} \"$@\" " ++
        "2>/dev/null || true; fi; exit $__rc"
  ("sh", ["-c", script, "husker-sync"] ++ command)

/-! ## Failures -/

inductive CliErrorKind where
  | error | notFound | invalidUsage | conflict | permissionDenied | daemonUnreachable
  | confirmationRequired | confirmationDeclined | outMatchedNothing | jobCleanupFailed
  | vmNotRunning | timeout
  deriving DecidableEq

structure ApiFailure where
  message : String
  kind : CliErrorKind
  daemonKind : Option String
  details : Option Json.Value
  hint : Option String

/-- `anyhow::Error`, as far as `ApiFailure::from_error` tells errors apart. -/
inductive Error where
  | api (failure : ApiFailure)
  | daemonUnreachable (text : String)
  | other (text : String)

namespace ApiFailure

def withKind (kind : CliErrorKind) (message : String) (hint : Option String) : ApiFailure :=
  { message, kind, daemonKind := none, details := none, hint }

def ofString (message : String) : ApiFailure := withKind .error message none

def fromError : Error → ApiFailure
  | .api failure => failure
  | .daemonUnreachable text =>
    withKind .daemonUnreachable text (some ("start it with `husker daemon`, or point at a " ++
      "running daemon via --api-url / HUSKER_API_URL"))
  | .other text => withKind .error text none

end ApiFailure

/-! ## Requests -/

inductive OutputFormat where
  | text
  | json
  deriving DecidableEq

structure OutputLimits where
  maxArchiveBytes : ℕ
  maxExpandedBytes : ℕ

/-- The command line refuses `--out` and `--write-back` without `--sync-cwd`. -/
structure JobRequest where
  output : OutputFormat
  name : String
  keep : Bool
  timeout : ℕ
  dns : List String
  addHost : List (String × String)
  syncCwd : Bool
  writeBack : Bool
  out : List PathBuf
  outputLimits : OutputLimits
  command : List String
  env : List String
  secretEnv : String → Option String
  out_sync : out ≠ [] → syncCwd = true
  writeBack_sync : writeBack = true → syncCwd = true

structure ExecRequest where
  command : String
  args : List String
  env : String → Option String
  secretEnv : String → Option String
  timeoutSecs : Option ℕ

structure ExecResponse where
  exitCode : ℤ
  stdout : String
  stderr : String

/-- A slice of a guest file whose text decoded to as many bytes as it said. -/
structure ReadFileResponse where
  chunk : Bytes
  totalSize : Option ℕ
  modifiedNanos : Option ℕ

inductive FileReadOutcome where
  | read (body : ReadFileResponse)
  | failed (failure : ApiFailure) (payloadTooLarge : Bool)

inductive BootKind where
  | directKernel | uefi | efi | macOs

structure BootDiagnosis where
  consoleTail : Option String
  hint : String

/-- What came back for `--out` and `--write-back`. -/
structure Retrieval where
  files : List String := []
  unmatchedOut : List String := []
  unmatchedWriteBack : List String := []
  error : Option ApiFailure := none

structure JobOutcome where
  exec : ExecResponse
  streamed : Bool
  retrieval : Option Retrieval

inductive JobTermination where
  | success
  | exit (code : ℤ)
  | failure (failure : ApiFailure)

inductive Deletion where
  | success
  | notFound
  | refused (failure : ApiFailure)

/-! ## What a job asks for

While it waits for an answer to one of the first kind a job may be interrupted.
-/

inductive Awaited where
  | create
  | health
  | vm
  | waitForVmReady (timeout : ℕ)
  | bootDiagnosis
  | applyDnsHosts (dns : List String) (addHost : List (String × String))
  | writeFile (path : String) (bytes : Bytes)
  | execStream (request : ExecRequest)
  | exec (request : ExecRequest)
  | readFile (path : String) (offset len : ℕ)
  | guestInfo
  | extract (archive : Bytes) (dir : String) (limits : OutputLimits)

def Awaited.Answer : Awaited → Type
  | .create => Except Error (Except ApiFailure Unit)
  | .health => Unit
  | .vm => Except Error BootKind
  | .waitForVmReady _ => Except Error Bool
  | .bootDiagnosis => BootDiagnosis
  | .applyDnsHosts _ _ => Except Error Unit
  | .writeFile _ _ => Except Error Unit
  | .execStream _ => Except Error (Option ℤ)
  | .exec _ => Except Error ExecResponse
  | .readFile _ _ _ => Except Error FileReadOutcome
  | .guestInfo => Except Error ℕ
  | .extract _ _ _ => Except Error (List String)

inductive Ask where
  | awaited (a : Awaited)
  | currentDir
  | buildSyncArchive (dir : String)
  | collectSyncPaths (dir : String)
  | delete (name : String)
  | render (outcome : JobOutcome) (retrievalFailure : Option ApiFailure) (lifecycleFailed : Bool)

def Ask.Answer : Ask → Type
  | .awaited a => Option a.Answer
  | .currentDir => Except Error String
  | .buildSyncArchive _ => Except Error Bytes
  | .collectSyncPaths _ => Except Error (List PathBuf)
  | .delete _ => Except Error Deletion
  | .render _ _ _ => Except String Unit

def outside : Interface := ⟨Ask, Ask.Answer⟩

abbrev Talk := List ((a : outside.Act) × outside.Resp a)

inductive Stop where
  | interrupted
  | error (e : Error)

abbrev Job := ExceptT Stop (Program outside)

def await (a : Awaited) : Job a.Answer :=
  ExceptT.mk (.act (Ask.awaited a) fun
    | none => .ret (.error .interrupted)
    | some answer => .ret (.ok answer))

def ask (a : Ask) : Job a.Answer := ExceptT.mk (.act a fun r => .ret (.ok r))

/-- `?` on a result. -/
def settle {α : Type} : Except Error α → Job α
  | .ok a => pure a
  | .error e => throw (.error e)

/-! ## Reading a guest file -/

inductive GuestFile where
  | read (bytes : Bytes)
  | failed (failure : ApiFailure)

def guestReadChunkBytes : ℕ := 512 * 1024

def minProtocolVersionForRangedRead : ℕ := 3

def checkRangedReadCapable (version : ℕ) : Except String Unit :=
  let required := minProtocolVersionForRangedRead
  if version ≥ required then .ok ()
  else .error ("the file is too large for a single read and this VM's guest agent cannot serve a " ++
    s!"byte range: it reports protocol version {version}, but ranged reads " ++
    s!"require version {required} or newer. The VM's image predates ranged reads in " ++
    "husker-agent; rebuild or re-import the image with a current husker-agent.")

def explainOversizedRead (failure : ApiFailure) : Job ApiFailure := do
  match ← await .guestInfo with
  | .error (.api _) => return failure
  | .error e => throw (.error e)
  | .ok version =>
    match checkRangedReadCapable version with
    | .error message => return { failure with message }
    | .ok () =>
      return { failure with
        hint := some (s!"husker reads a guest file {guestReadChunkBytes} bytes at a time, so the " ++
          "daemon's max_file_read_bytes policy is below a single chunk; raise it to at " ++
          s!"least {guestReadChunkBytes}") }

/-- Size and modification time as the first answer gave them, if they are no longer so. -/
def changed (expected : Option (ℕ × Option ℕ)) (total : ℕ) (modified : Option ℕ) : Option String :=
  match expected with
  | none => none
  | some (firstTotal, firstModified) =>
    if firstTotal ≠ total then
      some s!"it was {firstTotal} bytes when the transfer started and is {total} now"
    else if firstModified ≠ modified then
      some ("its contents were replaced by the same number of bytes, which its " ++
        "modification time records even though its size did not change")
    else none

def tooLarge (path vm : String) (limit : ℕ) : GuestFile :=
  .failed (.ofString (s!"reading {path} from VM '{vm}': guest file exceeds the transfer limit of " ++
    s!"{limit} bytes"))

/-- The loop of `read_guest_file_inner` under a limit.  Every turn but the last adds a byte, so it
turns at most once more than the limit has bytes. -/
def readLoop (vm path : String) (limit : ℕ) :
    ℕ → Bytes → Option (ℕ × Option ℕ) → Job GuestFile
  | 0, _, _ => return tooLarge path vm limit
  | fuel + 1, buf, expected => do
    let offset := buf.length
    let requestBytes := min guestReadChunkBytes (limit - offset + 1)
    match ← settle (← await (.readFile path offset requestBytes)) with
    | .failed failure payloadTooLarge =>
      if payloadTooLarge && buf.isEmpty then
        return .failed (← explainOversizedRead failure)
      else return .failed failure
    | .read body =>
      if body.totalSize.any (· > limit) then return tooLarge path vm limit
      else if body.chunk.length > limit - offset then return tooLarge path vm limit
      else
        match body.totalSize with
        -- An agent that knows no ranges has sent the whole file.
        | none => return .read (buf ++ body.chunk)
        | some total =>
          match changed expected total body.modifiedNanos with
          | some detail =>
            return .failed (.ofString (s!"reading {path} from VM '{vm}': the file changed while it " ++
              s!"was being transferred ({detail}). The copy would have been assembled from two " ++
              "different versions of the file, so none of it was kept."))
          | none =>
            if (buf ++ body.chunk).length ≥ total then
              return .read ((buf ++ body.chunk).take total)
            else if body.chunk = [] then
              return .failed (.ofString (s!"reading {path} from VM '{vm}': the guest returned no " ++
                s!"data at offset {offset} of a {total}-byte file, so the transfer cannot finish."))
            else
              readLoop vm path limit fuel (buf ++ body.chunk)
                (expected.or (some (total, body.modifiedNanos)))

def readGuestFileLimited (vm path : String) (maxBytes : ℕ) : Job GuestFile :=
  readLoop vm path maxBytes (maxBytes + 1) [] none

/-! ## Bringing results back -/

variable (lossy : Bytes → Text)

/-- `str::lines`. -/
def lines (text : Text) : List Text :=
  let pieces := text.splitOnP (· = '\n')
  let whole := pieces.dropLast.map fun line =>
    if line.getLast? = some '\r' then line.dropLast else line
  match pieces.getLast? with
  | none | some [] => whole
  | some last => whole ++ [last]

def trim (text : Text) : Text :=
  ((text.dropWhile Mount.isWhitespace).reverse.dropWhile Mount.isWhitespace).reverse

/-- `str::parse::<usize>`. -/
def parseUsize (text : Text) : Option ℕ :=
  let digits := match text with
    | '+' :: rest => rest
    | _ => text
  if digits ≠ [] ∧ digits.all Char.isDigit then
    let n := digits.foldl (fun n c => 10 * n + (c.toNat - '0'.toNat)) 0
    if n < 2 ^ 64 then some n else none
  else none

/-- `lossy` is `String::from_utf8_lossy`. -/
def parseUnmatchedManifest (bytes : Bytes) (patternCount : ℕ) : List ℕ :=
  (((lines (lossy bytes)).filterMap fun line => parseUsize (trim line)).filter fun pos =>
    1 ≤ pos ∧ pos ≤ patternCount).map (· - 1)

def Retrieval.failure (r : Retrieval) : Option ApiFailure :=
  match r.error with
  | some err => some err
  | none =>
    if r.unmatchedOut = [] then none
    else some (.withKind .outMatchedNothing
      ("--out matched nothing on the guest: " ++ ", ".intercalate r.unmatchedOut)
      (some ("--out patterns are relative to the synced working tree; a build that writes " ++
        "outside it (CARGO_TARGET_DIR on a --volume, an absolute output path) produces " ++
        "nothing for --out to match")))

def display (path : PathBuf) : String := String.ofList (lossy path.bytes)

/-- The unmatched paths at these positions that were named, and those that were not. -/
def classify (paths out : List PathBuf) (positions : List ℕ) : List String × List String :=
  let unmatched := positions.filterMap (paths[·]?)
  ((unmatched.filter fun p => out.any fun q => p.Same q).map (display lossy),
    (unmatched.filter fun p => ! out.any fun q => p.Same q).map (display lossy))

def retrieveArchive (name cwd : String) (limits : OutputLimits)
    (unmatchedOut unmatchedWriteBack : List String) : Job Retrieval := do
  match ← readGuestFileLimited name syncOutputGuestPath limits.maxArchiveBytes with
  | .failed failure =>
    return { unmatchedOut, unmatchedWriteBack,
             error := some { failure with
               message := "the command produced outputs but they could not be copied back from " ++
                 s!"VM '{name}': {failure.message}" } }
  | .read archive =>
    match ← await (.extract archive cwd limits) with
    | .ok files => return { files, unmatchedOut, unmatchedWriteBack }
    | .error e => return { unmatchedOut, unmatchedWriteBack, error := some (.fromError e) }

def manifestLimit (paths : List PathBuf) : ℕ := max (min (paths.length * 21) (2 ^ 64 - 1)) 1

def retrieveOutputs (name cwd : String) (paths out : List PathBuf) (limits : OutputLimits) :
    Job Retrieval := do
  match ← readGuestFileLimited name syncManifestGuestPath (manifestLimit paths) with
  | .failed failure =>
    return { error := some { failure with
      message := s!"could not read the retrieval manifest from VM '{name}': {failure.message}"
      hint := some ("the sandbox writes one numeric index per unmatched pattern after the " ++
        "command finishes; keep its shell wrapper running and do not modify " ++
        "the retrieval manifest") } }
  | .read manifest =>
    let positions := parseUnmatchedManifest lossy manifest paths.length
    let (unmatchedOut, unmatchedWriteBack) := classify lossy paths out positions
    if unmatchedOut.length + unmatchedWriteBack.length = paths.length then
      return { unmatchedOut, unmatchedWriteBack }
    else retrieveArchive name cwd limits unmatchedOut unmatchedWriteBack

/-! ## The job -/

def defaultReadyTimeout : BootKind → ℕ
  | .macOs => 480
  | .uefi | .efi => 180
  | .directKernel => 120

def BootDiagnosis.consoleBlock (d : BootDiagnosis) : String :=
  (d.consoleTail.map fun tail => "\n--- guest serial console (tail) ---\n" ++ tail).getD ""

def resolveExecCommand : List String → String × List String
  | [] => ("", [])
  | first :: rest => (first, rest)

def parseEnvMap (env : List String) (key : String) : Option String :=
  let entries := env.filterMap fun s => Text.splitOnce '=' s.toList
  (entries.reverse.find? (·.1 = key.toList)).map fun e => String.ofList e.2

def validateRequest (req : JobRequest) : Except ApiFailure Unit :=
  if req.syncCwd && req.command.isEmpty then
    .error (.ofString ("--sync-cwd needs a command after `--`; the image default is only used " ++
      "without --sync-cwd"))
  else .ok ()

def createJobVm (_ : JobRequest) : Job Unit := do
  match ← settle (← await .create) with
  | .ok () => return ()
  | .error failure => throw (.error (.api failure))

/-- Pack and upload the working tree; the directory and what is to come back. -/
def syncTree (req : JobRequest) : Job (String × List PathBuf) := do
  let cwd ← settle (← ask .currentDir)
  let archive ← settle (← ask (.buildSyncArchive cwd))
  settle (← await (.writeFile syncArchiveGuestPath archive))
  let tree ← if req.writeBack then settle (← ask (.collectSyncPaths cwd)) else pure []
  return (cwd, retrievePaths tree req.out)

/-- A daemon that may be too old for the timeout is asked for its version. -/
def checkDaemonVersion (req : JobRequest) : Job Unit :=
  if req.timeout > 30 then await .health else pure ()

def prepare (req : JobRequest) : Job Unit := do
  checkDaemonVersion req
  let kind ← settle (← await .vm)
  let timeout := defaultReadyTimeout kind
  if ← settle (← await (.waitForVmReady timeout)) then
    settle (← await (.applyDnsHosts req.dns req.addHost))
  else
    let diagnosis ← await .bootDiagnosis
    throw (.error (.api (.withKind .timeout
      (s!"timed out after {timeout}s waiting for VM '{req.name}' to become ready" ++
        diagnosis.consoleBlock) (some diagnosis.hint))))

/-- Run the command; whether its output was already shown. -/
def runCommand (req : JobRequest) (command : String × List String) : Job (ExecResponse × Bool) := do
  let request : ExecRequest :=
    { command := command.1, args := command.2, env := parseEnvMap req.env
      secretEnv := req.secretEnv, timeoutSecs := some req.timeout }
  if req.output = .text then
    match ← settle (← await (.execStream request)) with
    | some exitCode => return ({ exitCode, stdout := "", stderr := "" }, true)
    | none => return (← settle (← await (.exec request)), false)
  else return (← settle (← await (.exec request)), false)

def executeCreatedJob (req : JobRequest) : Job JobOutcome := do
  prepare req
  if req.syncCwd then
    let (cwd, paths) ← syncTree req
    let (exec, streamed) ← runCommand req (wrapSyncCommand lossy syncArchiveGuestPath syncWorkdir
      req.command syncOutputGuestPath syncManifestGuestPath paths)
    if paths = [] then return { exec, streamed, retrieval := none }
    else
      let r ← retrieveOutputs lossy req.name cwd paths req.out req.outputLimits
      return { exec, streamed, retrieval := some r }
  else
    let (exec, streamed) ← runCommand req (resolveExecCommand req.command)
    return { exec, streamed, retrieval := none }

/-! ## Its end -/

def cleanupMaxAttempts : ℕ := 3

def cleanupFailure (name : String) (failure : ApiFailure) : ApiFailure :=
  { failure with
    message := s!"job finished but VM '{name}' could not be destroyed: {failure.message}"
    kind := if failure.kind = .error then .jobCleanupFailed else failure.kind }

/-- Delete the machine; `lost` is what follows a request that did not reach the daemon. -/
def deleteVm (name : String) (lost : Error → Program outside (Option ApiFailure)) :
    Program outside (Option ApiFailure) :=
  .act (Ask.delete name) fun
    | .ok .success | .ok .notFound => .ret none
    | .ok (.refused failure) => .ret (some (cleanupFailure name failure))
    | .error e => lost e

def cleanupLoop (name : String) : ℕ → Program outside (Option ApiFailure)
  | 0 => deleteVm name fun e => .ret (some (cleanupFailure name (.fromError e)))
  | more + 1 => deleteVm name fun _ => cleanupLoop name more

def cleanupVm (req : JobRequest) : Program outside (Option ApiFailure) :=
  cleanupLoop req.name (cleanupMaxAttempts - 1)

def JobOutcome.termination (outcome : JobOutcome) : JobTermination :=
  if outcome.exec.exitCode ≠ 0 then .exit (max 1 (min outcome.exec.exitCode 255))
  else match outcome.retrieval.bind Retrieval.failure with
    | some failure => .failure failure
    | none => .success

def JobTermination.isSuccess : JobTermination → Bool
  | .success => true
  | _ => false

/-- A machine that could not be deleted fails a job that went well so far. -/
def JobTermination.afterCleanup (termination : JobTermination) (failed : Option ApiFailure) :
    JobTermination :=
  match failed with
  | some lost => if termination.isSuccess then .failure lost else termination
  | none => termination

def renderOutcome (outcome : JobOutcome) (termination : JobTermination) :
    Program outside JobTermination :=
  .act (Ask.render outcome (outcome.retrieval.bind Retrieval.failure) (!termination.isSuccess)) fun
    | .ok () => .ret termination
    | .error e =>
      .ret (.failure (.fromError (.other ("the job result could not be written to stdout: " ++ e))))

def cleanupUnlessKept (req : JobRequest) : Program outside (Option ApiFailure) :=
  if req.keep then .ret none else cleanupVm req

def finishJob (req : JobRequest) (outcome : JobOutcome) : Program outside JobTermination := do
  let failed ← cleanupUnlessKept req
  renderOutcome outcome (outcome.termination.afterCleanup failed)

def abandonJob (req : JobRequest) (stop : Stop) : Program outside JobTermination := do
  let _ ← cleanupUnlessKept req
  match stop with
  | .interrupted => return .exit 130
  | .error e => return .failure (.fromError e)

def runJob (req : JobRequest) : Program outside JobTermination :=
  match validateRequest req with
  | .error failure => .ret (.failure failure)
  | .ok () => do
    match ← (createJobVm req).run with
    | .error .interrupted => return .exit 130
    | .error (.error e) => return .failure (.fromError e)
    | .ok () =>
      match ← (executeCreatedJob lossy req).run with
      | .ok outcome => finishJob req outcome
      | .error stop => abandonJob req stop

end Husker.Cli
