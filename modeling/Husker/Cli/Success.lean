import Husker.Cli.Job

/-! # A job that ends well

What a successful job has been told: that the command returned zero, that the machine is gone, and
which of the requested paths the guest did not have.
-/
namespace Husker.Cli
open Relational Wire Program List Yields

variable {lossy : Bytes → Text} {req : JobRequest} {talk : Talk}

/-! ## What was said -/

def Returned (talk : Talk) (code : ℤ) : Prop :=
  ∃ request, ⟨Ask.awaited (.execStream request), some (.ok (some code))⟩ ∈ talk ∨
    ∃ response : ExecResponse, response.exitCode = code ∧
      ⟨Ask.awaited (.exec request), some (.ok response)⟩ ∈ talk

/-- The daemon answered that the machine is deleted, or that there is none. -/
def Destroyed (name : String) (talk : Talk) : Prop :=
  ⟨Ask.delete name, .ok .success⟩ ∈ talk ∨ ⟨Ask.delete name, .ok .notFound⟩ ∈ talk

def Requested (req : JobRequest) (talk : Talk) (cwd : String) (paths : List PathBuf) : Prop :=
  ∃ tree, paths = retrievePaths tree req.out ∧
    if req.writeBack then ⟨Ask.collectSyncPaths cwd, .ok tree⟩ ∈ talk else tree = []

def Fetched (vm path : String) (limit : ℕ) (talk : Talk) (bytes : Bytes) : Prop :=
  ∃ part, part <:+: talk ∧ Achieves (readGuestFileLimited vm path limit) part (.read bytes)

def Extracted (req : JobRequest) (talk : Talk) (cwd : String) : Prop :=
  ∃ archive files, Fetched req.name syncOutputGuestPath req.outputLimits.maxArchiveBytes talk archive ∧
    archive.length ≤ req.outputLimits.maxArchiveBytes ∧
    ⟨Ask.awaited (.extract archive cwd req.outputLimits), some (.ok files)⟩ ∈ talk

/-- The path at this position was named with `--out`. -/
def Named (paths out : List PathBuf) (i : ℕ) : Prop :=
  ∃ p, paths[i]? = some p ∧ ∃ q ∈ out, p.Same q

def Miscounted (positions : List ℕ) (paths : List PathBuf) : Prop :=
  positions.length = paths.length ∧ ¬ positions.Nodup

/-! ## Steps -/

variable {a : Awaited}

lemma achieves_await {answer : a.Answer} :
    Achieves (await a) talk answer ↔ talk = [⟨Ask.awaited a, some answer⟩] := by
  unfold Achieves await
  refine yields_act.trans ⟨?_, ?_⟩
  · rintro ⟨r, rest, rfl, h⟩
    cases r with
    | none => cases (yields_ret.mp h).2
    | some answer' =>
      obtain ⟨rfl, hok⟩ := yields_ret.mp h
      cases hok
      rfl
  · rintro rfl
    exact ⟨some answer, [], rfl, .ret _⟩

lemma achieves_ask {a : Ask} {answer : a.Answer} :
    Achieves (ask a) talk answer ↔ talk = [⟨a, answer⟩] := by
  unfold Achieves ask
  refine yields_act.trans ⟨?_, ?_⟩
  · rintro ⟨r, rest, rfl, h⟩
    obtain ⟨rfl, hok⟩ := yields_ret.mp h
    cases hok
    rfl
  · rintro rfl
    exact ⟨answer, [], rfl, .ret _⟩

lemma achieves_settle {α : Type} {r : Except Error α} {a : α} :
    Achieves (settle r) talk a ↔ talk = [] ∧ r = .ok a := by
  cases r with
  | error e => simpa [settle] using not_achieves_throw
  | ok b =>
    rw [settle, achieves_pure, Except.ok.injEq]
    exact and_congr_right fun _ => eq_comm

lemma achieves_answer {α β : Type} {x : Job (Except Error α)} {f : α → Job β} {b : β} :
    Achieves (x >>= fun r => settle r >>= f) talk b ↔
      ∃ first rest a, talk = first ++ rest ∧ Achieves x first (.ok a) ∧ Achieves (f a) rest b := by
  rw [achieves_bind]
  constructor
  · rintro ⟨first, rest, r, rfl, hx, h⟩
    obtain ⟨none', rest, a, rfl, hsettle, hf⟩ := achieves_bind.mp h
    obtain ⟨rfl, rfl⟩ := achieves_settle.mp hsettle
    exact ⟨first, rest, a, rfl, hx, hf⟩
  · rintro ⟨first, rest, a, rfl, hx, hf⟩
    refine ⟨first, rest, .ok a, rfl, hx, achieves_bind.mpr ⟨[], rest, a, rfl, ?_, hf⟩⟩
    exact achieves_settle.mpr ⟨rfl, rfl⟩

variable {command : String × List String}

lemma runCommand_returned {response : ExecResponse}
    {streamed : Bool} (h : Achieves (runCommand req command) talk (response, streamed)) :
    Returned talk response.exitCode := by
  unfold runCommand at h
  split_ifs at h
  · obtain ⟨first, rest, code, rfl, hfirst, hrest⟩ := achieves_answer.mp h
    obtain rfl := (achieves_await (a := .execStream _)).mp hfirst
    cases code with
    | some code =>
      obtain ⟨rfl, hresponse⟩ := achieves_pure.mp hrest
      cases hresponse
      exact ⟨_, .inl (.head _)⟩
    | none =>
    obtain ⟨second, rest', r, rfl, hsecond, hlast⟩ := achieves_answer.mp hrest
    obtain rfl := (achieves_await (a := .exec _)).mp hsecond
    obtain ⟨rfl, hresponse⟩ := achieves_pure.mp hlast
    cases hresponse
    exact ⟨_, .inr ⟨_, rfl, mem_append_right _ (.head _)⟩⟩
  · obtain ⟨first, rest, r, rfl, hfirst, hrest⟩ := achieves_answer.mp h
    obtain rfl := (achieves_await (a := .exec _)).mp hfirst
    obtain ⟨rfl, hresponse⟩ := achieves_pure.mp hrest
    cases hresponse
    exact ⟨_, .inr ⟨_, rfl, .head _⟩⟩

lemma syncTree_requested {cwd : String} {paths : List PathBuf}
    (h : Achieves (syncTree req) talk (cwd, paths)) : Requested req talk cwd paths := by
  unfold syncTree at h
  obtain ⟨first, rest, dir, rfl, -, h⟩ := achieves_answer.mp h
  obtain ⟨first', rest, archive, rfl, -, h⟩ := achieves_answer.mp h
  obtain ⟨first'', rest, -, rfl, -, h⟩ := achieves_answer.mp h
  split_ifs at h with hwrite
  · obtain ⟨asked, rest, tree, rfl, hasked, h⟩ := achieves_answer.mp h
    obtain ⟨rfl, hresult⟩ := achieves_pure.mp h
    cases hresult
    obtain rfl := (achieves_ask (a := .collectSyncPaths _)).mp hasked
    exact ⟨tree, rfl, by simp [hwrite]⟩
  · obtain ⟨none', rest, tree, rfl, htree, h⟩ := achieves_bind.mp h
    obtain ⟨rfl, rfl⟩ := achieves_pure.mp htree
    obtain ⟨rfl, hresult⟩ := achieves_pure.mp h
    cases hresult
    exact ⟨[], rfl, by simp [hwrite]⟩

/-! ## Guest files -/

variable {vm path : String} {limit : ℕ} {bytes : Bytes} {part : Talk} {buf : Bytes}
    {expected : Option (ℕ × Option ℕ)} {fuel : ℕ}

lemma readLoop_length (hbuf : buf.length ≤ limit)
    (h : Achieves (readLoop vm path limit fuel buf expected) talk (.read bytes)) :
    bytes.length ≤ limit := by
  induction fuel generalizing buf expected talk with
  | zero => cases (achieves_pure.mp h).2
  | succ fuel ih =>
  unfold readLoop at h
  obtain ⟨first, rest, outcome, rfl, -, hrest⟩ := achieves_answer.mp h
  cases outcome with
  | failed failure payloadTooLarge =>
    dsimp only at hrest
    split_ifs at hrest
    · obtain ⟨_, _, _, -, -, hlast⟩ := achieves_bind.mp hrest
      cases (achieves_pure.mp hlast).2
    · cases (achieves_pure.mp hrest).2
  | read body =>
  dsimp only at hrest
  split at hrest
  · cases (achieves_pure.mp hrest).2
  split at hrest
  · cases (achieves_pure.mp hrest).2
  rename_i hchunk
  have hlength : (buf ++ body.chunk).length ≤ limit := by
    rw [length_append]
    omega
  split at hrest
  · cases (achieves_pure.mp hrest).2
    exact hlength
  split at hrest
  · cases (achieves_pure.mp hrest).2
  split at hrest
  · cases (achieves_pure.mp hrest).2
    exact (length_take_le' _ _).trans hlength
  split at hrest
  · cases (achieves_pure.mp hrest).2
  · exact ih hlength hrest

lemma Fetched.mono (h : Fetched vm path limit part bytes) (hpart : part <:+: talk) :
    Fetched vm path limit talk bytes := by
  obtain ⟨read, hread, hbytes⟩ := h
  exact ⟨read, hread.trans hpart, hbytes⟩

lemma Returned.mono {code : ℤ} (h : Returned part code) (hpart : part <:+: talk) :
    Returned talk code := by
  obtain ⟨request, hstream | ⟨response, hcode, hexec⟩⟩ := h
  · exact ⟨request, .inl (hpart.subset hstream)⟩
  · exact ⟨request, .inr ⟨response, hcode, hpart.subset hexec⟩⟩

variable {name : String}

lemma Destroyed.mono (h : Destroyed name part) (hpart : part <:+: talk) : Destroyed name talk :=
  h.imp (hpart.subset ·) (hpart.subset ·)

def Ask.file? : Ask → Option String
  | .awaited (.readFile path _ _) => some path
  | _ => none

def Reads (path : String) (a : Ask) : Prop := a.file? = some path

lemma Fetched.reads (h : Fetched vm path limit talk bytes) : ∃ e ∈ talk, Reads path e.1 := by
  obtain ⟨part, hpart, hbytes⟩ := h
  unfold readGuestFileLimited readLoop at hbytes
  obtain ⟨first, rest, outcome, rfl, hfirst, -⟩ := achieves_answer.mp hbytes
  obtain rfl := (achieves_await (a := .readFile _ _ _)).mp hfirst
  exact ⟨_, hpart.subset (.head _), rfl⟩

def Spares {β : Type} (path : String) (x : Job β) : Prop := x.run.Uses fun a => ¬ Reads path a

section
variable {path : String} {α β : Type}

lemma Spares.bind {x : Job α} {f : α → Job β} (hx : Spares path x) (hf : ∀ a, Spares path (f a)) :
    Spares path (x >>= f) := Uses.run_bind hx hf

lemma spares_pure {b : β} : Spares path (pure b : Job β) := trivial

lemma spares_throw {e : Stop} : Spares path (throw e : Job β) := trivial

lemma spares_settle {r : Except Error α} : Spares path (settle r) := by
  cases r with
  | ok a => exact spares_pure
  | error e => exact spares_throw

lemma spares_await_of_ne (h : ¬ Reads path (.awaited a)) : Spares path (await a) := by
  refine ⟨h, fun r => ?_⟩
  cases r with
  | none => exact trivial
  | some answer => exact trivial

lemma not_reads {a : Ask} (h : a.file? = none) : ¬ Reads path a := by
  rw [Reads, h]
  exact nofun

lemma spares_await (h : (Ask.awaited a).file? = none) : Spares path (await a) :=
  spares_await_of_ne (not_reads h)

lemma spares_ask {a : Ask} (h : a.file? = none) : Spares path (ask a) :=
  ⟨not_reads h, fun _ => trivial⟩

lemma Spares.ite {c : Prop} [Decidable c] {x y : Job β} (hx : Spares path x)
    (hy : Spares path y) : Spares path (if c then x else y) := by
  split_ifs
  · exact hx
  · exact hy

lemma spares_explainOversizedRead {failure : ApiFailure} :
    Spares path (explainOversizedRead failure) := by
  refine (spares_await rfl).bind fun r => ?_
  match r with
  | .error (.api _) => exact spares_pure
  | .error (.daemonUnreachable _) => exact spares_throw
  | .error (.other _) => exact spares_throw
  | .ok version =>
    dsimp only
    split
    · exact spares_pure
    · exact spares_pure

lemma spares_readLoop {vm file : String} {limit : ℕ} (hfile : file ≠ path) :
    Spares path (readLoop vm file limit fuel buf expected) := by
  induction fuel generalizing buf expected with
  | zero => exact spares_pure
  | succ fuel ih =>
  refine (spares_await_of_ne (a := .readFile _ _ _) fun h => hfile (Option.some.inj h)).bind fun r =>
    spares_settle.bind fun outcome => ?_
  cases outcome with
  | failed failure payloadTooLarge =>
    exact .ite (spares_explainOversizedRead.bind fun _ => spares_pure) spares_pure
  | read body =>
  refine .ite spares_pure (.ite spares_pure ?_)
  split
  · exact spares_pure
  · split
    · exact spares_pure
    · exact .ite spares_pure (.ite spares_pure ih)

end

/-! ## Counting -/

section
variable {paths out : List PathBuf} {positions : List ℕ}

lemma parseUnmatchedManifest_lt {bytes : Bytes} {n i : ℕ}
    (h : i ∈ parseUnmatchedManifest lossy bytes n) : i < n := by
  simp only [parseUnmatchedManifest, mem_map, mem_filter, decide_eq_true_eq] at h
  omega

lemma length_filterMap_getElem? (hlt : ∀ i ∈ positions, i < paths.length) :
    (positions.filterMap (paths[·]?)).length = positions.length := by
  induction positions with
  | nil => rfl
  | cons i positions ih =>
    rw [forall_mem_cons] at hlt
    rw [filterMap_cons, getElem?_eq_getElem hlt.1]
    simpa using ih hlt.2

lemma classify_length (hlt : ∀ i ∈ positions, i < paths.length) :
    (classify lossy paths out positions).1.length + (classify lossy paths out positions).2.length =
      positions.length := by
  simp only [classify, length_map]
  rw [← length_eq_length_filter_add, length_filterMap_getElem? hlt]

/-- No path on the first side: none of the positions was named, and the second side has them all. -/
lemma classify_eq_nil (h : (classify lossy paths out positions).1 = []) :
    (∀ i ∈ positions, ¬ Named paths out i) ∧
      (classify lossy paths out positions).2 =
        (positions.filterMap (paths[·]?)).map (display lossy) := by
  simp only [classify, map_eq_nil_iff, filter_eq_nil_iff] at h
  constructor
  · rintro i hi ⟨p, hp, q, hq, hsame⟩
    exact h p (mem_filterMap.mpr ⟨i, hi, hp⟩) (any_eq_true.mpr ⟨q, hq, by simpa using hsame⟩)
  · simp only [classify]
    rw [filter_eq_self.mpr]
    intro p hp
    simpa using h p hp

/-- As many positions as there are: all of them exactly if none is repeated. -/
lemma forall_mem_iff_nodup {n : ℕ} (hlt : ∀ i ∈ positions, i < n) (hlength : positions.length = n) :
    (∀ i < n, i ∈ positions) ↔ positions.Nodup := by
  have hsub : positions ⊆ List.range n := fun i hi => mem_range.mpr (hlt i hi)
  constructor
  · intro hall
    have hrange : List.range n ⊆ positions := fun i hi => hall i (mem_range.mp hi)
    have hperm := (nodup_range.subperm hrange).perm_of_length_le (by simp [hlength])
    exact hperm.nodup_iff.mp nodup_range
  · intro hnodup i hi
    have hperm := (hnodup.subperm hsub).perm_of_length_le (by simp [hlength])
    exact hperm.mem_iff.mpr (mem_range.mpr hi)

end

/-! ## Results -/

/-- The retrieval found this manifest, and either counted it complete without asking for the archive
or extracted the archive. -/
structure Retrieved (lossy : Bytes → Text) (req : JobRequest) (cwd : String) (paths : List PathBuf)
    (talk : Talk) (r : Retrieval) (manifest : Bytes) : Prop where
  fetched : Fetched req.name syncManifestGuestPath (manifestLimit paths) talk manifest
  named : ∀ i ∈ parseUnmatchedManifest lossy manifest paths.length, ¬ Named paths req.out i
  unmatchedOut : r.unmatchedOut = []
  unmatchedWriteBack : r.unmatchedWriteBack =
    ((parseUnmatchedManifest lossy manifest paths.length).filterMap (paths[·]?)).map (display lossy)
  archive :
    if (parseUnmatchedManifest lossy manifest paths.length).length = paths.length then
      ∀ e ∈ talk, ¬ Reads syncOutputGuestPath e.1
    else Extracted req talk cwd

variable {cwd path : String} {r : Retrieval} {outcome : JobOutcome}

lemma Extracted.mono {part : Talk} (h : Extracted req part cwd)
    (hpart : part <:+: talk) : Extracted req talk cwd := by
  obtain ⟨archive, files, hfetched, hlength, hmem⟩ := h
  exact ⟨archive, files, hfetched.mono hpart, hlength, hpart.subset hmem⟩

lemma Retrieval.unmatchedOut_of_ok (h : r.failure = none) : r.unmatchedOut = [] := by
  by_contra hne
  unfold Retrieval.failure at h
  split at h
  · cases h
  · simp [hne] at h

lemma retrieveArchive_extracted {missing missingBack : List String}
    (h : Achieves (retrieveArchive req.name cwd req.outputLimits missing missingBack) talk r)
    (hok : r.failure = none) :
    Extracted req talk cwd ∧ r.unmatchedOut = missing ∧ r.unmatchedWriteBack = missingBack := by
  obtain ⟨part, rest, file, rfl, hpart, hrest⟩ := achieves_bind.mp h
  cases file with
  | failed failure =>
    obtain ⟨-, rfl⟩ := achieves_pure.mp hrest
    cases hok
  | read archive =>
  obtain ⟨first, rest, result, rfl, hfirst, hlast⟩ := achieves_bind.mp hrest
  obtain rfl := (achieves_await (a := .extract _ _ _)).mp hfirst
  match result with
  | .error e =>
    obtain ⟨-, rfl⟩ := achieves_pure.mp hlast
    cases hok
  | .ok files =>
    obtain ⟨-, rfl⟩ := achieves_pure.mp hlast
    refine ⟨⟨archive, files, ?_, ?_, by simp⟩, rfl, rfl⟩
    · exact ⟨part, prefix_append _ _ |>.isInfix, hpart⟩
    · exact readLoop_length (Nat.zero_le _) hpart

lemma retrieveOutputs_retrieved {paths : List PathBuf}
    (h : Achieves (retrieveOutputs lossy req.name cwd paths req.out req.outputLimits) talk r)
    (hok : r.failure = none) : ∃ manifest, Retrieved lossy req cwd paths talk r manifest := by
  obtain ⟨part, rest, file, rfl, hpart, hrest⟩ := achieves_bind.mp h
  cases file with
  | failed failure =>
    obtain ⟨-, rfl⟩ := achieves_pure.mp hrest
    cases hok
  | read manifest =>
  have hfetched : Fetched req.name syncManifestGuestPath (manifestLimit paths) (part ++ rest)
      manifest := ⟨part, (prefix_append _ _).isInfix, hpart⟩
  have hlt : ∀ i ∈ parseUnmatchedManifest lossy manifest paths.length, i < paths.length :=
    fun i hi => parseUnmatchedManifest_lt hi
  dsimp only at hrest
  rw [classify_length hlt] at hrest
  split_ifs at hrest with hall
  · obtain ⟨rfl, rfl⟩ := achieves_pure.mp hrest
    have hnil := Retrieval.unmatchedOut_of_ok hok
    obtain ⟨hnamed, hback⟩ := classify_eq_nil hnil
    refine ⟨manifest, hfetched, hnamed, hnil, hback, ?_⟩
    rw [if_pos hall, append_nil]
    exact of_uses hpart (spares_readLoop (by decide))
  · obtain ⟨hextracted, hout, hwrite⟩ := retrieveArchive_extracted hrest hok
    have hnil := Retrieval.unmatchedOut_of_ok hok
    obtain ⟨hnamed, hback⟩ := classify_eq_nil (hout ▸ hnil)
    refine ⟨manifest, hfetched, hnamed, hnil, hwrite.trans hback, ?_⟩
    rw [if_neg hall]
    exact hextracted.mono (suffix_append _ _).isInfix

/-! ## The job as a whole -/

lemma spares_createJobVm : Spares path (createJobVm req) := by
  refine (spares_await rfl).bind fun r => spares_settle.bind fun answer => ?_
  cases answer with
  | ok u => exact spares_pure
  | error failure => exact spares_throw

lemma spares_prepare : Spares path (prepare req) := by
  refine Spares.bind (.ite (spares_await (a := .health) rfl) spares_pure) fun _ => ?_
  refine (spares_await rfl).bind fun r => spares_settle.bind fun kind => ?_
  refine (spares_await rfl).bind fun r => spares_settle.bind fun up => ?_
  refine .ite ((spares_await rfl).bind fun r => spares_settle) ?_
  exact (spares_await rfl).bind fun _ => spares_throw

lemma spares_syncTree : Spares path (syncTree req) := by
  refine (spares_ask rfl).bind fun r => spares_settle.bind fun cwd => ?_
  refine (spares_ask rfl).bind fun r => spares_settle.bind fun archive => ?_
  refine (spares_await rfl).bind fun r => spares_settle.bind fun _ => ?_
  refine .ite ((spares_ask rfl).bind fun r => spares_settle.bind fun tree => spares_pure) ?_
  exact spares_pure.bind fun tree => spares_pure

lemma spares_runCommand : Spares path (runCommand req command) := by
  have hexec {request : ExecRequest} : Spares path (do
      return (← settle (← await (.exec request)), false) : Job (ExecResponse × Bool)) :=
    (spares_await rfl).bind fun r => spares_settle.bind fun _ => spares_pure
  refine .ite ((spares_await rfl).bind fun r => spares_settle.bind fun code => ?_) hexec
  cases code with
  | some code => exact spares_pure
  | none => exact hexec

/-- A job that was told to bring paths back ran the command and, if there were any, retrieved them. -/
lemma executeCreatedJob_sync (hsync : req.syncCwd = true)
    (h : Achieves (executeCreatedJob lossy req) talk outcome) :
    ∃ cwd paths first rest, talk = first ++ rest ∧ Requested req talk cwd paths ∧
      Returned talk outcome.exec.exitCode ∧ (∀ e ∈ first, ¬ Reads syncOutputGuestPath e.1) ∧
      (paths ≠ [] → ∃ r, outcome.retrieval = some r ∧
        Achieves (retrieveOutputs lossy req.name cwd paths req.out req.outputLimits) rest r) := by
  unfold executeCreatedJob at h
  rw [if_pos hsync] at h
  obtain ⟨before, rest, done, rfl, hprepare, hrest⟩ := achieves_bind.mp h
  obtain ⟨sync, rest', ⟨cwd, paths⟩, rfl, hsynced, hrest'⟩ := achieves_bind.mp hrest
  obtain ⟨command, rest'', ⟨exec, streamed⟩, rfl, hcommand, hlast⟩ := achieves_bind.mp hrest'
  refine ⟨cwd, paths, before ++ (sync ++ command), rest'', by simp, ?_, ?_, ?_, ?_⟩
  · obtain ⟨tree, rfl, htree⟩ := syncTree_requested hsynced
    refine ⟨tree, rfl, ?_⟩
    split_ifs at htree ⊢
    · simp [htree]
    · exact htree
  · have hexec : exec = outcome.exec := by
      split_ifs at hlast
      · obtain ⟨-, rfl⟩ := achieves_pure.mp hlast
        rfl
      · obtain ⟨_, _, r, -, -, hpure⟩ := achieves_bind.mp hlast
        obtain ⟨-, rfl⟩ := achieves_pure.mp hpure
        rfl
    rw [← hexec]
    refine (runCommand_returned hcommand).mono ?_
    exact ⟨before ++ sync, rest'', by simp⟩
  · intro e he
    rcases mem_append.mp he with he | he
    · exact of_uses hprepare spares_prepare e he
    rcases mem_append.mp he with he | he
    · exact of_uses hsynced spares_syncTree e he
    · exact of_uses hcommand spares_runCommand e he
  · intro hne
    dsimp only at hlast
    rw [if_neg hne] at hlast
    obtain ⟨part, rest, r, rfl, hretrieve, hpure⟩ := achieves_bind.mp hlast
    obtain ⟨rfl, rfl⟩ := achieves_pure.mp hpure
    rw [append_nil]
    exact ⟨r, rfl, hretrieve⟩

/-! ## Its end -/

variable {more : ℕ}

lemma cleanupLoop_destroyed (h : Yields (cleanupLoop name more) talk none) : Destroyed name talk := by
  induction more generalizing talk with
  | zero =>
    obtain ⟨answer, rest, rfl, hrest⟩ := yields_act.mp h
    match answer with
    | .ok .success => exact .inl (.head _)
    | .ok .notFound => exact .inr (.head _)
    | .ok (.refused failure) | .error e => cases (yields_ret.mp hrest).2
  | succ more ih =>
  obtain ⟨answer, rest, rfl, hrest⟩ := yields_act.mp h
  match answer with
  | .ok .success => exact .inl (.head _)
  | .ok .notFound => exact .inr (.head _)
  | .ok (.refused failure) => cases (yields_ret.mp hrest).2
  | .error e => exact (ih hrest).mono (suffix_cons _ _).isInfix

lemma uses_cleanupLoop : (cleanupLoop name more).Uses fun a => ¬ Reads path a := by
  induction more with
  | zero =>
    refine ⟨not_reads rfl, fun answer => ?_⟩
    match answer with
    | .ok .success | .ok .notFound | .ok (.refused _) | .error _ => exact trivial
  | succ more ih =>
  refine ⟨not_reads rfl, fun answer => ?_⟩
  match answer with
  | .ok .success | .ok .notFound | .ok (.refused _) => exact trivial
  | .error _ => exact ih

variable {termination : JobTermination}

lemma afterCleanup_success {failed : Option ApiFailure}
    (h : termination.afterCleanup failed = .success) : failed = none ∧ termination = .success := by
  cases failed with
  | none => exact ⟨rfl, h⟩
  | some failure =>
  cases termination with
  | success => cases h
  | exit code => cases h
  | failure failure' => cases h

lemma termination_success (h : outcome.termination = .success) :
    outcome.exec.exitCode = 0 ∧ outcome.retrieval.bind Retrieval.failure = none := by
  unfold JobOutcome.termination at h
  split_ifs at h with hcode
  split at h
  · cases h
  · exact ⟨not_not.mp hcode, by assumption⟩

/-- A job finishes well after a command that returned zero, without a failed retrieval, when the
machine is gone or kept and the result is shown. -/
lemma finishJob_success (h : Yields (finishJob req outcome) talk .success) :
    outcome.exec.exitCode = 0 ∧ outcome.retrieval.bind Retrieval.failure = none ∧
      (req.keep = false → Destroyed req.name talk) ∧
      ⟨Ask.render outcome none false, .ok ()⟩ ∈ talk ∧
      ∀ e ∈ talk, ¬ Reads syncOutputGuestPath e.1 := by
  obtain ⟨part, rest, failed, rfl, hpart, hrest⟩ := yields_bind.mp h
  obtain ⟨answer, rest, rfl, hlast⟩ := yields_act.mp hrest
  have hquiet : ∀ e ∈ part, ¬ Reads syncOutputGuestPath e.1 := by
    refine of_uses (A := fun a => ¬ Reads syncOutputGuestPath a) hpart ?_
    unfold cleanupUnlessKept
    exact .ite trivial uses_cleanupLoop
  match answer with
  | .error e => cases (yields_ret.mp hlast).2
  | .ok () =>
    obtain ⟨rfl, hsuccess⟩ := yields_ret.mp hlast
    obtain ⟨rfl, hdone⟩ := afterCleanup_success hsuccess.symm
    obtain ⟨hcode, hretrieval⟩ := termination_success hdone
    refine ⟨hcode, hretrieval, fun hkeep => ?_, ?_, ?_⟩
    · unfold cleanupUnlessKept at hpart
      rw [if_neg (by simp [hkeep])] at hpart
      exact (cleanupLoop_destroyed hpart).mono (prefix_append _ _).isInfix
    · rw [hdone, hretrieval]
      exact mem_append_right _ (.head _)
    · intro e he
      rcases mem_append.mp he with he | he
      · exact hquiet e he
      · obtain rfl := mem_singleton.mp he
        exact not_reads rfl

lemma runJob_success (h : Yields (runJob lossy req) talk .success) :
    ∃ first middle last outcome, talk = first ++ (middle ++ last) ∧
      (∀ e ∈ first, ¬ Reads syncOutputGuestPath e.1) ∧
      Achieves (executeCreatedJob lossy req) middle outcome ∧
      Yields (finishJob req outcome) last .success := by
  unfold runJob at h
  split at h
  · cases (yields_ret.mp h).2
  obtain ⟨first, rest, created, rfl, hcreate, hrest⟩ := yields_bind.mp h
  match created with
  | .error .interrupted | .error (.error e) => cases (yields_ret.mp hrest).2
  | .ok () =>
    obtain ⟨middle, last, executed, rfl, hexecute, hlast⟩ := yields_bind.mp hrest
    match executed with
    | .ok outcome =>
      exact ⟨first, middle, last, outcome, rfl, of_uses hcreate spares_createJobVm, hexecute, hlast⟩
    | .error stop =>
      obtain ⟨_, _, _, -, -, hstop⟩ := yields_bind.mp hlast
      cases stop with
      | interrupted => cases (yields_ret.mp hstop).2
      | error e => cases (yields_ret.mp hstop).2

lemma Retrieved.accounted_iff {paths : List PathBuf} {manifest : Bytes} {part : Talk}
    (h : Retrieved lossy req cwd paths part r manifest) (hpart : part <:+: talk)
    (hquiet : (∀ e ∈ part, ¬ Reads syncOutputGuestPath e.1) →
      ∀ e ∈ talk, ¬ Reads syncOutputGuestPath e.1) :
    ((∀ i < paths.length, i ∈ parseUnmatchedManifest lossy manifest paths.length) ∨
        Extracted req talk cwd) ↔
      ¬ Miscounted (parseUnmatchedManifest lossy manifest paths.length) paths := by
  have hlt : ∀ i ∈ parseUnmatchedManifest lossy manifest paths.length, i < paths.length :=
    fun i hi => parseUnmatchedManifest_lt hi
  have harchive := h.archive
  split_ifs at harchive with hlength
  · rw [forall_mem_iff_nodup hlt hlength, Miscounted, not_and_not_right]
    constructor
    · rintro (hnodup | ⟨archive, files, hfetched, -, -⟩)
      · exact fun _ => hnodup
      · obtain ⟨e, he, hreads⟩ := hfetched.reads
        exact absurd hreads (hquiet harchive e he)
    · exact fun hnodup => .inl (hnodup hlength)
  · exact ⟨fun _ hmis => hlength hmis.1, fun _ => .inr (harchive.mono hpart)⟩

/-- A job that asks for paths back and succeeds has been told that the command returned zero and
that the machine is gone; no path named with `--out` is missing and those shown as missing are the
ones the guest listed.  All paths are accounted for, by the list or by the archive, exactly if the
list does not make up the number of paths with a repeated position. -/
theorem success_is_accounted_iff (lossy : Bytes → Text) (req : JobRequest) (talk : Talk)
    (hback : req.out ≠ [] ∨ req.writeBack = true) (h : Yields (runJob lossy req) talk .success) :
    Returned talk 0 ∧ (req.keep = false → Destroyed req.name talk) ∧
      ∃ cwd paths, Requested req talk cwd paths ∧ (paths ≠ [] →
        ∃ manifest, Fetched req.name syncManifestGuestPath (manifestLimit paths) talk manifest ∧
          (∀ i ∈ parseUnmatchedManifest lossy manifest paths.length, ¬ Named paths req.out i) ∧
          (∃ outcome r, ⟨Ask.render outcome none false, .ok ()⟩ ∈ talk ∧
            outcome.retrieval = some r ∧ r.unmatchedOut = [] ∧ r.unmatchedWriteBack =
              ((parseUnmatchedManifest lossy manifest paths.length).filterMap (paths[·]?)).map
                (display lossy)) ∧
          (((∀ i < paths.length, i ∈ parseUnmatchedManifest lossy manifest paths.length) ∨
              Extracted req talk cwd) ↔
            ¬ Miscounted (parseUnmatchedManifest lossy manifest paths.length) paths)) := by
  have hsync : req.syncCwd = true := hback.elim req.out_sync req.writeBack_sync
  obtain ⟨first, middle, last, outcome, rfl, hfirst, hexecute, hfinish⟩ := runJob_success h
  obtain ⟨hcode, hretrieval, hdestroyed, hrender, hlast⟩ := finishJob_success hfinish
  obtain ⟨cwd, paths, before, rest, rfl, ⟨tree, rfl, htree⟩, hreturned, hbefore, hretrieve⟩ :=
    executeCreatedJob_sync hsync hexecute
  have hmiddle : before ++ rest <:+: first ++ (before ++ rest ++ last) := ⟨first, last, by simp⟩
  have hsuffix : last <:+: first ++ (before ++ rest ++ last) :=
    ⟨first ++ (before ++ rest), [], by simp⟩
  refine ⟨hcode ▸ hreturned.mono hmiddle, fun hkeep => (hdestroyed hkeep).mono hsuffix,
    cwd, _, ⟨tree, rfl, ?_⟩, fun hne => ?_⟩
  · split_ifs at htree ⊢
    · exact hmiddle.subset htree
    · exact htree
  obtain ⟨r, hr, hachieved⟩ := hretrieve hne
  rw [hr] at hretrieval
  obtain ⟨manifest, hretrieved⟩ := retrieveOutputs_retrieved hachieved hretrieval
  have hrest : rest <:+: first ++ (before ++ rest ++ last) := ⟨first ++ before, last, by simp⟩
  refine ⟨manifest, hretrieved.fetched.mono hrest, hretrieved.named,
    ⟨outcome, r, hsuffix.subset hrender, hr, hretrieved.unmatchedOut,
      hretrieved.unmatchedWriteBack⟩, ?_⟩
  refine hretrieved.accounted_iff hrest fun hquiet e he => ?_
  rcases mem_append.mp he with he | he
  · exact hfirst e he
  rcases mem_append.mp he with he | he
  · rcases mem_append.mp he with he | he
    · exact hbefore e he
    · exact hquiet e he
  · exact hlast e he

/-- `String::from_utf8_lossy` on ASCII. -/
def ascii (bytes : Bytes) : Text := bytes.map fun b => Char.ofNat b.toNat

def twoFiles : JobRequest where
  output := .json
  name := "box"
  keep := false
  timeout := 30
  dns := []
  addHost := []
  syncCwd := true
  writeBack := true
  out := []
  outputLimits := ⟨16, 64⟩
  command := ["make"]
  env := []
  secretEnv := fun _ => none
  out_sync := fun _ => rfl
  writeBack_sync := fun _ => rfl

/-- A daemon that carries everything out, and a guest with this list of missing paths. -/
def listing (manifest : Bytes) : (a : Ask) → a.Answer
  | .awaited .create => some (.ok (.ok ()))
  | .awaited .health => some ()
  | .awaited .vm => some (.ok .directKernel)
  | .awaited (.waitForVmReady _) => some (.ok true)
  | .awaited .bootDiagnosis => some ⟨none, ""⟩
  | .awaited (.applyDnsHosts _ _) => some (.ok ())
  | .awaited (.writeFile _ _) => some (.ok ())
  | .awaited (.execStream _) => some (.ok (some 0))
  | .awaited (.exec _) => some (.ok ⟨0, "", ""⟩)
  | .awaited (.readFile path _ _) =>
    let file := if path = syncManifestGuestPath then manifest else [31, 139]
    some (.ok (.read ⟨file, some file.length, none⟩))
  | .awaited .guestInfo => some (.ok 7)
  | .awaited (.extract _ _ _) => some (.ok ["b"])
  | .currentDir => .ok "/src"
  | .buildSyncArchive _ => .ok []
  | .collectSyncPaths _ => .ok [⟨[97]⟩, ⟨[98]⟩]
  | .delete _ => .ok .success
  | .render _ _ _ => .ok ()

def twoFilesTalk (manifest : Bytes) : Talk := ((runJob ascii twoFiles).converse (listing manifest)).1

lemma JobTermination.eq_success (h : termination.isSuccess = true) : termination = .success := by
  cases termination with
  | success => rfl
  | exit code => cases h
  | failure failure => cases h

lemma twoFilesTalk_success (manifest : Bytes)
    (h : ((runJob ascii twoFiles).converse (listing manifest)).2.isSuccess = true) :
    Yields (runJob ascii twoFiles) (twoFilesTalk manifest) .success := by
  have hyields := yields_converse (I := outside) (listing manifest) (runJob ascii twoFiles)
  rwa [JobTermination.eq_success h] at hyields

/-- The job succeeds after a list that names the first path and an archive with the second. -/
theorem listed_path_is_accounted :
    Returned (twoFilesTalk [49, 10]) 0 ∧ Destroyed "box" (twoFilesTalk [49, 10]) := by
  have hsuccess := twoFilesTalk_success [49, 10] (by decide +kernel)
  obtain ⟨hreturned, hdestroyed, -⟩ := success_is_accounted_iff ascii twoFiles _ (.inr rfl) hsuccess
  exact ⟨hreturned, hdestroyed rfl⟩

/-- A list that names the first of two paths twice: the job succeeds without the second one having
been listed and without an archive. -/
theorem repeated_position_hides_path :
    ∃ talk cwd paths manifest, Yields (runJob ascii twoFiles) talk .success ∧
      Requested twoFiles talk cwd paths ∧ paths.length = 2 ∧
      Fetched "box" syncManifestGuestPath (manifestLimit paths) talk manifest ∧
      1 ∉ parseUnmatchedManifest ascii manifest paths.length ∧
      ¬ Extracted twoFiles talk cwd := by
  refine ⟨twoFilesTalk [49, 10, 49, 10], "/src", retrievePaths [⟨[97]⟩, ⟨[98]⟩] [], [49, 10, 49, 10],
    twoFilesTalk_success _ (by decide +kernel), ⟨_, rfl, ?_⟩, by decide +kernel, ?_,
    by decide +kernel, ?_⟩
  · have hsplit : twoFilesTalk [49, 10, 49, 10] = (twoFilesTalk [49, 10, 49, 10]).take 7 ++
        ⟨Ask.collectSyncPaths "/src", .ok [⟨[97]⟩, ⟨[98]⟩]⟩ ::
          (twoFilesTalk [49, 10, 49, 10]).drop 8 := rfl
    rw [if_pos (show twoFiles.writeBack = true from rfl), hsplit]
    exact mem_append_right _ (.head _)
  · refine ⟨[⟨Ask.awaited (.readFile syncManifestGuestPath 0 43),
      some (.ok (.read ⟨[49, 10, 49, 10], some 4, none⟩))⟩], ?_, .act _ (.ret _)⟩
    exact ⟨(twoFilesTalk [49, 10, 49, 10]).take 9, (twoFilesTalk [49, 10, 49, 10]).drop 10, rfl⟩
  · have hquiet : ∀ e ∈ twoFilesTalk [49, 10, 49, 10], e.1.file? ≠ some syncOutputGuestPath := by
      decide +kernel
    rintro ⟨archive, files, hfetched, -, -⟩
    obtain ⟨e, he, hreads⟩ := hfetched.reads
    exact hquiet e he hreads

end Husker.Cli
