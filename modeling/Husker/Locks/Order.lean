import Husker.Relational.Waiting
import Husker.Service.Calls

/-! # Locks by name

The map has a weak reference for each name.  A mutex lives as long as a handle, a waiter or a guard
refers to it, and every access drops the entries of those that do not.
-/
namespace Husker.Locks
open Relational List

inductive Phase where
  | handle | waiting | guard
  deriving DecidableEq

/-- A strong reference: what `get` returned, or a wait or a guard made of it. -/
structure Holder (κ : Type) where
  key : κ
  mutex : ℕ
  phase : Phase

structure NamedLocks (κ : Type) where
  locks : κ → Option ℕ
  next : ℕ
  holders : List (Holder κ)

/-- `CreationLocks::lock` is `get` and then `wait`; a wait that is given up is a `drop`. -/
inductive Access (κ : Type) where
  | get (key : κ)
  | clone (i : ℕ)
  | wait (i : ℕ)
  | acquire (i : ℕ)
  | drop (i : ℕ)

namespace NamedLocks

variable {κ : Type} (s : NamedLocks κ)

def new (κ : Type) : NamedLocks κ := ⟨fun _ => none, 0, []⟩

def retained (key : κ) : Option ℕ := (s.locks key).filter fun m => s.holders.any (·.mutex = m)

/-- Each holder has its entry, and no two keys or guards share a mutex. -/
structure Sound : Prop where
  entered : ∀ h ∈ s.holders, s.locks h.key = some h.mutex
  apart : ∀ k k' m, s.locks k = some m → s.locks k' = some m → k = k'
  fresh : ∀ k m, s.locks k = some m → m < s.next
  guards : ∀ m, s.holders.countP (fun h => h.phase = .guard ∧ h.mutex = m) ≤ 1

variable {s} {s' : NamedLocks κ} {k : κ} {m i : ℕ} {x : Holder κ}

namespace Sound

lemma retained_eq_some (h : s.Sound) :
    s.retained k = some m ↔ s.locks k = some m ∧ ∃ x ∈ s.holders, x.key = k := by
  rw [retained, Option.filter_eq_some_iff, any_eq_true]
  refine and_congr_right fun hk => exists_congr fun x => and_congr_right fun hx => ?_
  have hentered := h.entered x hx
  have hapart := h.apart x.key k m
  grind

lemma retain (h : s.Sound) : Sound ⟨s.retained, s.next, s.holders⟩ where
  entered x hx := h.retained_eq_some.mpr ⟨h.entered x hx, x, hx, rfl⟩
  apart _ _ m hk hk' := h.apart _ _ m (h.retained_eq_some.mp hk).1 (h.retained_eq_some.mp hk').1
  fresh _ _ hk := h.fresh _ _ (h.retained_eq_some.mp hk).1
  guards := h.guards

lemma adds (h : s.Sound) (hx : s.locks x.key = some x.mutex) (hphase : x.phase = .handle) :
    Sound { s with holders := s.holders ++ [x] } where
  entered := forall_mem_append.mpr ⟨h.entered, forall_mem_singleton.mpr hx⟩
  apart := h.apart
  fresh := h.fresh
  guards m := by simpa [hphase] using h.guards m

/-- A holder goes on to another phase. -/
lemma goes {phase : Phase} (h : s.Sound) (hx : s.holders[i]? = some x)
    (hfree : phase = .guard → ∀ g ∈ s.holders, g.phase = .guard → g.mutex ≠ x.mutex) :
    Sound { s with holders := s.holders.set i { x with phase } } := by
  obtain ⟨hi, rfl⟩ := List.getElem?_eq_some_iff.mp hx
  refine ⟨fun y hy => ?_, h.apart, h.fresh, fun m => ?_⟩
  · rcases mem_or_eq_of_mem_set hy with hy | rfl
    · exact h.entered y hy
    · exact h.entered s.holders[i] (getElem_mem hi)
  · have hle := h.guards m
    rw [countP_set hi]
    by_cases hnew : phase = .guard ∧ s.holders[i].mutex = m
    · rw [countP_eq_zero.mpr (by grind)]
      simp [hnew]
    · simp only [decide_eq_true_eq, hnew, if_false]
      omega

end Sound

variable [DecidableEq κ]

def get (s : NamedLocks κ) (key : κ) : NamedLocks κ :=
  match s.retained key with
  | some m => ⟨s.retained, s.next, s.holders ++ [⟨key, m, .handle⟩]⟩
  | none => ⟨Function.update s.retained key (some s.next), s.next + 1,
      s.holders ++ [⟨key, s.next, .handle⟩]⟩

def step (s : NamedLocks κ) : Access κ → Option (NamedLocks κ)
  | .get key => some (s.get key)
  | .clone i => do
    let h ← s.holders[i]?
    if h.phase = .handle then some { s with holders := s.holders ++ [h] } else none
  | .wait i => do
    let h ← s.holders[i]?
    if h.phase = .handle then some { s with holders := s.holders.set i { h with phase := .waiting } }
    else none
  | .acquire i => do
    let h ← s.holders[i]?
    if h.phase = .waiting ∧ ∀ g ∈ s.holders, g.phase = .guard → g.mutex ≠ h.mutex then
      some { s with holders := s.holders.set i { h with phase := .guard } }
    else none
  | .drop i => some { s with holders := s.holders.eraseIdx i }

namespace Sound

lemma insert (h : s.Sound) (hnone : s.locks k = none) :
    Sound ⟨Function.update s.locks k (some s.next), s.next + 1, s.holders⟩ := by
  obtain ⟨hentered, hapart, hfresh, hguards⟩ := h
  refine ⟨?_, ?_, ?_, hguards⟩ <;> grind [Function.update_apply]

lemma get (h : s.Sound) (key : κ) : (s.get key).Sound := by
  unfold NamedLocks.get
  split
  case h_1 m hm => exact h.retain.adds hm rfl
  case h_2 hnone => exact (h.retain.insert hnone).adds (Function.update_self ..) rfl

lemma step {a : Access κ} (h : s.Sound) (hstep : s.step a = some s') : s'.Sound := by
  cases a with
  | get key =>
    cases hstep
    exact h.get key
  | drop i =>
    cases hstep
    refine ⟨fun x hx => h.entered x (mem_of_mem_eraseIdx hx), h.apart, h.fresh, fun m => ?_⟩
    exact (eraseIdx_sublist ..).countP_le.trans (h.guards m)
  | clone i | wait i | acquire i =>
    obtain ⟨x, hx, hstep⟩ := Option.bind_eq_some_iff.mp hstep
    obtain ⟨hphase, hstep⟩ := Option.ite_none_right_eq_some.mp hstep
    cases hstep
    first
    | exact h.adds (h.entered x (mem_of_getElem? hx)) hphase
    | exact h.goes hx fun _ => hphase.2
    | exact h.goes hx fun hguard => by cases hguard

end Sound

lemma get_locks (key : κ) : ((s.get key).locks k).isSome ↔ k = key ∨ (s.retained k).isSome := by
  unfold get
  split <;> grind [Function.update_apply]

end NamedLocks

def namedLocks (κ : Type) [DecidableEq κ] : Machine (NamedLocks κ) (Access κ) := .ofStep NamedLocks.step

theorem named_locks_exclude {κ : Type} [DecidableEq κ] {as : List (Access κ)} {s : NamedLocks κ}
    (hrun : (namedLocks κ).Run (.new κ) as s) :
    (∀ key, s.holders.countP (fun h => h.phase = .guard ∧ h.key = key) ≤ 1) ∧
    (∀ h ∈ s.holders, ∀ h' ∈ s.holders, h.key = h'.key → h.mutex = h'.mutex) ∧
    ∀ key k, ((s.get key).locks k).isSome ↔ k = key ∨ ∃ h ∈ s.holders, h.key = k := by
  have hsound : s.Sound := by
    apply hrun.invariant (I := NamedLocks.Sound) ⟨nofun, nofun, nofun, fun _ => Nat.zero_le 1⟩
    exact fun s a s' h hstep => h.step hstep
  have hentered := hsound.entered
  refine ⟨fun key => ?_, by grind, fun key k => ?_⟩
  · -- The guards of a key are all of the mutex in its entry.
    refine (countP_mono_left fun h hh => ?_).trans (hsound.guards ((s.locks key).getD 0))
    grind
  · rw [NamedLocks.get_locks, Option.isSome_iff_exists]
    simp only [hsound.retained_eq_some]
    grind

theorem second_handle_shares : ∃ s, (namedLocks String).Run (.new _) [.get "vm", .wait 0, .acquire 0,
      .get "gone", .drop 1, .get "vm"] s ∧
    ∀ h ∈ s.holders, ∀ h' ∈ s.holders, h.key = h'.key → h.mutex = h'.mutex :=
  have hrun := Machine.run_ofStep rfl
  ⟨_, hrun, (named_locks_exclude hrun).2.1⟩

/-- A waiter is held up by a guard of its own key, never by one of another. -/
theorem waiter_blocked_by_own_key {κ : Type} [DecidableEq κ] {as : List (Access κ)} {i : ℕ}
    {s : NamedLocks κ} {x : Holder κ} (hrun : (namedLocks κ).Run (.new κ) as s)
    (hx : s.holders[i]? = some x) (hwaits : x.phase = .waiting) :
    (s.step (.acquire i)).isSome ↔ ∀ g ∈ s.holders, g.phase = .guard → g.key ≠ x.key := by
  have hsound : s.Sound := hrun.invariant ⟨nofun, nofun, nofun, fun _ => Nat.zero_le 1⟩
    fun _ _ _ h hstep => h.step hstep
  have hentered := hsound.entered
  have hshared : ∀ g ∈ s.holders, g.mutex = x.mutex ↔ g.key = x.key := fun g hg => by
    have hapart := hsound.apart g.key x.key x.mutex
    grind
  simp only [NamedLocks.step, hx]
  grind

theorem other_key_goes_on : ∃ s, (namedLocks String).Run (.new _)
    [.get "a", .get "b", .wait 0, .acquire 0, .wait 1] s ∧ (s.step (.acquire 1)).isSome :=
  have hrun := Machine.run_ofStep rfl
  ⟨_, hrun, (waiter_blocked_by_own_key hrun rfl rfl).mpr (by decide)⟩

/-! # The order of the named locks

Every operation takes its locks one after another and gives them back once it has no more to take.
Job locks come before name locks and those before volume and image locks; a fork takes two name
locks, in the order its caller names them.
-/
open Relation

inductive Lock where
  | job (id : String)
  | name (name : String)
  | volume (name : String)
  | image (name : String)
  deriving DecidableEq

def Lock.rank : Lock → ℕ
  | .job _ => 0
  | .name _ => 1
  | .volume _ => 2
  | .image _ => 3

/-- A request, with what the operation finds in the store before it takes its locks. -/
inductive Operation where
  | forkVm (source fork : String)
  /-- `oci` is the catalog name of an image that creation has to import first. -/
  | createVm (name : String) (volume oci : Option String)
  | destroyVm (name : String)
  | suspendVm (name : String)
  | resumeVm (name : String)
  | stopVm (name : String)
  | pauseVm (name : String)
  | createVolume (name : String)
  | deleteVolume (name : String)
  | importImage (name : String)
  | deleteImage (name : String)
  | commitVmImage (vm image : String)
  /-- `job` is the one whose pending VM has the name of the lease. -/
  | recoverLease (job : Option String) (name : String)
  | createReservedJobVm (id : String)
  | launchPreparedJob (id : String)
  | observeJobOutput (id : String)
  | cleanupJobVm (id : String)
  deriving DecidableEq

def jobVmName (id : String) : String := s!"job-{id}"

open Service (CoreError validateResourceName)

/-- The locks an operation asks for, in this order, unless it refuses the names it is given. -/
def Operation.locks : Operation → Except CoreError (List Lock)
  | .forkVm source fork => do
    validateResourceName "vm" fork
    if source = fork then .error (.invalidArgument "fork name must differ from the source name")
    else return [.name source, .name fork]
  | .createVm name volume oci => do
    validateResourceName "vm" name
    return .name name :: ((volume.map .volume).toList ++ (oci.map .image).toList)
  | .destroyVm name | .suspendVm name | .resumeVm name | .stopVm name | .pauseVm name =>
    return [.name name]
  | .createVolume name => do
    validateResourceName "volume" name
    return [.volume name]
  | .deleteVolume name => return [.volume name]
  | .importImage name => do
    validateResourceName "image" name
    return [.image name]
  | .deleteImage name => return [.image name]
  | .commitVmImage vm image => do
    validateResourceName "image" image
    return [.name vm, .image image]
  | .recoverLease job name => return (job.map .job).toList ++ [.name name]
  | .createReservedJobVm id | .launchPreparedJob id | .cleanupJobVm id =>
    return [.job id, .name (jobVmName id)]
  | .observeJobOutput id => return [.name (jobVmName id)]

/-- Creation and fork run on tasks of their own; the others end with the request. -/
def Operation.runsToCompletion : Operation → Bool
  | .forkVm .. | .createVm .. => true
  | _ => false

inductive Place where
  | taking (rest : List Lock)
  | waiting (lock : Lock) (rest : List Lock)
  | leaving
  deriving DecidableEq

structure Call where
  operation : Operation
  held : List Lock
  place : Place
  deriving DecidableEq

structure State where
  owner : Lock → Option ℕ
  calls : Tasks ℕ Call

def init : State where
  owner _ := none
  calls _ := none

inductive Event where
  | start (t : ℕ) (operation : Operation)
  | ask (t : ℕ)
  | grant (t : ℕ)
  /-- The operation takes no more locks: it is past the last one, refused, or abandoned. -/
  | leave (t : ℕ)
  | giveBack (t : ℕ) (lock : Lock)

/-- The guard of the source of a fork passes to the backend, so guards go in any order. -/
def State.advance (s : State) (t : ℕ) (c : Call) : Event → Option State
  | .start .. => none
  | .ask _ =>
    match c.place with
    | .taking (l :: rest) => some { s with calls := s.calls.set t { c with place := .waiting l rest } }
    | _ => none
  | .grant _ =>
    match c.place with
    | .waiting l rest =>
      if s.owner l = none then some {
        owner := Function.update s.owner l (some t)
        calls := s.calls.set t { c with held := c.held ++ [l], place := .taking rest } }
      else none
    | _ => none
  | .leave _ =>
    match c.place with
    | .taking _ => some { s with calls := s.calls.set t { c with place := .leaving } }
    | .waiting .. =>
      if c.operation.runsToCompletion then none
      else some { s with calls := s.calls.set t { c with place := .leaving } }
    | .leaving => none
  | .giveBack _ l =>
    if c.place = .leaving ∧ l ∈ c.held then some {
      owner := Function.update s.owner l none
      calls := s.calls.set t { c with held := c.held.erase l } }
    else none

def Event.task : Event → ℕ
  | .start t _ | .ask t | .grant t | .leave t | .giveBack t _ => t

def step (s : State) (e : Event) : Option State :=
  match s.calls e.task, e with
  | none, .start t operation =>
    match operation.locks with
    | .ok rest => some { s with calls := s.calls.set t ⟨operation, [], .taking rest⟩ }
    | .error _ => some s
  | none, _ => none
  | some c, e => s.advance e.task c e

def interleaved : Machine State Event := .ofStep step

def State.holds (s : State) (t : ℕ) (l : Lock) : Prop := ∃ c, s.calls t = some c ∧ l ∈ c.held

def State.waits (s : State) (t : ℕ) (l : Lock) : Prop :=
  ∃ c rest, s.calls t = some c ∧ c.place = .waiting l rest

/-- Some operations wait in a cycle, each for a lock that the next one holds. -/
def State.Deadlocked (s : State) : Prop := Relational.Deadlocked s.holds s.waits

def State.Forking (s : State) (source fork : String) : Prop :=
  ∃ t c, s.calls t = some c ∧ c.operation = .forkVm source fork ∧ c.place ≠ .leaving

/-- A fork starts only if no chain of unfinished forks leads from its new name to its source. -/
def Ordered (s : State) (e : Event) : Prop :=
  ∀ t source fork, e = .start t (.forkVm source fork) → ¬ReflTransGen s.Forking fork source

/-! ## One call -/

def Operation.Links (operation : Operation) (k l : Lock) : Prop :=
  ∃ source fork, operation = .forkVm source fork ∧ k = .name source ∧ l = .name fork

variable {operation : Operation}

open Lock

lemma Operation.locks_climb {ls : List Lock} (h : operation.locks = .ok ls) :
    ls.Pairwise fun k l => k.rank < l.rank ∨ operation.Links k l := by
  cases operation with
  | forkVm source fork =>
    obtain ⟨-, -, h⟩ := bind_eq_ok.mp h
    split at h <;> cases h
    simp [Links]
  | createVm name volume oci =>
    obtain ⟨-, -, h⟩ := bind_eq_ok.mp h
    cases h
    cases volume <;> cases oci <;> simp [rank]
  | commitVmImage vm image =>
    obtain ⟨-, -, h⟩ := bind_eq_ok.mp h
    cases h
    simp [rank]
  | createVolume name | importImage name =>
    obtain ⟨-, -, h⟩ := bind_eq_ok.mp h
    cases h
    simp
  | recoverLease job name =>
    cases h
    cases job <;> simp [rank]
  | createReservedJobVm id | launchPreparedJob id | cleanupJobVm id =>
    cases h
    simp [rank]
  | destroyVm name | suspendVm name | resumeVm name | stopVm name | pauseVm name
  | deleteVolume name | deleteImage name | observeJobOutput id =>
    cases h
    simp

/-- What the call holds and what it still asks for are the locks of its operation. -/
def Call.Fits (c : Call) : Prop :=
  match c.place with
  | .taking rest => c.operation.locks = .ok (c.held ++ rest)
  | .waiting l rest => c.operation.locks = .ok (c.held ++ l :: rest)
  | .leaving => True

variable {rest : List Lock}

lemma Call.Fits.climbs {c : Call} {k l : Lock} (h : c.Fits)
    (hplace : c.place = .waiting l rest) (hk : k ∈ c.held) :
    k.rank < l.rank ∨ c.operation.Links k l := by
  have hlocks : c.operation.locks = .ok (c.held ++ l :: rest) := by
    simpa only [Fits, hplace] using h
  exact (pairwise_append.mp (Operation.locks_climb hlocks)).2.2 k hk l (.head _)

/-! ## All calls -/

structure State.Sound (s : State) : Prop where
  fits : s.calls.All Call.Fits
  acyclic : Acyclic s.Forking

lemma init_sound : init.Sound where
  fits := nofun
  acyclic := by
    intro a ha
    obtain ⟨b, hb, -⟩ := TransGen.head'_iff.mp ha
    obtain ⟨t, c, hc, -⟩ := hb
    cases hc

structure Call.Continues (c c' : Call) : Prop where
  operation : c'.operation = c.operation
  taking : c'.place ≠ .leaving → c.place ≠ .leaving
  fits : c.Fits → c'.Fits

lemma State.advance_continues {s s' : State} {t : ℕ} {c : Call} {e : Event}
    (h : s.advance t c e = some s') : ∃ c', s'.calls = s.calls.set t c' ∧ c.Continues c' := by
  cases e with
  | start => cases h
  | ask =>
    simp only [State.advance] at h
    split at h <;> cases h
    rename_i l rest hplace
    refine ⟨_, rfl, rfl, by simp [hplace], ?_⟩
    simp only [Call.Fits, hplace, imp_self]
  | grant =>
    simp only [State.advance] at h
    split at h
    · rename_i l rest hplace
      split at h <;> cases h
      refine ⟨_, rfl, rfl, by simp [hplace], ?_⟩
      simp only [Call.Fits, hplace, append_assoc, singleton_append, imp_self]
    · cases h
  | leave =>
    simp only [State.advance] at h
    split at h
    · cases h
      exact ⟨_, rfl, rfl, by simp, fun _ => trivial⟩
    · split at h <;> cases h
      exact ⟨_, rfl, rfl, by simp, fun _ => trivial⟩
    · cases h
  | giveBack _ l =>
    obtain ⟨⟨hplace, -⟩, h⟩ := Option.ite_none_right_eq_some.mp h
    cases h
    refine ⟨_, rfl, rfl, by simp, ?_⟩
    simp only [Call.Fits, hplace, imp_self]

namespace State.Sound

variable {s s' : State} {t : ℕ} {c : Call}

lemma start (hs : s.Sound)
    (hlocks : operation.locks = .ok rest) (hordered : Ordered s (.start t operation)) :
    State.Sound { s with calls := s.calls.set t ⟨operation, [], .taking rest⟩ } where
  fits := hs.fits.set hlocks
  acyclic := by
    -- The only new edge is that of the operation itself, if it is a fork.
    have hnew : ∀ {a b}, State.Forking { s with calls := s.calls.set t ⟨operation, [], .taking rest⟩ } a b →
        s.Forking a b ∨ operation = .forkVm a b := by
      rintro a b ⟨u, d, hd, hfork, hstage⟩
      rcases Tasks.set_eq_some hd with ⟨-, rfl⟩ | ⟨-, hd⟩
      · exact .inr hfork
      · exact .inl ⟨u, d, hd, hfork, hstage⟩
    by_cases hop : ∃ source fork, operation = .forkVm source fork
    · obtain ⟨source, fork, rfl⟩ := hop
      apply (hs.acyclic.insert (hordered t source fork rfl)).mono
      intro a b hab
      rcases hnew hab with hold | hsame
      · exact .inl hold
      · cases hsame
        exact .inr ⟨rfl, rfl⟩
    · apply hs.acyclic.mono
      intro a b hab
      rcases hnew hab with hold | hsame
      · exact hold
      · exact absurd ⟨a, b, hsame⟩ hop

lemma advance {e : Event} (hs : s.Sound) (hc : s.calls t = some c)
    (hstep : s.advance t c e = some s') : s'.Sound := by
  obtain ⟨c', hcalls, hnext⟩ := State.advance_continues hstep
  refine ⟨hcalls ▸ hs.fits.set (hnext.fits (hs.fits t c hc)), ?_⟩
  apply hs.acyclic.mono
  rintro a b ⟨u, d, hd, hfork, hplace⟩
  rw [hcalls] at hd
  rcases Tasks.set_eq_some hd with ⟨-, rfl⟩ | ⟨-, hd⟩
  · exact ⟨t, c, hc, hnext.operation ▸ hfork, hnext.taking hplace⟩
  · exact ⟨u, d, hd, hfork, hplace⟩

lemma step {e : Event} (hs : s.Sound) (hstep : Locks.step s e = some s') (ho : Ordered s e) :
    s'.Sound := by
  simp only [Locks.step] at hstep
  split at hstep
  · split at hstep <;> cases hstep
    · rename_i hlocks
      exact hs.start hlocks ho
    · exact hs
  · cases hstep
  · rename_i c hc
    exact hs.advance hc hstep

lemma before (hs : s.Sound) {k l : Lock} (hk : s.holds t k) (hl : s.waits t l) :
    k.rank < l.rank ∨ k.rank = l.rank ∧ ∃ a b, k = .name a ∧ l = .name b ∧ s.Forking a b := by
  obtain ⟨c, hc, hheld⟩ := hk
  obtain ⟨d, rest, hd, hplace⟩ := hl
  cases hc.symm.trans hd
  rcases (hs.fits t c hc).climbs hplace hheld with hlt | ⟨source, fork, hop, rfl, rfl⟩
  · exact .inl hlt
  · exact .inr ⟨rfl, source, fork, rfl, rfl, t, c, hc, hop, by simp [hplace]⟩

lemma not_deadlocked (hs : s.Sound) : ¬s.Deadlocked := by
  have hnames : Acyclic fun k l => ∃ a b, k = name a ∧ l = .name b ∧ s.Forking a b := by
    intro k hk
    have hchain : ∀ k l, TransGen (fun k l => ∃ a b, k = name a ∧ l = .name b ∧ s.Forking a b)
        k l → ∃ a b, k = .name a ∧ l = .name b ∧ TransGen s.Forking a b := by
      intro k l hkl
      induction hkl with
      | single hstep =>
        obtain ⟨a, b, rfl, rfl, hab⟩ := hstep
        exact ⟨a, b, rfl, rfl, .single hab⟩
      | tail _ hstep ih =>
      obtain ⟨a, b, rfl, rfl, hab⟩ := ih
      obtain ⟨b', d, hb, rfl, hbd⟩ := hstep
      cases hb
      exact ⟨a, d, rfl, rfl, hab.tail hbd⟩
    obtain ⟨a, b, rfl, hb, hab⟩ := hchain k k hk
    cases hb
    exact hs.acyclic a hab
  exact Relational.not_deadlocked (hnames.of_rank rank fun _ _ h => h)
    fun _ _ _ hk hl => hs.before hk hl

end State.Sound

/-! ## Forks along a ranking of the names -/

def Ranked (rank : String → ℕ) (_ : State) (e : Event) : Prop :=
  ∀ t source fork, e = .start t (.forkVm source fork) → rank source < rank fork

def State.Climbs (rank : String → ℕ) (s : State) : Prop :=
  s.calls.All fun c => ∀ source fork, c.operation = .forkVm source fork → rank source < rank fork

namespace State.Climbs

variable {rank : String → ℕ} {s s' : State} {e : Event}

lemma ordered (h : s.Climbs rank) (hranked : Ranked rank s e) : Ordered s e := by
  have hchain : ∀ a b, ReflTransGen s.Forking a b → rank a ≤ rank b := by
    intro a b hab
    induction hab with
    | refl => exact le_rfl
    | tail _ hstep ih =>
      obtain ⟨u, c, hc, hop, -⟩ := hstep
      exact ih.trans (h u c hc _ _ hop).le
  rintro t source fork rfl hback
  exact absurd (hchain fork source hback) (hranked t source fork rfl).not_ge

lemma step (h : s.Climbs rank) (hstep : Locks.step s e = some s') (hranked : Ranked rank s e) :
    s'.Climbs rank := by
  simp only [Locks.step] at hstep
  split at hstep
  · split at hstep <;> cases hstep
    · apply h.set
      intro source fork hop
      exact hranked _ source fork (congrArg _ hop)
    · exact h
  · cases hstep
  · rename_i c hc
    obtain ⟨c', hcalls, hnext⟩ := State.advance_continues hstep
    simp only [Climbs, hcalls]
    exact h.set fun source fork hfork => h _ c hc source fork (hnext.operation ▸ hfork)

end State.Climbs

lemma ordered_of_ranked {rank : String → ℕ} {s : State} {events : List Event}
    (hrun : (interleaved.when (Ranked rank)).Run init events s) :
    (interleaved.when Ordered).Run init events s := by
  apply hrun.weaken (I := State.Climbs rank) nofun
  rintro s e s' h ⟨hstep, hranked⟩
  exact ⟨h.step hstep hranked, h.ordered hranked⟩

def crossedForks : List Event :=
  [.start 1 (.forkVm "web" "db"), .start 2 (.forkVm "db" "web"),
    .ask 1, .grant 1, .ask 2, .grant 2, .ask 1, .ask 2]

/-- Forks of one template, a creation with a volume and the calls of a job. -/
def templateForks : List Event :=
  [.start 1 (.forkVm "base" "web"), .start 2 (.forkVm "base" "db"),
    .start 3 (.createVm "db" (some "data") (some "alpine")), .start 4 (.createReservedJobVm "7"),
    .start 5 (.recoverLease (some "7") "job-7"), .start 6 (.createVolume "data"),
    .ask 1, .grant 1, .ask 2, .ask 3, .grant 3, .ask 3, .ask 6, .grant 6,
    .ask 4, .grant 4, .ask 5, .ask 4, .grant 4, .ask 1, .grant 1]

end Husker.Locks
