import Husker.Relational.Inodes
import Husker.Relational.Machine
import Husker.Image.Pull

/-! # Pulling a set of images

A pull downloads every asset of a release to a file beside its destination, compares the digest of
what it received, and moves the files into place one by one once all of them are right.  Several
pulls may run at the same time; any of them may die.
-/
namespace Husker.Image.Install
open Relational List Option Function Inodes
set_option linter.unusedSectionVars false

structure Dest where
  dir : List Bytes
  file : Bytes
  deriving DecidableEq

abbrev Disk := Inodes Dest UInt8

/-- What a pull relies on: `String::from_utf8_lossy` and SHA-256. -/
structure Tools (D : Type) where
  lossy : Bytes → Bytes
  sha256 : Bytes → D

structure DownloadSpec (D : Type) where
  name : String
  url : String
  expectedSha256 : D
  dest : Dest
  deriving DecidableEq

variable {D : Type} [DecidableEq D] (tools : Tools D)

/-- The destination's name with `.part` after it. -/
def stagingPath (dest : Dest) : Dest :=
  { dest with file := tools.lossy dest.file ++ [46, 112, 97, 114, 116] }

inductive Phase (D : Type) where
  | staging (todo : List (DownloadSpec D))
  /-- The staging file is open and holds what was received, if nobody else writes to it. -/
  | writing (spec : DownloadSpec D) (todo : List (DownloadSpec D)) (inode : ℕ) (got : Bytes)
  /-- The download failed and its file is to be removed. -/
  | dropping (part : Dest)
  /-- The pull failed and these files are to be removed. -/
  | discarding (parts : List Dest)
  | installing (left : List (DownloadSpec D))
  /-- A file was moved and its directory is to be flushed. -/
  | flushing (left : List (DownloadSpec D))
  | installed
  | failed
  | dead
  deriving DecidableEq

structure Pull (D : Type) where
  specs : List (DownloadSpec D)
  staged : List Dest := []
  phase : Phase D
  before : Dest → Option Bytes

inductive Event where
  | ok
  | fail
  | noDir
  | chunk (bytes : Bytes)
  /-- The download fails after these bytes of the last piece were written. -/
  | torn (bytes : Bytes)
  deriving DecidableEq

def append (d : Disk) (inode : ℕ) (got bytes : Bytes) : Disk :=
  d.put inode (Inodes.writeAt 0 got.length bytes (d.data inode))

def Pull.next (p : Pull D) (d : Disk) (e : Event) : Option (Pull D × Disk) :=
  match p.phase, e with
  | .staging [], .ok => some ({ p with phase := .installing p.specs }, d)
  | .staging (_ :: _), .noDir => some ({ p with phase := .discarding p.staged }, d)
  | .staging (spec :: _), .fail =>
    some ({ p with phase := .dropping (stagingPath tools spec.dest) }, d)
  | .staging (spec :: todo), .ok =>
    let (d, inode) := d.create (stagingPath tools spec.dest)
    some ({ p with phase := .writing spec todo inode [] }, d)
  | .writing spec todo inode got, .chunk bytes =>
    some ({ p with phase := .writing spec todo inode (got ++ bytes) }, append d inode got bytes)
  | .writing spec _ inode got, .torn bytes =>
    some ({ p with phase := .dropping (stagingPath tools spec.dest) }, append d inode got bytes)
  | .writing spec todo _ got, .ok =>
    if tools.sha256 got = spec.expectedSha256 then
      some ({ p with staged := p.staged ++ [stagingPath tools spec.dest], phase := .staging todo }, d)
    else some ({ p with phase := .dropping (stagingPath tools spec.dest) }, d)
  | .dropping part, .ok => some ({ p with phase := .discarding p.staged }, d.remove part)
  | .dropping _, .fail => some ({ p with phase := .discarding p.staged }, d)
  | .discarding (part :: parts), .ok => some ({ p with phase := .discarding parts }, d.remove part)
  | .discarding (_ :: parts), .fail => some ({ p with phase := .discarding parts }, d)
  | .discarding [], .ok => some ({ p with phase := .failed }, d)
  | .installing (spec :: left), .ok =>
    match d.rename (stagingPath tools spec.dest) spec.dest with
    | some d => some ({ p with phase := .flushing left }, d)
    | none => some ({ p with phase := .discarding p.staged }, d)
  | .installing (_ :: _), .fail => some ({ p with phase := .discarding p.staged }, d)
  | .installing [], .ok => some ({ p with phase := .installed }, d)
  | .flushing left, .ok => some ({ p with phase := .installing left }, d)
  | .flushing _, .fail => some ({ p with phase := .discarding p.staged }, d)
  | _, _ => none

def Phase.over : Phase D → Bool
  | .installed | .failed | .dead => true
  | _ => false

structure State (D : Type) where
  disk : Disk
  pulls : List (ℕ × Pull D) := []
  wanted : List (DownloadSpec D) := []

inductive Action (D : Type) where
  | start (i : ℕ) (specs : List (DownloadSpec D))
  | next (i : ℕ) (e : Event)
  /-- The process dies; a file it was writing then holds these bytes. -/
  | die (i : ℕ) (bytes : Bytes)
  | forget (i : ℕ)

namespace State
variable (s : State D)

def pull? (i : ℕ) : Option (Pull D) := (s.pulls.find? (·.1 = i)).map (·.2)

def setPull (i : ℕ) (p : Pull D) (disk : Disk) : State D :=
  { s with disk, pulls := s.pulls.map fun e => if e.1 = i then (i, p) else e }

def lose (p : Pull D) (bytes : Bytes) : Disk :=
  match p.phase with
  | .writing _ _ inode _ => s.disk.put inode bytes
  | _ => s.disk

def step : Action D → Option (State D)
  | .start i specs =>
    if s.pull? i = none ∧ (specs.map (·.dest)).Nodup then
      some { s with
        pulls := (i, ⟨specs, [], .staging specs, s.disk.content⟩) :: s.pulls
        wanted := s.wanted ++ specs }
    else none
  | .next i e =>
    (s.pull? i).bind fun p => (p.next tools s.disk e).map fun r => s.setPull i r.1 r.2
  | .die i bytes =>
    (s.pull? i).bind fun p =>
      if p.phase.over then none else some (s.setPull i { p with phase := .dead } (s.lose p bytes))
  | .forget i =>
    (s.pull? i).bind fun p =>
      if p.phase.over then some { s with pulls := s.pulls.filter (·.1 ≠ i) } else none

end State

def pulling : Machine (State D) (Action D) := .ofStep (State.step tools)

/-! ## One pull at a time -/

variable {tools} {targets : List Dest} {p : Pull D} {d d' : Disk}

/-- The files beside the targets are apart from each other and from the targets. -/
structure Apart (tools : Tools D) (targets : List Dest) : Prop where
  ne : ∀ a ∈ targets, ∀ b ∈ targets, stagingPath tools a ≠ b
  inj : ∀ a ∈ targets, ∀ b ∈ targets, stagingPath tools a = stagingPath tools b → a = b

def Holds (tools : Tools D) (d : Disk) (path : Dest) (spec : DownloadSpec D) : Prop :=
  ∃ bytes, d.content path = some bytes ∧ tools.sha256 bytes = spec.expectedSha256

def Ready (tools : Tools D) (d : Disk) (spec : DownloadSpec D) : Prop :=
  Holds tools d (stagingPath tools spec.dest) spec

def Unchanged (targets : List Dest) (p : Pull D) (d : Disk) : Prop :=
  ∀ t ∈ targets, d.content t = p.before t

structure Between (tools : Tools D) (targets : List Dest) (p : Pull D) (d : Disk)
    (done left : List (DownloadSpec D)) : Prop where
  specs : p.specs = done ++ left
  moved : ∀ spec ∈ done, Holds tools d spec.dest spec
  ready : ∀ spec ∈ left, Ready tools d spec
  same : ∀ t ∈ targets, (∀ spec ∈ done, spec.dest ≠ t) → d.content t = p.before t

def Stands (tools : Tools D) (targets : List Dest) (p : Pull D) (d : Disk) : Prop :=
  match p.phase with
  | .staging todo =>
    Unchanged targets p d ∧ ∃ done, p.specs = done ++ todo ∧ ∀ spec ∈ done, Ready tools d spec
  | .writing spec todo inode got =>
    Unchanged targets p d ∧ d.name (stagingPath tools spec.dest) = some inode ∧ d.data inode = got ∧
      ∃ done, p.specs = done ++ spec :: todo ∧ ∀ spec ∈ done, Ready tools d spec
  | .dropping part => Unchanged targets p d ∧ ∃ t ∈ targets, part = stagingPath tools t
  | .discarding parts =>
    Unchanged targets p d ∧ ∀ part ∈ parts, ∃ t ∈ targets, part = stagingPath tools t
  | .installing left | .flushing left => ∃ done, Between tools targets p d done left
  | .installed => ∃ done, Between tools targets p d done []
  | .failed | .dead => Unchanged targets p d

structure Orderly (tools : Tools D) (targets : List Dest) (p : Pull D) (d : Disk) : Prop where
  dests : ∀ spec ∈ p.specs, spec.dest ∈ targets
  nodup : (p.specs.map (·.dest)).Nodup
  staged : ∀ part ∈ p.staged, ∃ t ∈ targets, part = stagingPath tools t
  stands : Stands tools targets p d

def Pull.committed (p : Pull D) : Bool :=
  match p.phase with
  | .installing left => left.length < p.specs.length
  | .flushing _ => true
  | _ => false

/-! ## Other names -/

variable {spec : DownloadSpec D} {x : Option Bytes} {t : Dest} {done left : List (DownloadSpec D)}
    {q : Pull D} {path : Dest}

lemma Holds.update {other : Dest} (h : Holds tools d path spec)
    (hd : d'.content = update d.content other x)
    (hne : path ≠ other) : Holds tools d' path spec := by
  obtain ⟨bytes, hbytes, hsha⟩ := h
  exact ⟨bytes, by rw [hd, update_of_ne hne, hbytes], hsha⟩

lemma Unchanged.update (h : Unchanged targets p d) (hapart : Apart tools targets) (ht : t ∈ targets)
    (hd : d'.content = update d.content (stagingPath tools t) x) : Unchanged targets p d' := by
  intro a ha
  rw [hd, update_of_ne (hapart.ne t ht a ha).symm, h a ha]

lemma ready_update {todo : List (DownloadSpec D)} (h : ∀ spec ∈ done, Ready tools d spec)
    (hapart : Apart tools targets) (hp : Orderly tools targets p d)
    (hspecs : p.specs = done ++ spec :: todo)
    (hd : d'.content = update d.content (stagingPath tools spec.dest) x) :
    ∀ spec ∈ done, Ready tools d' spec := by
  intro other hother
  refine (h other hother).update hd fun heq => ?_
  have hmem : other ∈ p.specs := by simp [hspecs, hother]
  have hspec : spec ∈ p.specs := by simp [hspecs]
  have hdest := hapart.inj _ (hp.dests other hmem) _ (hp.dests spec hspec) heq
  have hnodup := hp.nodup
  rw [hspecs, map_append, map_cons] at hnodup
  exact (nodup_append.mp hnodup).2.2 _ (List.mem_map_of_mem hother) _ (.head _) hdest

lemma Between.unchanged (h : Between tools targets p d [] left) : Unchanged targets p d :=
  fun t ht => h.same t ht (by simp)

lemma Between.phase {phase : Phase D}
    (h : Between tools targets p d done left) : Between tools targets { p with phase } d done left :=
  ⟨h.specs, h.moved, h.ready, h.same⟩

lemma Between.rename (h : Between tools targets p d done (spec :: left))
    (hapart : Apart tools targets) (hp : Orderly tools targets p d)
    (hd : d.rename (stagingPath tools spec.dest) spec.dest = some d') :
    Between tools targets p d' (done ++ [spec]) left := by
  have hcontent := content_rename hd
  have hspec : spec ∈ p.specs := by simp [h.specs]
  have htarget := hp.dests spec hspec
  have hnodup := hp.nodup
  rw [h.specs, map_append, map_cons, nodup_append, nodup_cons] at hnodup
  obtain ⟨-, ⟨hleft, -⟩, hdone⟩ := hnodup
  have hstay {path : Dest} (hne : path ≠ spec.dest) (hne' : path ≠ stagingPath tools spec.dest) :
      d'.content path = d.content path := by
    rw [hcontent, update_of_ne hne, update_of_ne hne']
  refine ⟨by rw [h.specs]; simp, ?_, ?_, ?_⟩
  · intro other hother
    rcases mem_append.mp hother with hother | hother
    · obtain ⟨bytes, hbytes, hsha⟩ := h.moved other hother
      have hmem : other ∈ p.specs := by simp [h.specs, hother]
      refine ⟨bytes, ?_, hsha⟩
      rw [hstay ?_ (hapart.ne _ htarget _ (hp.dests other hmem)).symm, hbytes]
      exact hdone _ (List.mem_map_of_mem hother) _ (.head _)
    · obtain rfl := mem_singleton.mp hother
      obtain ⟨bytes, hbytes, hsha⟩ := h.ready other (.head _)
      exact ⟨bytes, by rw [hcontent, update_self, hbytes], hsha⟩
  · intro other hother
    obtain ⟨bytes, hbytes, hsha⟩ := h.ready other (.tail _ hother)
    have hmem : other ∈ p.specs := by simp [h.specs, hother]
    refine ⟨bytes, ?_, hsha⟩
    rw [hstay (hapart.ne _ (hp.dests other hmem) _ htarget) fun heq => ?_, hbytes]
    have hdest := hapart.inj _ (hp.dests other hmem) _ htarget heq
    exact hleft (hdest ▸ List.mem_map_of_mem hother)
  · intro t ht hother
    rw [hstay (hother spec (by simp)).symm (hapart.ne _ htarget t ht).symm]
    exact h.same t ht fun other hmem => hother other (by simp [hmem])

/-! ## Steps of a pull -/

lemma Orderly.mk' {phase : Phase D} (h : Orderly tools targets p d)
    (hstands : Stands tools targets { p with phase } d') :
    Orderly tools targets { p with phase } d' := ⟨h.dests, h.nodup, h.staged, hstands⟩

lemma content_append {inode : ℕ} {got : Bytes} (hname : d.name path = some inode)
    (hdata : d.data inode = got) (bytes : Bytes) :
    (append d inode got bytes).content = update d.content path (some (got ++ bytes)) := by
  unfold append
  rw [hdata, writeAt_length, content_put hname]

variable {e : Event} {p' : Pull D}

lemma Pull.next_orderly (hapart : Apart tools targets)
    (h : Orderly tools targets p d) (hcommitted : p.committed = true → e = .ok)
    (hnext : p.next tools d e = some (p', d')) : Orderly tools targets p' d' := by
  have hstands := h.stands
  unfold Stands at hstands
  unfold Pull.committed at hcommitted
  unfold Pull.next at hnext
  split at hnext
  on_goal 18 => cases hnext
  all_goals rename_i hphase
  all_goals simp only [hphase] at hstands hcommitted
  -- Every asset is staged.
  · cases hnext
    obtain ⟨hsame, done, hspecs, hready⟩ := hstands
    rw [append_nil] at hspecs
    exact h.mk' ⟨[], rfl, by simp, hspecs ▸ hready, fun t ht _ => hsame t ht⟩
  -- There is no directory for the next one, or it cannot be fetched.
  · cases hnext
    exact h.mk' ⟨hstands.1, h.staged⟩
  · cases hnext
    obtain ⟨hsame, done, hspecs, -⟩ := hstands
    exact h.mk' ⟨hsame, _, h.dests _ (by simp [hspecs]), rfl⟩
  -- Its file is opened.
  · rename_i spec todo
    cases hnext
    obtain ⟨hsame, done, hspecs, hready⟩ := hstands
    have hcreate : (d.create (stagingPath tools spec.dest)).1.content = _ := content_create
    exact h.mk' ⟨hsame.update hapart (h.dests spec (by simp [hspecs])) hcreate, name_create,
      data_create, done, hspecs, ready_update hready hapart h hspecs hcreate⟩
  -- A piece is written, whole or in part.
  · rename_i spec todo inode got bytes
    cases hnext
    obtain ⟨hsame, hname, hdata, done, hspecs, hready⟩ := hstands
    have happend := content_append hname hdata bytes
    refine h.mk' ⟨hsame.update hapart (h.dests spec (by simp [hspecs])) happend, hname, ?_, done,
      hspecs, ready_update hready hapart h hspecs happend⟩
    simp [append, Inodes.put, ← hdata]
  · rename_i spec todo inode got bytes
    cases hnext
    obtain ⟨hsame, hname, hdata, done, hspecs, -⟩ := hstands
    have hspec := h.dests spec (by simp [hspecs])
    exact h.mk' ⟨hsame.update hapart hspec (content_append hname hdata bytes), _, hspec, rfl⟩
  -- The asset is complete; its digest is compared.
  · rename_i spec todo inode got
    obtain ⟨hsame, hname, hdata, done, hspecs, hready⟩ := hstands
    have hspec := h.dests spec (by simp [hspecs])
    split_ifs at hnext with hsha <;> cases hnext
    · refine ⟨h.dests, h.nodup, ?_, hsame, done ++ [spec], by simp [hspecs], ?_⟩
      · intro part hpart
        rcases mem_append.mp hpart with hpart | hpart
        · exact h.staged part hpart
        · exact ⟨spec.dest, hspec, mem_singleton.mp hpart⟩
      · intro other hother
        rcases mem_append.mp hother with hother | hother
        · exact hready other hother
        · obtain rfl := mem_singleton.mp hother
          exact ⟨got, by rw [content, hname, map_some, hdata], hsha⟩
    · exact h.mk' ⟨hsame, _, hspec, rfl⟩
  -- Files beside the targets are removed.
  · cases hnext
    obtain ⟨hsame, t, ht, rfl⟩ := hstands
    exact h.mk' ⟨hsame.update hapart ht content_remove, h.staged⟩
  · cases hnext
    exact h.mk' ⟨hstands.1, h.staged⟩
  · cases hnext
    obtain ⟨hsame, hparts⟩ := hstands
    obtain ⟨t, ht, rfl⟩ := hparts _ (.head _)
    exact h.mk' ⟨hsame.update hapart ht content_remove,
      fun part hpart => hparts part (.tail _ hpart)⟩
  · cases hnext
    exact h.mk' ⟨hstands.1, fun part hpart => hstands.2 part (.tail _ hpart)⟩
  · cases hnext
    exact h.mk' hstands.1
  -- The next file is moved; it is there.
  · rename_i spec left
    obtain ⟨done, hbetween⟩ := hstands
    obtain ⟨bytes, hbytes, -⟩ := hbetween.ready spec (.head _)
    split at hnext
    · rename_i moved hmoved
      cases hnext
      exact h.mk' ⟨_, (hbetween.rename hapart h hmoved).phase⟩
    · rename_i hmissing
      obtain ⟨moved, hmoved⟩ := rename_isSome (q := spec.dest) (by rw [hbytes]; simp)
      rw [hmissing] at hmoved
      cases hmoved
  -- A failure to move the first file leaves everything as it was.
  · cases hnext
    obtain ⟨done, hbetween⟩ := hstands
    cases done with
    | nil => exact h.mk' ⟨hbetween.unchanged, h.staged⟩
    | cons first done =>
      have hlength : (p.specs).length = _ := congrArg List.length hbetween.specs
      simp only [length_append, length_cons] at hlength hcommitted
      cases hcommitted (by simp [hlength])
  · cases hnext
    obtain ⟨done, hbetween⟩ := hstands
    exact h.mk' ⟨done, hbetween.phase⟩
  -- The directory is flushed.
  · cases hnext
    obtain ⟨done, hbetween⟩ := hstands
    exact h.mk' ⟨done, hbetween.phase⟩
  · cases hcommitted trivial

/-! ## Runs -/

/-- Pulls of the targets do not overlap, and once a pull has moved a file it neither fails nor dies
until it returns. -/
def Careful (targets : List Dest) (s : State D) : Action D → Prop
  | .start _ specs => s.pulls = [] ∧ ∀ spec ∈ specs, spec.dest ∈ targets
  | .next i e => ∀ p, s.pull? i = some p → p.committed = true → e = .ok
  | .die i _ => ∀ p, s.pull? i = some p → p.committed = false
  | .forget _ => True

/-- The target holds what it held, or an asset that some pull wanted there. -/
def Genuine (tools : Tools D) (d₀ : Disk) (s : State D) (t : Dest) : Prop :=
  s.disk.content t = d₀.content t ∨ ∃ spec ∈ s.wanted, spec.dest = t ∧ Holds tools s.disk t spec

structure Whole (tools : Tools D) (targets : List Dest) (d₀ : Disk) (s : State D) : Prop where
  genuine : ∀ t ∈ targets, Genuine tools d₀ s t
  installed : ∀ e ∈ s.pulls, e.2.phase = .installed →
    ∀ spec ∈ e.2.specs, Holds tools s.disk spec.dest spec
  unchanged : ∀ e ∈ s.pulls, e.2.phase = .failed ∨ e.2.phase = .dead →
    ∀ spec ∈ e.2.specs, s.disk.content spec.dest = e.2.before spec.dest

/-- The name held what it held at first, or an asset that some pull wanted there. -/
def Was (tools : Tools D) (d₀ : Disk) (s : State D) (p : Pull D) (t : Dest) : Prop :=
  p.before t = d₀.content t ∨ ∃ spec ∈ s.wanted, spec.dest = t ∧
    ∃ bytes, p.before t = some bytes ∧ tools.sha256 bytes = spec.expectedSha256

inductive Steady (tools : Tools D) (targets : List Dest) (d₀ : Disk) (s : State D) : Prop
  | idle (hpulls : s.pulls = []) (hgenuine : ∀ t ∈ targets, Genuine tools d₀ s t)
  | busy (i : ℕ) (p : Pull D) (hpulls : s.pulls = [(i, p)]) (horderly : Orderly tools targets p s.disk)
      (hwanted : ∀ spec ∈ p.specs, spec ∈ s.wanted) (hwas : ∀ t ∈ targets, Was tools d₀ s p t)

variable {s s' : State D} {d₀ : Disk} {i j : ℕ}

lemma Orderly.target (h : Orderly tools targets p d) (ht : t ∈ targets) :
    d.content t = p.before t ∨ ∃ spec ∈ p.specs, spec.dest = t ∧ Holds tools d t spec := by
  have hbetween {done left : List (DownloadSpec D)} (hb : Between tools targets p d done left) :
      d.content t = p.before t ∨ ∃ spec ∈ p.specs, spec.dest = t ∧ Holds tools d t spec := by
    by_cases hmoved : ∃ spec ∈ done, spec.dest = t
    · obtain ⟨spec, hspec, rfl⟩ := hmoved
      exact .inr ⟨spec, by simp [hb.specs, hspec], rfl, hb.moved spec hspec⟩
    · exact .inl (hb.same t ht fun spec hspec heq => hmoved ⟨spec, hspec, heq⟩)
  have hstands := h.stands
  unfold Stands at hstands
  split at hstands
  · exact .inl (hstands.1 t ht)
  · exact .inl (hstands.1 t ht)
  · exact .inl (hstands.1 t ht)
  · exact .inl (hstands.1 t ht)
  · obtain ⟨done, hb⟩ := hstands
    exact hbetween hb
  · obtain ⟨done, hb⟩ := hstands
    exact hbetween hb
  · obtain ⟨done, hb⟩ := hstands
    exact hbetween hb
  · exact .inl (hstands t ht)
  · exact .inl (hstands t ht)

section
variable (h : Steady tools targets d₀ s)
include h

lemma Steady.genuine (ht : t ∈ targets) : Genuine tools d₀ s t := by
  cases h with
  | idle _ hgenuine => exact hgenuine t ht
  | busy i p _ horderly hwanted hwas =>
  rcases horderly.target ht with hsame | ⟨spec, hspec, hdest, hholds⟩
  · rcases hwas t ht with hfirst | ⟨spec, hspec, hdest, bytes, hbytes, hsha⟩
    · exact .inl (hsame.trans hfirst)
    · exact .inr ⟨spec, hspec, hdest, bytes, hsame.trans hbytes, hsha⟩
  · exact .inr ⟨spec, hwanted spec hspec, hdest, hholds⟩

lemma Steady.orderly {e : ℕ × Pull D} (he : e ∈ s.pulls) : Orderly tools targets e.2 s.disk := by
  cases h with
  | idle hpulls => simp [hpulls] at he
  | busy i p hpulls horderly =>
    rw [hpulls, mem_singleton] at he
    rwa [he]

lemma Steady.whole : Whole tools targets d₀ s := by
  refine ⟨fun t ht => h.genuine ht, fun e he hphase spec hspec => ?_,
    fun e he hphase spec hspec => ?_⟩
  · have hstands := (h.orderly he).stands
    simp only [Stands, hphase] at hstands
    obtain ⟨done, hb⟩ := hstands
    exact hb.moved spec (by simpa [hb.specs] using hspec)
  have hstands := (h.orderly he).stands
  have hdest := (h.orderly he).dests spec hspec
  rcases hphase with hphase | hphase
  · simp only [Stands, hphase] at hstands
    exact hstands _ hdest
  · simp only [Stands, hphase] at hstands
    exact hstands _ hdest

end

/-! ## Steps -/

lemma pull?_singleton (hpulls : s.pulls = [(i, p)]) (h : s.pull? j = some q) : j = i ∧ q = p := by
  unfold State.pull? at h
  rw [hpulls] at h
  by_cases hij : i = j
  · simp [hij] at h
    exact ⟨hij.symm, h.symm⟩
  · simp [hij] at h

lemma pulls_setPull (hpulls : s.pulls = [(i, p)]) : (s.setPull i q d).pulls = [(i, q)] := by
  simp [State.setPull, hpulls]

lemma Steady.pull? (h : Steady tools targets d₀ s) (hq : s.pull? i = some q) :
    s.pulls = [(i, q)] ∧ Orderly tools targets q s.disk ∧ (∀ spec ∈ q.specs, spec ∈ s.wanted) ∧
      ∀ t ∈ targets, Was tools d₀ s q t := by
  cases h with
  | idle hpulls => simp [State.pull?, hpulls] at hq
  | busy j p hpulls horderly hwanted hwas =>
    obtain ⟨rfl, rfl⟩ := pull?_singleton hpulls hq
    exact ⟨hpulls, horderly, hwanted, hwas⟩

lemma Pull.next_same (h : p.next tools d e = some (p', d')) :
    p'.specs = p.specs ∧ p'.before = p.before := by
  unfold Pull.next at h
  split at h
  on_goal 18 => cases h
  all_goals first
    | cases h; exact ⟨rfl, rfl⟩
    | (split at h <;> (cases h; exact ⟨rfl, rfl⟩))

lemma Orderly.die (h : Orderly tools targets p s.disk) (hapart : Apart tools targets)
    (hover : p.phase.over = false) (hcommitted : p.committed = false) (bytes : Bytes) :
    Orderly tools targets { p with phase := .dead } (s.lose p bytes) := by
  refine h.mk' ?_
  have hstands := h.stands
  unfold Stands at hstands
  unfold Pull.committed at hcommitted
  simp only [Stands, State.lose]
  cases hphase : p.phase with
  | staging todo => simp only [hphase] at hstands ⊢; exact hstands.1
  | writing spec todo inode got =>
    simp only [hphase] at hstands
    obtain ⟨hsame, hname, -, done, hspecs, -⟩ := hstands
    exact hsame.update hapart (h.dests spec (by simp [hspecs])) (content_put hname bytes)
  | dropping part | discarding parts => simp only [hphase] at hstands; exact hstands.1
  | installing left =>
    simp only [hphase] at hstands hcommitted
    obtain ⟨done, hb⟩ := hstands
    cases done with
    | nil => exact hb.unchanged
    | cons first done =>
    have hlength := congrArg List.length hb.specs
    simp only [length_append, length_cons] at hlength
    simp at hcommitted
    omega
  | flushing left => simp [hphase] at hcommitted
  | installed | failed | dead => simp [hphase, Phase.over] at hover

variable {a : Action D}

lemma step_steady (hapart : Apart tools targets) (h : Steady tools targets d₀ s)
    (hcareful : Careful targets s a) (hstep : s.step tools a = some s') :
    Steady tools targets d₀ s' := by
  cases a with
  | start i specs =>
    obtain ⟨⟨-, hnodup⟩, ⟨⟩⟩ := ite_none_right_eq_some.mp hstep
    obtain ⟨hidle, hdests⟩ := hcareful
    refine .busy i ⟨specs, [], .staging specs, s.disk.content⟩ (by simp [hidle])
      ⟨hdests, hnodup, by simp, fun _ _ => rfl, [], rfl, by simp⟩
      (fun spec hspec => mem_append_right _ hspec) fun t ht => ?_
    rcases h.genuine ht with hfirst | ⟨spec, hspec, hdest, hholds⟩
    · exact .inl hfirst
    · exact .inr ⟨spec, mem_append_left _ hspec, hdest, hholds⟩
  | next i e =>
    obtain ⟨p, hp, hnext⟩ := bind_eq_some_iff.mp hstep
    obtain ⟨⟨p', d'⟩, hp', rfl⟩ := map_eq_some_iff.mp hnext
    obtain ⟨hpulls, horderly, hwanted, hwas⟩ := h.pull? hp
    obtain ⟨hspecs, hbefore⟩ := Pull.next_same hp'
    refine .busy i p' (pulls_setPull hpulls)
      (Pull.next_orderly hapart horderly (hcareful p hp) hp') ?_ ?_
    · rwa [hspecs]
    · intro t ht
      unfold Was
      rw [hbefore]
      exact hwas t ht
  | die i bytes =>
    obtain ⟨p, hp, hdie⟩ := bind_eq_some_iff.mp hstep
    obtain ⟨hover, ⟨⟩⟩ := ite_none_left_eq_some.mp hdie
    obtain ⟨hpulls, horderly, hwanted, hwas⟩ := h.pull? hp
    exact .busy i _ (pulls_setPull hpulls)
      (horderly.die hapart (by simpa using hover) (hcareful p hp) bytes) hwanted hwas
  | forget i =>
    obtain ⟨p, hp, hforget⟩ := bind_eq_some_iff.mp hstep
    obtain ⟨-, ⟨⟩⟩ := ite_none_right_eq_some.mp hforget
    obtain ⟨hpulls, -⟩ := h.pull? hp
    exact .idle (by simp [hpulls]) fun t ht => h.genuine ht

/-- Targets whose staging files are apart, pulled without overlap and without a failure or a crash
between the first move and the last: each of them always holds what it held or an asset some pull
wanted there, a pull that returns has installed all its assets and one that fails or dies has changed
nothing. -/
theorem careful_pulls_are_whole (tools : Tools D) (targets : List Dest) (hapart : Apart tools targets)
    (d₀ : Disk) (actions : List (Action D)) (s : State D)
    (h : ((pulling tools).when (Careful targets)).Run { disk := d₀ } actions s) :
    Whole tools targets d₀ s := by
  have hsteady : Steady tools targets d₀ s := by
    refine h.invariant (.idle rfl fun _ _ => .inl rfl) fun s a s' hs hstep => ?_
    exact step_steady hapart hs hstep.2 hstep.1
  exact hsteady.whole

/-! ## A release of two assets -/

def isCareful (targets : List Dest) (s : State D) : Action D → Bool
  | .start _ specs => s.pulls.isEmpty && specs.all fun spec => spec.dest ∈ targets
  | .next i e => (s.pull? i).all fun p => !p.committed || e = .ok
  | .die i _ => (s.pull? i).all fun p => !p.committed
  | .forget _ => true

lemma careful_of_isCareful (h : isCareful targets s a = true) : Careful targets s a := by
  cases a with
  | start i specs => simpa [isCareful, Careful] using h
  | next i e =>
    intro p hp hcommitted
    simpa [isCareful, hp, hcommitted] using h
  | die i bytes =>
    intro p hp
    simpa [isCareful, hp] using h
  | forget i => trivial

def kernel : Dest := ⟨[], [107]⟩
def initrd : Dest := ⟨[], [105]⟩

def plainTools : Tools Bytes := ⟨id, id⟩

def oldImages : Disk where
  name := fun p => if p = kernel then some 0 else if p = initrd then some 1 else none
  data := fun i => if i = 0 then [1] else [2]
  fresh := 2
  below := by
    intro p i h
    split_ifs at h <;> cases h <;> decide
  single := by
    intro p q i hp hq
    split_ifs at hp hq <;> simp_all <;> omega

def vmlinux : DownloadSpec Bytes := ⟨"vmlinux", "/vmlinux", [11], kernel⟩

def release : List (DownloadSpec Bytes) := [vmlinux, ⟨"initrd", "/initrd", [12], initrd⟩]

def halfway : List (Action Bytes) :=
  [.start 0 release, .next 0 .ok, .next 0 (.chunk [11]), .next 0 .ok, .next 0 .ok,
    .next 0 (.chunk [12]), .next 0 .ok, .next 0 .ok, .next 0 .ok]

lemma plain_apart : Apart plainTools [kernel, initrd] := ⟨by decide, by decide⟩

/-- The release is installed when the first pull was cut off while it downloaded. -/
theorem second_pull_is_whole :
    ∃ s, ((pulling plainTools).when (Careful [kernel, initrd])).Run { disk := oldImages }
        ([.start 1 release, .next 1 .ok, .next 1 (.chunk [11]), .die 1 [], .forget 1] ++ halfway ++
          [.next 0 .ok, .next 0 .ok, .next 0 .ok, .next 0 .ok]) s ∧
      (s.disk.content kernel = some [11] ∧ s.disk.content initrd = some [12]) ∧
      Whole plainTools [kernel, initrd] oldImages s := by
  obtain ⟨s, hrun, hcontent⟩ : ∃ s, ((pulling plainTools).when (Careful [kernel, initrd])).Run
      { disk := oldImages }
      ([.start 1 release, .next 1 .ok, .next 1 (.chunk [11]), .die 1 [], .forget 1] ++ halfway ++
        [.next 0 .ok, .next 0 .ok, .next 0 .ok, .next 0 .ok]) s ∧
      (s.disk.content kernel = some [11] ∧ s.disk.content initrd = some [12]) :=
    Machine.exists_run_when (isCareful [kernel, initrd]) (fun _ _ => careful_of_isCareful)
      (by decide +kernel)
  exact ⟨s, hrun, hcontent,
    careful_pulls_are_whole plainTools [kernel, initrd] plain_apart oldImages _ s hrun⟩

/-- A pull dies after the first of its two moves: the kernel is of the new release and the initial
file system of the old one. -/
theorem crash_mixes_releases :
    ∃ s, (pulling plainTools).Run { disk := oldImages } (halfway ++ [.die 0 []]) s ∧
      s.disk.content kernel = some [11] ∧ s.disk.content initrd = some [2] ∧
      ¬ Whole plainTools [kernel, initrd] oldImages s := by
  obtain ⟨s, hrun, hkernel, hinitrd, hdead⟩ : ∃ s, (pulling plainTools).Run { disk := oldImages }
      (halfway ++ [.die 0 []]) s ∧ s.disk.content kernel = some [11] ∧
      s.disk.content initrd = some [2] ∧
      s.pulls.any (fun e => e.2.phase = .dead ∧ e.2.specs = release ∧
        e.2.before kernel = some [1]) = true :=
    Machine.exists_run_ofStep (by decide +kernel)
  refine ⟨s, hrun, hkernel, hinitrd, fun hwhole => ?_⟩
  obtain ⟨e, he, hmatch⟩ := List.any_eq_true.mp hdead
  obtain ⟨hphase, hspecs, hbefore⟩ := of_decide_eq_true hmatch
  have hspec : vmlinux ∈ e.2.specs := by
    rw [hspecs]
    exact .head _
  have hsame : s.disk.content kernel = e.2.before kernel :=
    hwhole.unchanged e he (.inr hphase) vmlinux hspec
  rw [hkernel, hbefore] at hsame
  cases hsame

end Husker.Image.Install
