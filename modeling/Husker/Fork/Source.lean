import Husker.Relational.Machine

/-! # The disk of a fork's source

While a fork is loaded, the rootfs of its source is moved aside and its path is a link to the
clone of the fork.  The source's lock is handed to the backend's instance of the fork, which keeps
it until the disk is back; after a crash only the backup tells that it is not.
-/
namespace Husker.Fork
open Relational Option Function

/-! ## The host -/

inductive Node where
  | file (inode : ℕ)
  | link (fork : ℕ)
  deriving DecidableEq

inductive Kind where
  | fork | resume | stop | destroy | snapshot | commit
  deriving DecidableEq

/-- `RootfsAlias`. -/
structure RootfsAlias where
  original : ℕ
  stashed : Bool
  linked : Bool

def RootfsAlias.mark (a : RootfsAlias) (i : ℕ) : Option Node :=
  if a.linked then some (.link i) else none

inductive Phase where
  | idle
  | waiting (kind : Kind)
  | holding (kind : Kind)
  | allowed (kind : Kind)
  | prepared (original : ℕ)
  | registered
  | stashed
  | aliased
  | loaded
  /-- The fork is loaded and the source's disk is back. -/
  | tail
  | failed
  /-- The backend destroyed the instance, and the rollback goes on. -/
  | cleared
  | returned
  | rolledBack
  | stuck
  | over
  | lost
  deriving DecidableEq

structure Host where
  source : Option Node
  backup : Option Node
  gone : Bool
  lock : Option ℕ
  phase : ℕ → Phase
  forkSource : ℕ → Option RootfsAlias

inductive Action where
  | start (i : ℕ) (kind : Kind)
  | acquire (i : ℕ)
  | requireReconciledForkSource (i : ℕ)
  | refuse (i : ℕ)
  | work (i : ℕ)
  | prepare (i : ℕ)
  | register (i : ℕ)
  | stash (i : ℕ)
  | link (i : ℕ)
  | load (i : ℕ)
  | undo (i : ℕ)
  | fail (i : ℕ)
  | succeed (i : ℕ)
  | destroyFork (i : ℕ)
  | rollback (i : ℕ)
  | giveUp (i : ℕ)
  | retry (i : ℕ)
  | crash

namespace Host
variable (s : Host)

def go (i : ℕ) (phase : Phase) : Host := { s with phase := Function.update s.phase i phase }

def setForkSource (i : ℕ) (a : Option RootfsAlias) : Host :=
  { s with forkSource := Function.update s.forkSource i a }

def release : Host := { s with lock := none }

/-- `RootfsAlias::undo`, with the checks it makes. -/
def undo (i : ℕ) (a : RootfsAlias) : Option Host :=
  if a.stashed then
    if s.backup = some (.file a.original) ∧ s.source = a.mark i then
      some { s with source := s.backup, backup := none }
    else none
  else some s

def abandon (i : ℕ) : Host := if s.forkSource i = none then (s.go i .failed).release else s.go i .failed

def acquire (i : ℕ) : Option Host :=
  match s.phase i with
  | .waiting kind => if s.lock = none then some { s.go i (.holding kind) with lock := some i } else none
  | _ => none

def requireReconciledForkSource (i : ℕ) : Option Host :=
  match s.phase i with
  | .holding kind => if s.backup = none then some (s.go i (.allowed kind)) else some (s.go i .over).release
  | _ => none

def refuse (i : ℕ) : Option Host :=
  match s.phase i with
  | .holding _ => some (s.go i .over).release
  | .allowed kind => if kind = .fork then none else some (s.go i .over).release
  | _ => none

def work (i : ℕ) : Option Host :=
  match s.phase i with
  | .allowed kind =>
    if kind = .fork then none
    else if kind = .destroy then
      some { (s.go i .over).release with source := none, backup := none, gone := true }
    else some (s.go i .over).release
  | _ => none

/-- `RootfsAlias::prepare`. -/
def prepare (i : ℕ) : Option Host :=
  match s.phase i with
  | .allowed kind =>
    match s.source with
    | some (.file inode) =>
      if kind = .fork ∧ s.backup = none then some (s.go i (.prepared inode)) else none
    | _ => none
  | _ => none

def register (i : ℕ) : Option Host :=
  match s.phase i with
  | .prepared original => some ((s.go i .registered).setForkSource i (some ⟨original, false, false⟩))
  | _ => none

/-- `RootfsAlias::activate` up to its rename. -/
def stash (i : ℕ) : Option Host :=
  (s.forkSource i).bind fun a =>
    if s.phase i = .registered ∧ s.source = some (.file a.original) ∧ s.backup = none then
      some { (s.go i .stashed).setForkSource i (some { a with stashed := true }) with
        source := none, backup := s.source }
    else none

/-- The rest of `RootfsAlias::activate`. -/
def link (i : ℕ) : Option Host :=
  (s.forkSource i).bind fun a =>
    if s.phase i = .stashed ∧ s.source = none then
      some { (s.go i .aliased).setForkSource i (some { a with linked := true }) with source := some (.link i) }
    else none

def reclaim (i : ℕ) (phase : Phase) : Option Host :=
  (s.forkSource i).bind fun a =>
    (s.undo i a).map fun s => ((s.go i phase).setForkSource i none).release

def fail (i : ℕ) : Option Host :=
  if s.phase i ∈ [.allowed .fork, .registered, .stashed, .aliased, .loaded] then some (s.abandon i)
  else
    match s.phase i with
    | .prepared _ => some (s.abandon i)
    | .tail => some (s.go i .failed)
    | _ => none

/-- `destroy_vm` of the fork, once its process is gone. -/
def destroyFork (i : ℕ) : Option Host :=
  if s.phase i = .failed then
    if s.forkSource i = none then some (s.go i .cleared) else s.reclaim i .cleared
  else none

def crash : Host where
  source := s.source
  backup := s.backup
  gone := s.gone
  lock := none
  phase i := if s.phase i = .idle then .idle else .lost
  forkSource _ := none

def move (i : ℕ) (old new : Phase) : Option Host := if s.phase i = old then some (s.go i new) else none

def step (s : Host) : Action → Option Host
  | .start i kind => s.move i .idle (.waiting kind)
  | .acquire i => s.acquire i
  | .requireReconciledForkSource i => s.requireReconciledForkSource i
  | .refuse i => s.refuse i
  | .work i => s.work i
  | .prepare i => s.prepare i
  | .register i => s.register i
  | .stash i => s.stash i
  | .link i => s.link i
  | .load i => s.move i .aliased .loaded
  | .undo i => if s.phase i = .loaded then s.reclaim i .tail else none
  | .fail i => s.fail i
  | .succeed i => s.move i .tail .returned
  | .destroyFork i => s.destroyFork i
  | .rollback i => s.move i .cleared .rolledBack
  | .giveUp i => if s.phase i = .failed then some (s.go i .stuck) else s.move i .cleared .stuck
  | .retry i => s.move i .stuck .failed
  | .crash => some s.crash

end Host

def hosting : Machine Host Action := .ofStep Host.step

def suspended (origin : ℕ) : Host where
  source := some (.file origin)
  backup := none
  gone := false
  lock := none
  phase _ := .idle
  forkSource _ := none

/-! ## Where the disk is -/

variable {act : Action}

section
variable {origin : ℕ} {s s' : Host} {i j : ℕ} {a : RootfsAlias} {phase : Phase}

/-- The original is at the source path or at its backup path, unless the source is gone. -/
def Kept (origin : ℕ) (s : Host) : Prop :=
  if s.gone then s.source = none else s.source = some (.file origin) ∨ s.backup = some (.file origin)

def Host.proper (origin : ℕ) (s : Host) : Option Node := if s.gone then none else some (.file origin)

def Settled (origin : ℕ) (s : Host) : Prop := s.backup = none ∧ s.source = s.proper origin

def Calm (origin : ℕ) (s : Host) : Prop :=
  Settled origin s ∨ ∃ j a, s.forkSource j = some a ∧ a.stashed = true

def Held (origin : ℕ) (s : Host) (i : ℕ) (a : RootfsAlias) : Prop :=
  s.lock = some i ∧ a.original = origin ∧ s.gone = false ∧
    if a.stashed then s.backup = some (.file origin) ∧ s.source = a.mark i
    else s.backup = none ∧ s.source = some (.file origin)

def Fits (origin : ℕ) (s : Host) (i : ℕ) : Phase → Option RootfsAlias → Prop
  | .idle, none | .waiting _, none | .over, none | .lost, none => True
  | .holding _, none => s.lock = some i
  | .allowed _, none => s.lock = some i ∧ Settled origin s
  | .prepared inode, none => s.lock = some i ∧ Settled origin s ∧ s.source = some (.file inode)
  | .registered, some a => Held origin s i a ∧ a.stashed = false ∧ a.linked = false
  | .stashed, some a => Held origin s i a ∧ a.stashed = true ∧ a.linked = false
  | .aliased, some a | .loaded, some a => Held origin s i a ∧ a.stashed = true ∧ a.linked = true
  | .failed, some a | .stuck, some a => Held origin s i a
  | .tail, none | .failed, none | .cleared, none | .returned, none | .rolledBack, none
  | .stuck, none => Calm origin s
  | _, _ => False

structure Sound (origin : ℕ) (s : Host) : Prop where
  kept : Kept origin s
  fits : ∀ i, Fits origin s i (s.phase i) (s.forkSource i)

lemma Fits.of_unlocked {phase : Phase} {a : Option RootfsAlias} (h : Fits origin s j phase a)
    (hlock : s.lock ≠ some j) (hcalm : Calm origin s → Calm origin s') : Fits origin s' j phase a := by
  -- whatever speaks of the disk also says that the lock is held
  cases phase <;> cases a <;>
    first
      | exact h
      | exact hcalm h
      | exact absurd h hlock
      | exact absurd h.1 hlock
      | exact absurd h.1.1 hlock

lemma fits_go {phase' : Phase} {a : Option RootfsAlias} :
    Fits origin (s.go i phase) j phase' a ↔ Fits origin s j phase' a := by
  cases phase' <;> cases a <;> rfl

lemma Sound.go (h : Sound origin s) (hfits : Fits origin s i phase (s.forkSource i)) :
    Sound origin (s.go i phase) := by
  refine ⟨h.kept, fun j => fits_go.mpr ?_⟩
  by_cases hj : j = i
  · subst hj
    simpa [Host.go] using hfits
  · simpa [Host.go, update_of_ne hj] using h.fits j

lemma Sound.owned (h : Sound origin s) (hlock : s.lock = none ∨ s.lock = some i)
    (hkept : Kept origin s') (hcalm : Calm origin s → Calm origin s')
    (hphase : ∀ j, j ≠ i → s'.phase j = s.phase j)
    (hsource : ∀ j, j ≠ i → s'.forkSource j = s.forkSource j) {b : Option RootfsAlias}
    (hphase' : s'.phase i = phase) (hsource' : s'.forkSource i = b)
    (hfits : Fits origin s' i phase b) : Sound origin s' := by
  refine ⟨hkept, fun j => ?_⟩
  by_cases hj : j = i
  · rw [hj, hphase', hsource']
    exact hfits
  · rw [hphase j hj, hsource j hj]
    apply (h.fits j).of_unlocked _ hcalm
    rcases hlock with hlock | hlock
    · simp [hlock]
    · simpa [hlock] using Ne.symm hj

lemma Settled.kept (h : Settled origin s) : Kept origin s := by
  have hsource := h.2
  unfold Kept
  unfold Host.proper at hsource
  split_ifs at hsource ⊢
  · exact hsource
  · exact .inl hsource

lemma Kept.settled (h : Kept origin s) (hbackup : s.backup = none) : Settled origin s := by
  refine ⟨hbackup, ?_⟩
  unfold Kept at h
  unfold Host.proper
  split_ifs at h ⊢
  · exact h
  · exact h.resolve_right (by simp [hbackup])

lemma kept_of_backup (hgone : s.gone = false) (hbackup : s.backup = some (.file origin)) :
    Kept origin s := by
  simp [Kept, hgone, hbackup]

lemma update_other {β : Type} {f : ℕ → β} {b : β} : ∀ j, j ≠ i → update f i b j = f j :=
  fun _ hj => update_of_ne hj _ _

lemma Sound.release (h : Sound origin s) (hlock : s.lock = some i)
    (hnone : s.forkSource i = none) (hfits : Fits origin s.release i phase none) :
    Sound origin (s.go i phase).release :=
  h.owned (.inr hlock) h.kept id update_other (fun _ _ => rfl) (update_self _ _ _) hnone
    (fits_go.mpr hfits)

lemma Held.stash (h : Held origin s i a) (hstashed : a.stashed = false) :
    s.backup = none ∧ s.source = some (.file origin) := by
  have hdisk := h.2.2.2
  rw [hstashed] at hdisk
  exact hdisk

lemma Held.settled (h : Held origin s i a) (hstashed : a.stashed = false) : Settled origin s := by
  obtain ⟨hbackup, hsource⟩ := h.stash hstashed
  refine ⟨hbackup, ?_⟩
  rw [Host.proper, h.2.2.1, hsource]
  rfl

lemma Held.undo (h : Held origin s i a) (hundo : s.undo i a = some s') :
    Settled origin s' ∧ s'.lock = s.lock ∧ s'.phase = s.phase ∧ s'.forkSource = s.forkSource := by
  unfold Host.undo at hundo
  split_ifs at hundo with hstashed hguard <;> cases hundo
  · refine ⟨⟨rfl, ?_⟩, rfl, rfl, rfl⟩
    rw [Host.proper, h.2.2.1, hguard.1, h.2.1]
    rfl
  · exact ⟨h.settled (by simpa using hstashed), rfl, rfl, rfl⟩

lemma Sound.reclaim (h : Sound origin s) (hstep : s.reclaim i phase = some s')
    (hheld : ∀ a, s.forkSource i = some a → Held origin s i a)
    (hfits : ∀ s', Calm origin s' → Fits origin s' i phase none) : Sound origin s' := by
  obtain ⟨a, ha, hstep⟩ := bind_eq_some_iff.mp hstep
  obtain ⟨s₁, hundo, rfl⟩ := map_eq_some_iff.mp hstep
  obtain ⟨hsettled, -, hphase, hsource⟩ := (hheld a ha).undo hundo
  refine h.owned (.inr (hheld a ha).1) hsettled.kept (fun _ => .inl hsettled) ?_ ?_
    (update_self _ _ _) (update_self _ _ _) (hfits _ (.inl hsettled))
  · exact fun j hj => (update_other j hj).trans (congrFun hphase j)
  · exact fun j hj => (update_other j hj).trans (congrFun hsource j)

lemma Sound.abandon (h : Sound origin s) (hlock : s.lock = some i)
    (hfits : (s.forkSource i = none ∧ Settled origin s) ∨ ∃ a, s.forkSource i = some a ∧ Held origin s i a) :
    Sound origin (s.abandon i) := by
  unfold Host.abandon
  rcases hfits with ⟨hnone, hsettled⟩ | ⟨a, ha, hheld⟩
  · rw [if_pos hnone]
    exact h.release hlock hnone (.inl hsettled)
  · rw [if_neg (by simp [ha])]
    apply h.go
    rw [ha]
    exact hheld

def Phase.bare : Phase → Bool
  | .registered | .stashed | .aliased | .loaded | .failed | .stuck => false
  | _ => true

lemma Sound.bare (h : Sound origin s) (hphase : s.phase i = phase) (hbare : phase.bare = true) :
    s.forkSource i = none ∧ Fits origin s i phase none := by
  have hfits := h.fits i
  rw [hphase] at hfits
  cases hsource : s.forkSource i with
  | none => exact ⟨rfl, hsource ▸ hfits⟩
  | some a =>
    rw [hsource] at hfits
    cases phase <;> first | exact hfits.elim | cases hbare

lemma Sound.aliased (h : Sound origin s) (hphase : s.phase i = phase) (hsource : s.forkSource i = some a) :
    Fits origin s i phase (some a) := hphase ▸ hsource ▸ h.fits i

lemma Fits.held_of_some (h : Fits origin s i phase (some a)) : Held origin s i a := by
  cases phase with
  | registered | stashed | aliased | loaded => exact h.1
  | failed | stuck => exact h
  | _ => exact h.elim

lemma Sound.held (h : Sound origin s) (hsource : s.forkSource i = some a) : Held origin s i a :=
  (hsource ▸ h.fits i).held_of_some

/-! ## Steps -/

section
variable (h : Sound origin s)
include h

lemma sound_acquire (hstep : s.acquire i = some s') : Sound origin s' := by
  unfold Host.acquire at hstep
  split at hstep
  on_goal 2 => cases hstep
  rename_i kind hphase
  obtain ⟨hlock, heq⟩ := ite_none_right_eq_some.mp hstep
  cases heq
  exact h.owned (.inl hlock) h.kept id update_other (fun _ _ => rfl) (update_self _ _ _)
    (h.bare hphase rfl).1 rfl

lemma sound_check (hstep : s.requireReconciledForkSource i = some s') : Sound origin s' := by
  unfold Host.requireReconciledForkSource at hstep
  split at hstep
  on_goal 2 => cases hstep
  rename_i kind hphase
  obtain ⟨hsource, hlock⟩ := h.bare hphase rfl
  split_ifs at hstep with hbackup <;> cases hstep
  · apply h.go
    rw [hsource]
    exact ⟨hlock, h.kept.settled hbackup⟩
  · exact h.release hlock hsource trivial

lemma sound_refuse (hstep : s.refuse i = some s') : Sound origin s' := by
  unfold Host.refuse at hstep
  split at hstep
  · rename_i hphase
    cases hstep
    obtain ⟨hsource, hlock⟩ := h.bare hphase rfl
    exact h.release hlock hsource trivial
  · rename_i hphase
    split_ifs at hstep
    cases hstep
    obtain ⟨hsource, hlock, -⟩ := h.bare hphase rfl
    exact h.release hlock hsource trivial
  · cases hstep

lemma sound_work (hstep : s.work i = some s') : Sound origin s' := by
  unfold Host.work at hstep
  split at hstep
  on_goal 2 => cases hstep
  rename_i kind hphase
  obtain ⟨hsource, hlock, -⟩ := h.bare hphase rfl
  split_ifs at hstep <;> cases hstep
  · exact h.owned (.inr hlock) rfl (fun _ => .inl ⟨rfl, rfl⟩) update_other (fun _ _ => rfl)
      (update_self _ _ _) hsource trivial
  · exact h.release hlock hsource trivial

lemma sound_prepare (hstep : s.prepare i = some s') : Sound origin s' := by
  unfold Host.prepare at hstep
  split at hstep
  on_goal 2 => cases hstep
  rename_i kind hphase
  split at hstep
  on_goal 2 => cases hstep
  rename_i inode hfile
  obtain ⟨-, heq⟩ := ite_none_right_eq_some.mp hstep
  cases heq
  obtain ⟨hnone, hlock, hsettled⟩ := h.bare hphase rfl
  apply h.go
  rw [hnone]
  exact ⟨hlock, hsettled, hfile⟩

end

lemma Settled.file {inode : ℕ} (h : Settled origin s) (hsource : s.source = some (.file inode)) :
    s.gone = false ∧ inode = origin := by
  have hproper := hsource.symm.trans h.2
  unfold Host.proper at hproper
  split_ifs at hproper with hgone
  · cases hproper
    exact ⟨by simpa using hgone, rfl⟩

section
variable (h : Sound origin s)
include h

lemma sound_register (hstep : s.register i = some s') : Sound origin s' := by
  unfold Host.register at hstep
  split at hstep
  on_goal 2 => cases hstep
  rename_i original hphase
  cases hstep
  obtain ⟨-, hlock, hsettled, hfile⟩ := h.bare hphase rfl
  obtain ⟨hgone, rfl⟩ := hsettled.file hfile
  exact h.owned (.inr hlock) h.kept (fun _ => .inl hsettled) update_other update_other
    (update_self _ _ _) (update_self _ _ _)
    ⟨⟨hlock, rfl, hgone, hsettled.1, hfile⟩, rfl, rfl⟩

lemma sound_stash (hstep : s.stash i = some s') : Sound origin s' := by
  obtain ⟨a, hsource, hstep⟩ := bind_eq_some_iff.mp hstep
  obtain ⟨⟨hphase, hfile, -⟩, heq⟩ := ite_none_right_eq_some.mp hstep
  cases heq
  obtain ⟨⟨hlock, horiginal, hgone, -⟩, -, hlinked⟩ := h.aliased hphase hsource
  have hbackup : s.source = some (.file origin) := hfile.trans (by rw [horiginal])
  refine h.owned (.inr hlock) (kept_of_backup hgone hbackup) ?_ update_other update_other
    (update_self _ _ _) (update_self _ _ _) ?_
  · exact fun _ => .inr ⟨i, _, update_self _ _ _, rfl⟩
  · refine ⟨⟨hlock, horiginal, hgone, hbackup, ?_⟩, rfl, hlinked⟩
    rw [RootfsAlias.mark, hlinked]
    rfl

lemma sound_link (hstep : s.link i = some s') : Sound origin s' := by
  obtain ⟨a, hsource, hstep⟩ := bind_eq_some_iff.mp hstep
  obtain ⟨⟨hphase, -⟩, heq⟩ := ite_none_right_eq_some.mp hstep
  cases heq
  obtain ⟨⟨hlock, horiginal, hgone, hdisk⟩, hstashed, -⟩ := h.aliased hphase hsource
  rw [if_pos hstashed] at hdisk
  refine h.owned (.inr hlock) (kept_of_backup hgone hdisk.1) ?_ update_other update_other
    (update_self _ _ _) (update_self _ _ _) ?_
  · exact fun _ => .inr ⟨i, _, update_self _ _ _, hstashed⟩
  · refine ⟨⟨hlock, horiginal, hgone, ?_⟩, hstashed, rfl⟩
    rw [if_pos hstashed]
    exact ⟨hdisk.1, rfl⟩

lemma sound_fail (hstep : s.fail i = some s') : Sound origin s' := by
  have hfits := h.fits i
  unfold Host.fail at hstep
  split_ifs at hstep with hphase
  · cases hstep
    cases hsource : s.forkSource i with
    | some a => exact h.abandon (h.held hsource).1 (.inr ⟨a, hsource, h.held hsource⟩)
    | none =>
    rw [hsource] at hfits
    simp only [List.mem_cons, List.not_mem_nil, or_false] at hphase
    rcases hphase with hphase | hphase | hphase | hphase | hphase <;> rw [hphase] at hfits
    · exact h.abandon hfits.1 (.inl ⟨hsource, hfits.2⟩)
    all_goals exact hfits.elim
  · split at hstep
    · rename_i inode hphase
      cases hstep
      obtain ⟨hnone, hlock, hsettled, -⟩ := h.bare hphase rfl
      exact h.abandon hlock (.inl ⟨hnone, hsettled⟩)
    · rename_i hphase
      cases hstep
      obtain ⟨hnone, hcalm⟩ := h.bare hphase rfl
      apply h.go
      rw [hnone]
      exact hcalm
    · cases hstep

lemma sound_destroyFork (hstep : s.destroyFork i = some s') : Sound origin s' := by
  have hfits := h.fits i
  unfold Host.destroyFork at hstep
  split_ifs at hstep with hphase hsource
  · cases hstep
    rw [hphase, hsource] at hfits
    apply h.go
    rw [hsource]
    exact hfits
  · exact h.reclaim hstep (fun a ha => h.held ha) fun _ hcalm => hcalm

lemma sound_crash : Sound origin s.crash := by
  refine ⟨h.kept, fun i => ?_⟩
  by_cases hidle : s.phase i = .idle
  · have hphase : s.crash.phase i = .idle := if_pos hidle
    rw [hphase]
    trivial
  · have hphase : s.crash.phase i = .lost := if_neg hidle
    rw [hphase]
    trivial

lemma Sound.move {new : Phase}
    (hfits : ∀ b, Fits origin s i phase b → Fits origin s i new b) (hstep : s.move i phase new = some s') :
    Sound origin s' := by
  obtain ⟨hphase, heq⟩ := ite_none_right_eq_some.mp hstep
  cases heq
  exact h.go (hfits _ (hphase ▸ h.fits i))

lemma sound_step (hstep : s.step act = some s') : Sound origin s' := by
  cases act with
  | start i kind | load i | succeed i => exact h.move (fun b hb => by cases b <;> exact hb) hstep
  | acquire i => exact sound_acquire h hstep
  | requireReconciledForkSource i => exact sound_check h hstep
  | refuse i => exact sound_refuse h hstep
  | work i => exact sound_work h hstep
  | prepare i => exact sound_prepare h hstep
  | register i => exact sound_register h hstep
  | stash i => exact sound_stash h hstep
  | link i => exact sound_link h hstep
  | undo i =>
    obtain ⟨-, hreclaim⟩ := ite_none_right_eq_some.mp hstep
    exact h.reclaim hreclaim (fun a ha => h.held ha) fun _ hcalm => hcalm
  | fail i => exact sound_fail h hstep
  | destroyFork i => exact sound_destroyFork h hstep
  | rollback i => exact h.move (fun b hb => by cases b <;> exact hb) hstep
  | giveUp i =>
    by_cases hphase : s.phase i = .failed
    · have heq : some (s.go i .stuck) = some s' := (if_pos hphase).symm.trans hstep
      cases heq
      have hfits := h.fits i
      rw [hphase] at hfits
      apply h.go
      cases hsource : s.forkSource i with
      | none => rw [hsource] at hfits; exact hfits
      | some a => rw [hsource] at hfits; exact hfits
    · have hmove : s.move i .cleared .stuck = some s' := (if_neg hphase).symm.trans hstep
      exact h.move (fun b hb => by cases b <;> first | exact hb | exact hb.elim) hmove
  | retry i => exact h.move (fun b hb => by cases b <;> exact hb) hstep
  | crash =>
    cases hstep
    exact sound_crash h

end

lemma sound_run {as : List Action} (hrun : hosting.Run (suspended origin) as s) : Sound origin s := by
  apply hrun.invariant
  · exact ⟨.inl rfl, fun _ => trivial⟩
  · exact fun _ _ _ h hstep => sound_step h hstep

lemma step_gone (hstep : s.step act = some s') (hgone : s.gone = false)
    (hgone' : s'.gone = true) : ∃ i, act = .work i ∧ s.phase i = .allowed .destroy := by
  cases act <;>
    grind [Host.step, Host.go, Host.release, Host.setForkSource, Host.undo, Host.abandon, Host.acquire,
      Host.requireReconciledForkSource, Host.refuse, Host.work, Host.prepare, Host.register, Host.stash,
      Host.link, Host.reclaim, Host.fail, Host.destroyFork, Host.crash, Host.move,
      bind_eq_some_iff, map_eq_some_iff]

lemma Sound.returned (h : Sound origin s) (hphase : s.phase i = .returned ∨ s.phase i = .rolledBack) :
    s.forkSource i = none ∧ Calm origin s := by
  rcases hphase with hphase | hphase
  · exact h.bare hphase rfl
  · exact h.bare hphase rfl

/-- The original disk of a fork's source is never lost, whoever is let through finds it in its
place, and a fork that is over or rolled back has not left it aside. -/
theorem fork_source_disk_is_kept {as : List Action} (hrun : hosting.Run (suspended origin) as s) :
    (s.gone = false → s.source = some (.file origin) ∨ s.backup = some (.file origin)) ∧
    (∀ act s', s.step act = some s' → s.gone = false → s'.gone = true →
      ∃ i, act = .work i ∧ s.phase i = .allowed .destroy) ∧
    (∀ i kind, s.phase i = .allowed kind →
      s.lock = some i ∧ s.backup = none ∧ (s.gone = false → s.source = some (.file origin))) ∧
    ∀ i, s.phase i = .returned ∨ s.phase i = .rolledBack →
      s.forkSource i = none ∧ s.source ≠ some (.link i) ∧
        (s.gone = true ∨ s.source = some (.file origin) ∧ s.backup = none ∨
          ∃ j a, s.lock = some j ∧ s.forkSource j = some a ∧ a.stashed = true) := by
  have h := sound_run hrun
  refine ⟨fun hgone => ?_, fun act s' hstep => step_gone hstep, fun i kind hphase => ?_, fun i hphase => ?_⟩
  · simpa [Kept, hgone] using h.kept
  · obtain ⟨-, hlock, hbackup, hsource⟩ := h.bare hphase rfl
    exact ⟨hlock, hbackup, fun hgone => by simpa [Host.proper, hgone] using hsource⟩
  obtain ⟨hnone, hcalm⟩ := h.returned hphase
  refine ⟨hnone, ?_, ?_⟩
  · intro hlink
    rcases hcalm with hsettled | ⟨j, a, hsource, hstashed⟩
    · have hproper := hlink.symm.trans hsettled.2
      unfold Host.proper at hproper
      split_ifs at hproper
      cases hproper
    have hheld := h.held hsource
    have hdisk := hheld.2.2.2
    rw [if_pos hstashed, RootfsAlias.mark, hlink] at hdisk
    split_ifs at hdisk with hlinked
    · cases hdisk.2
      rw [hnone] at hsource
      cases hsource
    · cases hdisk.2
  · rcases hcalm with hsettled | ⟨j, a, hsource, hstashed⟩
    · cases hgone : s.gone with
      | true => exact .inl rfl
      | false => exact .inr (.inl ⟨by simpa [Host.proper, hgone] using hsettled.2, hsettled.1⟩)
    · have hheld := h.held hsource
      exact .inr (.inr ⟨j, a, hheld.1, hsource, hstashed⟩)

end

def loading (i : ℕ) : List Action :=
  [.start i .fork, .acquire i, .requireReconciledForkSource i, .prepare i, .register i, .stash i, .link i]

/-- A fork that succeeds. -/
theorem fork_puts_disk_back :
    ∃ s, hosting.Run (suspended 7) (loading 1 ++ [.load 1, .undo 1, .succeed 1]) s ∧
      s.phase 1 = .returned ∧ s.source ≠ some (.link 1) ∧ s.source = some (.file 7) := by
  have hexists : ∃ s, hosting.Run (suspended 7) (loading 1 ++ [.load 1, .undo 1, .succeed 1]) s ∧
      s.phase 1 = .returned ∧ s.source = some (.file 7) := Machine.exists_run_ofStep (by decide)
  obtain ⟨s, hrun, hphase, hsource⟩ := hexists
  obtain ⟨-, -, -, hreturned⟩ := fork_source_disk_is_kept hrun
  exact ⟨s, hrun, hphase, (hreturned 1 (.inl hphase)).2.1, hsource⟩

/-- A fork succeeds while the next one has the disk moved aside. -/
theorem fork_returns_with_disk_aside : ∃ s, hosting.Run (suspended 7)
        (loading 1 ++ [.load 1, .undo 1] ++ loading 2 ++ [.succeed 1]) s ∧
      s.phase 1 = .returned ∧ s.gone = false ∧ s.source = some (.link 2) ∧ s.backup = some (.file 7) :=
  Machine.exists_run_ofStep (by decide)

end Husker.Fork
