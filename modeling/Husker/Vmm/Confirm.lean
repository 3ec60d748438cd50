import Husker.Vmm.Receipt

/-! # Confirmation among other processes

Between any two system calls of a confirmation processes end, are reaped and start, the host
reboots or the daemon restarts.  A pid may be used again, but never with the same start time.
-/
namespace Husker.Vmm
open Relational List Option
open Receipt (Request Caller Phase Next)

inductive Event where
  | exit (pidNamespace pid : ℕ)
  | reap (pidNamespace pid : ℕ)
  | spawn (pidNamespace pid : ℕ) (process : Process)
  | become (pidNamespace pid uid : ℕ) (cmdline : Text)
  | enter (cgroup : Text) (tasks : ℕ)
  | create (cgroup : Text) (inode : ℕ)
  | reboot (boot : Text) (pidNamespace : ℕ)
  | restart (pidNamespace : ℕ)
  | call (caller : Caller) (request : Request)
  | advance (expired : Bool)
  | fail

structure System where
  world : World
  call : Option (Text × Phase)
  results : List (Except VmmError Unit)

def System.start (w : World) : System := ⟨w, none, []⟩

def System.finish (s : System) (w : World) (runtime : Text) : Next → System
  | .go phase => { s with world := w, call := some (runtime, phase) }
  | .done result => { world := w, call := none, results := s.results ++ [result] }

variable (ids : Ids) (r : Receipt)

/-- What happens around the calls.  A new cgroup is only made under the lock of the VM, which a
call holds. -/
def World.change (w : World) (busy : Bool) : Event → Option World
  | .exit ns pid =>
    (w.processes ns pid).map fun p => w.setProcess ns pid (some { p with exited := true })
  | .reap ns pid =>
    (w.processes ns pid).bind fun p => if p.exited then some (w.setProcess ns pid none) else none
  | .spawn ns pid p =>
    if w.processes ns pid = none ∧ (ns, pid, p.start) ∉ w.births ∧ p.start ≠ 0 then
      some { w.setProcess ns pid (some p) with births := (ns, pid, p.start) :: w.births }
    else none
  | .become ns pid uid cmdline =>
    (w.processes ns pid).map fun p => w.setProcess ns pid (some { p with uid, cmdline })
  | .enter cgroup tasks =>
    (w.cgroups cgroup).map fun g => w.setCgroup cgroup (some { g with tasks })
  | .create cgroup inode =>
    if busy ∨ w.cgroups cgroup ≠ none ∨ inode ∈ w.inodes then none
    else some { w.setCgroup cgroup (some ⟨true, inode, 0⟩) with inodes := inode :: w.inodes }
  | .reboot boot ns =>
    if boot = w.boot ∨ boot ∈ w.earlier ∨ ids.parse boot = none then none
    else
      some { w with
        boot := boot
        earlier := w.boot :: w.earlier
        pidNamespace := ns
        processes := fun _ _ => none
        births := []
        cgroups := fun _ => none
        inodes := [] }
  | .restart ns => some { w with pidNamespace := ns }
  | _ => none

def System.step (s : System) : Event → Option System
  | .call caller request =>
    if s.call.isSome then none
    else if r.accepts ids caller request then
      some { s with call := some (request.runtime, .readBoot) }
    else
      some { s with results := s.results ++ [.error (failure "receipt ownership mismatch".toList)] }
  | .advance expired =>
    s.call.map fun (runtime, phase) =>
      let (w, next) := r.advance ids runtime expired s.world phase
      s.finish w runtime next
  | .fail => s.call.map fun (runtime, phase) => s.finish s.world runtime (Receipt.fail phase)
  | .reboot boot ns =>
    (s.world.change ids s.call.isSome (.reboot boot ns)).map fun w => { s with world := w, call := none }
  | .restart ns =>
    (s.world.change ids s.call.isSome (.restart ns)).map fun w => { s with world := w, call := none }
  | event => (s.world.change ids s.call.isSome event).map fun w => { s with world := w }

def confirmation : Machine System Event := .ofStep (System.step ids r)

/-! ## What is known of the host -/

def Receipt.Ended (w : World) : Prop := ¬w.Running r.birth

def Receipt.Gone (w : World) : Prop :=
  w.boot = r.boot → ∀ p, w.processes r.pidNamespace r.pid = some p → p.start ≠ r.start

structure Receipt.Known (w : World) : Prop where
  boot : w.boot = r.boot ∨ r.boot ∈ w.earlier
  fresh : w.boot ∉ w.earlier
  born : w.boot = r.boot → (r.pidNamespace, r.pid, r.start) ∈ w.births
  start : w.boot = r.boot → ∀ p, w.processes r.pidNamespace r.pid = some p → p.start ≠ 0
  bootId : (ids.parse w.boot).isSome

variable {ids r} {w w' : World} {event : Event} {busy : Bool}

lemma Receipt.Gone.ended (h : r.Gone w) : r.Ended w := by
  rintro ⟨hboot, p, hp, hstart, -⟩
  exact h hboot p hp hstart

/-- What the events of one boot do: a process stays itself until it is gone, and new ones are new. -/
structure World.Evolves (w w' : World) : Prop where
  boot : w'.boot = w.boot
  earlier : w'.earlier = w.earlier
  signalled : w'.signalled = w.signalled
  removed : w'.removed = w.removed
  births : w.births ⊆ w'.births
  processes : ∀ ns pid p', w'.processes ns pid = some p' →
    (∃ p, w.processes ns pid = some p ∧ p'.start = p.start ∧ (p.exited = true → p'.exited = true)) ∨
      (ns, pid, p'.start) ∉ w.births ∧ p'.start ≠ 0
  cgroups : ∀ q g, w.cgroups q = some g → ∃ tasks, w'.cgroups q = some { g with tasks }

open World

lemma setProcess_evolves {ns pid : ℕ} {p : Option Process} {births : List (ℕ × ℕ × ℕ)}
    (hbirths : w.births ⊆ births) (h : ∀ p', p = some p' →
      (∃ q, w.processes ns pid = some q ∧ p'.start = q.start ∧ (q.exited = true → p'.exited = true)) ∨
        (ns, pid, p'.start) ∉ w.births ∧ p'.start ≠ 0) :
    w.Evolves { w.setProcess ns pid p with births := births } where
  boot := rfl
  earlier := rfl
  signalled := rfl
  removed := rfl
  births := hbirths
  processes := by
    intro ns' pid' p' hp'
    simp only [setProcess] at hp'
    split_ifs at hp' with hpid
    · obtain ⟨rfl, rfl⟩ := hpid
      exact h p' hp'
    · exact .inl ⟨p', hp', rfl, id⟩
  cgroups := fun q g hg => ⟨g.tasks, hg⟩

lemma setCgroup_evolves {path : Text} {g : Cgroup} {inodes : List ℕ}
    (h : ∀ g', w.cgroups path = some g' → ∃ tasks, g = { g' with tasks }) :
    w.Evolves { w.setCgroup path (some g) with inodes := inodes } where
  boot := rfl
  earlier := rfl
  signalled := rfl
  removed := rfl
  births := List.Subset.refl _
  processes := fun ns pid p' hp' => .inl ⟨p', hp', rfl, id⟩
  cgroups := by
    intro q g' hg'
    simp only [setCgroup]
    split_ifs with hq
    · subst hq
      obtain ⟨tasks, rfl⟩ := h g' hg'
      exact ⟨tasks, rfl⟩
    · exact ⟨g'.tasks, hg'⟩

lemma change_evolves (h : w.change ids busy event = some w')
    (hreboot : ∀ boot ns, event ≠ .reboot boot ns) : w.Evolves w' := by
  cases event with
  | exit ns pid =>
    obtain ⟨p, hp, rfl⟩ := map_eq_some_iff.mp h
    exact setProcess_evolves (List.Subset.refl _) (by rintro p' ⟨⟩; exact .inl ⟨p, hp, rfl, fun _ => rfl⟩)
  | reap ns pid =>
    obtain ⟨p, hp, h⟩ := bind_eq_some_iff.mp h
    split_ifs at h
    cases h
    exact setProcess_evolves (List.Subset.refl _) nofun
  | spawn ns pid p =>
    simp only [change] at h
    split_ifs at h with hfree
    cases h
    exact setProcess_evolves (subset_cons_self _ _) (by rintro p' ⟨⟩; exact .inr hfree.2)
  | become ns pid uid cmdline =>
    obtain ⟨p, hp, rfl⟩ := map_eq_some_iff.mp h
    exact setProcess_evolves (List.Subset.refl _) (by rintro p' ⟨⟩; exact .inl ⟨p, hp, rfl, id⟩)
  | enter cgroup tasks =>
    obtain ⟨g, hg, rfl⟩ := map_eq_some_iff.mp h
    refine setCgroup_evolves fun g' hg' => ?_
    cases hg.symm.trans hg'
    exact ⟨tasks, rfl⟩
  | create cgroup inode =>
    simp only [change] at h
    split_ifs at h with hbusy
    cases h
    push Not at hbusy
    exact setCgroup_evolves fun g' hg' => nomatch hbusy.2.1.symm.trans hg'
  | reboot boot ns => exact absurd rfl (hreboot boot ns)
  | restart ns =>
    cases h
    exact ⟨rfl, rfl, rfl, rfl, List.Subset.refl _, fun _ _ p' hp' => .inl ⟨p', hp', rfl, id⟩,
      fun q g hg => ⟨g.tasks, hg⟩⟩
  | call caller request => cases h
  | advance expired => cases h
  | fail => cases h

variable {process : Birth}

namespace Receipt

lemma Known.evolves (hknown : r.Known ids w) (h : w.Evolves w') : r.Known ids w' where
  boot := by
    rw [h.boot, h.earlier]
    exact hknown.boot
  fresh := by
    rw [h.boot, h.earlier]
    exact hknown.fresh
  born := fun hboot => h.births (hknown.born (h.boot.symm.trans hboot))
  start := by
    intro hboot p' hp'
    rcases h.processes _ _ p' hp' with ⟨p, hp, hstart, -⟩ | ⟨-, hstart⟩
    · rw [hstart]
      exact hknown.start (h.boot.symm.trans hboot) p hp
    · exact hstart
  bootId := by
    rw [h.boot]
    exact hknown.bootId

lemma Gone.evolves (hknown : r.Known ids w) (hgone : r.Gone w) (h : w.Evolves w') : r.Gone w' := by
  intro hboot p' hp' hstart
  rw [h.boot] at hboot
  rcases h.processes _ _ p' hp' with ⟨p, hp, hsame, -⟩ | ⟨hfresh, -⟩
  · exact hgone hboot p hp (hsame.symm.trans hstart)
  · rw [hstart] at hfresh
    exact hfresh (hknown.born hboot)

lemma Ended.evolves (hknown : r.Known ids w) (hended : r.Ended w) (h : w.Evolves w') : r.Ended w' := by
  rintro ⟨hboot, p', hp', hstart, hrunning⟩
  rw [h.boot] at hboot
  rcases h.processes _ _ p' hp' with ⟨p, hp, hsame, hexited⟩ | ⟨hfresh, -⟩
  · refine hended ⟨hboot, p, hp, hsame.symm.trans hstart, ?_⟩
    by_contra hp
    rw [hexited (by simpa using hp)] at hrunning
    cases hrunning
  · rw [hstart] at hfresh
    exact hfresh (hknown.born hboot)

/-! ## What a call knows -/

def Here (r : Receipt) (w : World) : Prop := w.boot = r.boot ∧ w.pidNamespace = r.pidNamespace

def Sound (r : Receipt) (w : World) : Phase → Prop
  | .readBoot => True
  | .readNamespace => w.boot = r.boot
  | .pidfdOpen => r.Here w
  | .poll process | .readStart process => r.Here w ∧ (process = r.birth ∨ r.Gone w)
  | .readOwner process | .readCmdline process _ | .sendSignal process | .awaitExit process =>
    r.Here w ∧ process = r.birth
  | .inspectCgroup sameBoot => r.Ended w ∧ if sameBoot then r.Here w else w.boot ≠ r.boot
  | .readEvents | .removeDir =>
    r.Ended w ∧ r.Here w ∧ ∃ g, w.cgroups r.cgroup = some g ∧ g.inode = r.cgroupInode

lemma Sound.evolves {phase : Phase} (hknown : r.Known ids w) (hsound : r.Sound w phase)
    (h : w.Evolves w') (hns : w'.pidNamespace = w.pidNamespace) : r.Sound w' phase := by
  have hhere : r.Here w → r.Here w' := fun hhere => ⟨h.boot.trans hhere.1, hns.trans hhere.2⟩
  cases phase with
  | readBoot => trivial
  | readNamespace => exact h.boot.trans hsound
  | pidfdOpen => exact hhere hsound
  | poll process | readStart process => exact ⟨hhere hsound.1, hsound.2.imp_right (·.evolves hknown h)⟩
  | readOwner process | readCmdline process uid | sendSignal process | awaitExit process =>
    exact ⟨hhere hsound.1, hsound.2⟩
  | inspectCgroup sameBoot =>
    refine ⟨hsound.1.evolves hknown h, ?_⟩
    cases sameBoot with
    | false => exact fun hboot => hsound.2 (h.boot.symm.trans hboot)
    | true => exact hhere hsound.2
  | readEvents | removeDir =>
    obtain ⟨hended, hboot, g, hg, hinode⟩ := hsound
    obtain ⟨tasks, hg'⟩ := h.cgroups _ _ hg
    exact ⟨hended.evolves hknown h, hhere hboot, _, hg', hinode⟩

/-- Signals and removals only concern the process and the cgroup of the receipt. -/
structure Precise (ids : Ids) (r : Receipt) (w : World) : Prop where
  known : r.Known ids w
  signalled : ∀ birth ∈ w.signalled, birth = r.birth
  removed : ∀ x ∈ w.removed, x.boot = r.boot ∧ x.cgroup.inode = r.cgroupInode ∧ x.cgroup.tasks = 0

lemma Precise.evolves (hprecise : r.Precise ids w) (h : w.Evolves w') : r.Precise ids w' where
  known := hprecise.known.evolves h
  signalled := by
    rw [h.signalled]
    exact hprecise.signalled
  removed := by
    rw [h.removed]
    exact hprecise.removed

def Settled (r : Receipt) (w : World) : Prop :=
  r.Ended w ∧ w.cgroups r.cgroup = none ∧ (w.boot = r.boot → w.pidNamespace = r.pidNamespace)

def Next.Sound (r : Receipt) (w : World) : Next → Prop
  | .go phase => r.Sound w phase
  | .done result => result = .ok () → r.Settled w

variable {runtime : Text} {expired : Bool} {phase : Phase}

lemma sound_pidfdOpen {p : Process} (hsound : r.Sound w .pidfdOpen) (hp : w.process r.pid = some p) :
    r.Sound w (.poll ⟨w.boot, w.pidNamespace, r.pid, p.start⟩) := by
  refine ⟨hsound, ?_⟩
  rw [process, hsound.2] at hp
  by_cases hstart : p.start = r.start
  · left
    rw [hsound.1, hsound.2, hstart, birth]
  · right
    intro _ q hq
    cases hp.symm.trans hq
    exact hstart

lemma sound_readStart {start : Option ℕ} (hsound : r.Sound w (.readStart process))
    (hread : processStart w r.pid = .ok start) :
    r.Sound w (if start = some r.start then .readOwner process else .inspectCgroup true) := by
  obtain ⟨hhere, hprocess⟩ := hsound
  unfold processStart World.process at hread
  rw [hhere.2] at hread
  split_ifs with hstart
  · refine ⟨hhere, hprocess.resolve_right fun hgone => ?_⟩
    split at hread
    · cases hread
      cases hstart
    · rename_i p hp
      split_ifs at hread
      cases hread
      exact hgone hhere.1 p hp (some.inj hstart)
  · refine ⟨?_, hhere⟩
    rintro ⟨-, p, hp, hsame, -⟩
    rw [show w.processes r.pidNamespace r.pid = some p from hp] at hread
    dsimp only at hread
    split_ifs at hread
    cases hread
    exact hstart (congrArg some hsame)

lemma not_running_of_sound (hprocess : process = r.birth ∨ r.Gone w)
    (h : ¬w.Running process) : r.Ended w := by
  rcases hprocess with rfl | hgone
  · exact h
  · exact hgone.ended

lemma advance_sound (hprecise : r.Precise ids w) (hsound : r.Sound w phase) :
    r.Precise ids (r.advance ids runtime expired w phase).1 ∧
      Next.Sound r (r.advance ids runtime expired w phase).1 (r.advance ids runtime expired w phase).2 := by
  cases phase <;> simp only [advance]
  case readBoot =>
    cases hboot : bootId ids w with
    | error e => exact ⟨hprecise, nofun⟩
    | ok boot =>
    have hsame : boot = w.boot := by
      unfold bootId at hboot
      split at hboot <;> cases hboot
      rfl
    subst hsame
    refine ⟨hprecise, ?_⟩
    dsimp only
    split_ifs with hboot
    · exact hboot.symm
    · exact ⟨fun hrunning => hboot hrunning.1.symm, Ne.symm hboot⟩
  case readNamespace =>
    split_ifs with hns
    · exact ⟨hprecise, nofun⟩
    · exact ⟨hprecise, hsound, (not_not.mp hns).symm⟩
  case pidfdOpen =>
    cases hp : w.process r.pid with
    | none =>
      refine ⟨hprecise, ?_, hsound⟩
      rintro ⟨-, p, hp', -⟩
      rw [World.process, hsound.2] at hp
      cases hp.symm.trans hp'
    | some p => exact ⟨hprecise, sound_pidfdOpen hsound hp⟩
  case poll process =>
    refine ⟨hprecise, ?_⟩
    split_ifs with hrunning
    · exact hsound
    · exact ⟨not_running_of_sound hsound.2 hrunning, hsound.1⟩
  case readStart process =>
    cases hread : processStart w r.pid with
    | error e => exact ⟨hprecise, nofun⟩
    | ok start => exact ⟨hprecise, sound_readStart hsound hread⟩
  case readOwner process =>
    cases w.process r.pid with
    | none => exact ⟨hprecise, nofun⟩
    | some p => exact ⟨hprecise, hsound⟩
  case readCmdline process uid =>
    cases w.process r.pid with
    | none => exact ⟨hprecise, nofun⟩
    | some p =>
    dsimp only
    split_ifs
    · exact ⟨hprecise, nofun⟩
    · exact ⟨hprecise, hsound⟩
  case sendSignal process =>
    refine ⟨⟨⟨hprecise.known.boot, hprecise.known.fresh, hprecise.known.born, hprecise.known.start,
      hprecise.known.bootId⟩, ?_, hprecise.removed⟩, hsound⟩
    intro birth hbirth
    rcases mem_append.mp hbirth with hbirth | hbirth
    · exact hprecise.signalled birth hbirth
    · rw [mem_singleton.mp hbirth]
      exact hsound.2
  case awaitExit process =>
    split_ifs with hrunning
    · exact ⟨hprecise, nofun⟩
    · exact ⟨hprecise, hsound⟩
    · exact ⟨hprecise, not_running_of_sound (.inl hsound.2) hrunning, hsound.1⟩
  case inspectCgroup sameBoot =>
    cases hg : w.cgroups r.cgroup with
    | none =>
      refine ⟨hprecise, fun _ => ⟨hsound.1, hg, fun hboot => ?_⟩⟩
      cases sameBoot with
      | false => exact absurd hboot hsound.2
      | true => exact hsound.2.2
    | some g =>
    dsimp only
    split_ifs with hother
    · exact ⟨hprecise, nofun⟩
    · simp only [Bool.or_eq_true, not_or, decide_eq_true_eq, not_not] at hother
      obtain ⟨⟨hboot, -⟩, hinode⟩ := hother
      have hsame : sameBoot = true := by simpa using hboot
      subst hsame
      exact ⟨hprecise, hsound.1, hsound.2, g, hg, hinode⟩
  case readEvents =>
    cases hg : w.cgroups r.cgroup with
    | none => exact ⟨hprecise, nofun⟩
    | some g =>
    dsimp only
    split_ifs
    · exact ⟨hprecise, nofun⟩
    · exact ⟨hprecise, hsound⟩
  case removeDir =>
  obtain ⟨hended, hhere, g, hg, hinode⟩ := hsound
  rw [hg]
  dsimp only
  split_ifs with hempty
  · simp only [Bool.and_eq_true, decide_eq_true_eq] at hempty
    refine ⟨⟨⟨hprecise.known.boot, hprecise.known.fresh, hprecise.known.born, hprecise.known.start,
      hprecise.known.bootId⟩, hprecise.signalled, ?_⟩, fun _ => ⟨hended, ?_, fun _ => hhere.2⟩⟩
    · intro x hx
      rcases mem_append.mp hx with hx | hx
      · exact hprecise.removed x hx
      · rw [mem_singleton.mp hx]
        exact ⟨hhere.1, hinode, hempty.2⟩
    · simp [setCgroup]
  · exact ⟨hprecise, nofun⟩

lemma fail_sound (hsound : r.Sound w phase) : Next.Sound r w (fail phase) := by
  cases phase with
  | poll process => exact hsound
  | _ => exact nofun

/-! ## The same again -/

def Final (r : Receipt) (w : World) : Phase → Prop
  | .readStart _ => r.Gone w
  | .readBoot | .readNamespace | .pidfdOpen | .poll _ | .inspectCgroup _ => True
  | _ => False

def left : Phase → ℕ
  | .readBoot => 6
  | .readNamespace => 5
  | .pidfdOpen => 4
  | .poll _ => 3
  | .readStart _ => 2
  | _ => 1

lemma Final.evolves (hknown : r.Known ids w) (hfinal : r.Final w phase) (h : w.Evolves w') :
    r.Final w' phase := by
  cases phase with
  | readStart process => exact Gone.evolves hknown hfinal h
  | _ => exact hfinal

lemma advance_settled (runtime : Text) (expired : Bool) (hknown : r.Known ids w) (hsettled : r.Settled w) (hsound : r.Sound w phase)
    (hfinal : r.Final w phase) : (r.advance ids runtime expired w phase).1 = w ∧
      ((r.advance ids runtime expired w phase).2 = .done (.ok ()) ∨
        ∃ phase', (r.advance ids runtime expired w phase).2 = .go phase' ∧ r.Final w phase' ∧
          left phase' < left phase) := by
  cases phase with
  | readBoot =>
    have hboot : bootId ids w = .ok w.boot := by
      obtain ⟨id, hid⟩ := isSome_iff_exists.mp hknown.bootId
      rw [bootId, hid]
    simp only [advance]
    rw [hboot]
    refine ⟨rfl, .inr ⟨_, rfl, ?_⟩⟩
    split_ifs
    · exact ⟨trivial, by simp [left]⟩
    · exact ⟨trivial, by simp [left]⟩
  | readNamespace =>
    simp only [advance]
    rw [if_neg (not_not.mpr (hsettled.2.2 hsound).symm)]
    exact ⟨rfl, .inr ⟨_, rfl, trivial, by simp [left]⟩⟩
  | pidfdOpen =>
    simp only [advance]
    cases w.process r.pid with
    | none => exact ⟨rfl, .inr ⟨_, rfl, trivial, by simp [left]⟩⟩
    | some p => exact ⟨rfl, .inr ⟨_, rfl, trivial, by simp [left]⟩⟩
  | poll process =>
    refine ⟨rfl, .inr ⟨_, rfl, ?_⟩⟩
    split_ifs with hrunning
    · refine ⟨hsound.2.resolve_left ?_, by simp [left]⟩
      rintro rfl
      exact hsettled.1 hrunning
    · exact ⟨trivial, by simp [left]⟩
  | readStart process =>
    have hread : ∃ start, processStart w r.pid = .ok start ∧ start ≠ some r.start := by
      unfold processStart World.process
      rw [hsound.1.2]
      cases hp : w.processes r.pidNamespace r.pid with
      | none => exact ⟨none, rfl, nofun⟩
      | some p =>
        refine ⟨some p.start, if_neg (hknown.start hsound.1.1 p hp), fun hstart => ?_⟩
        exact hfinal hsound.1.1 p hp (some.inj hstart)
    obtain ⟨start, hread, hne⟩ := hread
    simp only [advance]
    rw [hread]
    dsimp only
    rw [if_neg hne]
    exact ⟨rfl, .inr ⟨_, rfl, trivial, by simp [left]⟩⟩
  | inspectCgroup sameBoot =>
    simp only [advance]
    rw [hsettled.2.1]
    exact ⟨rfl, .inl rfl⟩
  | _ => exact hfinal.elim

end Receipt

/-! ## Runs -/

lemma change_pidNamespace (h : w.change ids busy event = some w')
    (hreboot : ∀ boot ns, event ≠ .reboot boot ns) (hrestart : ∀ ns, event ≠ .restart ns) :
    w'.pidNamespace = w.pidNamespace := by
  cases event with
  | reboot boot ns => exact absurd rfl (hreboot boot ns)
  | restart ns => exact absurd rfl (hrestart ns)
  | exit | become | enter =>
    obtain ⟨_, -, rfl⟩ := map_eq_some_iff.mp h
    rfl
  | reap ns pid =>
    obtain ⟨p, -, h⟩ := bind_eq_some_iff.mp h
    split_ifs at h
    cases h
    rfl
  | spawn | create =>
    simp only [change] at h
    split_ifs at h
    cases h
    rfl
  | call | advance | fail => cases h

lemma change_absent (path : Text) (h : w.change ids busy event = some w')
    (hcreate : ∀ inode, event ≠ .create path inode) (habsent : w.cgroups path = none) :
    w'.cgroups path = none := by
  cases event with
  | create cgroup inode =>
    simp only [change] at h
    split_ifs at h
    cases h
    simp only [setCgroup]
    rw [if_neg, habsent]
    rintro rfl
    exact hcreate inode rfl
  | enter cgroup tasks =>
    obtain ⟨g, hg, rfl⟩ := map_eq_some_iff.mp h
    simp only [setCgroup]
    rw [if_neg, habsent]
    rintro rfl
    cases habsent.symm.trans hg
  | exit | become =>
    obtain ⟨_, -, rfl⟩ := map_eq_some_iff.mp h
    exact habsent
  | reap ns pid =>
    obtain ⟨p, -, h⟩ := bind_eq_some_iff.mp h
    split_ifs at h
    cases h
    exact habsent
  | spawn | reboot =>
    simp only [change] at h
    split_ifs at h
    cases h
    first | exact habsent | rfl
  | restart ns =>
    cases h
    exact habsent
  | call | advance | fail => cases h

lemma change_reboot {boot : Text} {ns : ℕ} (hprecise : r.Precise ids w)
    (h : w.change ids busy (.reboot boot ns) = some w') : r.Precise ids w' ∧ w'.boot ≠ r.boot := by
  simp only [change] at h
  split_ifs at h with hused
  cases h
  push Not at hused
  have hne : boot ≠ r.boot := by
    rintro rfl
    rcases hprecise.known.boot with hboot | hearlier
    · exact hused.1 hboot.symm
    · exact hused.2.1 hearlier
  refine ⟨⟨⟨.inr ?_, ?_, fun hboot => absurd hboot hne, fun hboot => absurd hboot hne, ?_⟩,
    hprecise.signalled, hprecise.removed⟩, hne⟩
  · rcases hprecise.known.boot with hboot | hearlier
    · rw [hboot]
      exact .head _
    · exact .tail _ hearlier
  · simpa using ⟨hused.1, hused.2.1⟩
  · exact isSome_iff_ne_none.mpr hused.2.2

structure System.Precise (ids : Ids) (r : Receipt) (s : System) : Prop where
  world : r.Precise ids s.world
  call : ∀ runtime phase, s.call = some (runtime, phase) → r.Sound s.world phase

structure System.Settled (ids : Ids) (r : Receipt) (s : System) : Prop extends s.Precise ids r where
  settled : r.Settled s.world
  final : ∀ runtime phase, s.call = some (runtime, phase) → r.Final s.world phase

variable {s s' : System}

inductive System.Stepped (ids : Ids) (r : Receipt) (s : System) : Event → System → Prop
  | changed {event : Event} {w : World} (h : s.world.change ids s.call.isSome event = some w)
      (hreboot : ∀ boot ns, event ≠ .reboot boot ns) (hrestart : ∀ ns, event ≠ .restart ns) :
      Stepped ids r s event { s with world := w }
  | rebooted {boot : Text} {ns : ℕ} {w : World}
      (h : s.world.change ids s.call.isSome (.reboot boot ns) = some w) :
      Stepped ids r s (.reboot boot ns) { s with world := w, call := none }
  | restarted {ns : ℕ} :
      Stepped ids r s (.restart ns) { s with world := { s.world with pidNamespace := ns }, call := none }
  | called {caller : Caller} {request : Request} :
      Stepped ids r s (.call caller request) { s with call := some (request.runtime, .readBoot) }
  | refused {caller : Caller} {request : Request} (h : r.accepts ids caller request = false) :
      Stepped ids r s (.call caller request)
        { s with results := s.results ++ [.error (failure "receipt ownership mismatch".toList)] }
  | advanced {expired : Bool} {runtime : Text} {phase : Phase} (h : s.call = some (runtime, phase)) :
      Stepped ids r s (.advance expired) (s.finish (r.advance ids runtime expired s.world phase).1 runtime
        (r.advance ids runtime expired s.world phase).2)
  | failed {runtime : Text} {phase : Phase} (h : s.call = some (runtime, phase)) :
      Stepped ids r s .fail (s.finish s.world runtime (Receipt.fail phase))

lemma step_cases (h : s.step ids r event = some s') : s.Stepped ids r event s' := by
  cases event with
  | call caller request =>
    simp only [System.step] at h
    split_ifs at h with hbusy haccepts <;> cases h
    · exact .called
    · exact .refused (by simpa using haccepts)
  | advance expired =>
    obtain ⟨⟨runtime, phase⟩, hcall, rfl⟩ := map_eq_some_iff.mp h
    exact .advanced hcall
  | fail =>
    obtain ⟨⟨runtime, phase⟩, hcall, rfl⟩ := map_eq_some_iff.mp h
    exact .failed hcall
  | reboot boot ns =>
    obtain ⟨w, hw, rfl⟩ := map_eq_some_iff.mp h
    exact .rebooted hw
  | restart ns =>
    cases h
    exact .restarted
  | exit | reap | spawn | become | enter | create =>
    obtain ⟨w, hw, rfl⟩ := map_eq_some_iff.mp h
    exact .changed hw nofun nofun

variable {runtime : Text} {next : Next}

lemma finish_precise (hworld : r.Precise ids w)
    (hnext : Receipt.Next.Sound r w next) : (s.finish w runtime next).Precise ids r := by
  cases next with
  | go phase =>
    refine ⟨hworld, ?_⟩
    rintro runtime' phase' ⟨⟩
    exact hnext
  | done result => exact ⟨hworld, nofun⟩

lemma finish_ok (hnext : Receipt.Next.Sound r w next)
    (hok : (s.finish w runtime next).results = s.results ++ [.ok ()]) :
    r.Settled (s.finish w runtime next).world := by
  cases next with
  | go phase => simp [System.finish] at hok
  | done result => exact hnext (by simpa [System.finish] using hok)

lemma restart_evolves (w : World) (ns : ℕ) : w.Evolves { w with pidNamespace := ns } :=
  change_evolves (show w.change ⟨fun _ => none, fun _ => []⟩ false (.restart ns) = _ from rfl) nofun

open Receipt

lemma step_precise (hprecise : s.Precise ids r) (h : s.step ids r event = some s') :
    s'.Precise ids r ∧ (s'.results = s.results ++ [.ok ()] → r.Settled s'.world) := by
  have hsame : s.results ≠ s.results ++ [.ok ()] := by simp
  cases step_cases h with
  | changed hw hreboot hrestart =>
    have hevolves := change_evolves hw hreboot
    refine ⟨⟨hprecise.world.evolves hevolves, ?_⟩, fun hok => absurd hok hsame⟩
    intro runtime phase hcall
    exact (hprecise.call runtime phase hcall).evolves hprecise.world.known hevolves
      (change_pidNamespace hw hreboot hrestart)
  | rebooted hw => exact ⟨⟨(change_reboot hprecise.world hw).1, nofun⟩, fun hok => absurd hok hsame⟩
  | restarted =>
    exact ⟨⟨hprecise.world.evolves (restart_evolves _ _), nofun⟩, fun hok => absurd hok hsame⟩
  | called =>
    refine ⟨⟨hprecise.world, ?_⟩, fun hok => absurd hok hsame⟩
    rintro runtime phase ⟨⟩
    trivial
  | refused _ => exact ⟨⟨hprecise.world, hprecise.call⟩, fun hok => by simp at hok⟩
  | advanced hcall =>
    obtain ⟨hworld, hnext⟩ := advance_sound hprecise.world (hprecise.call _ _ hcall)
    exact ⟨finish_precise hworld hnext, finish_ok hnext⟩
  | failed hcall =>
    have hnext := fail_sound (hprecise.call _ _ hcall)
    exact ⟨finish_precise hprecise.world hnext, finish_ok hnext⟩

/-- The same caller again: no other failure, no new cgroup in the place, the namespace as before. -/
def Undisturbed (ids : Ids) (r : Receipt) (s : System) : Event → Prop
  | .fail => False
  | .create cgroup _ => cgroup ≠ r.cgroup
  | .restart ns => ns = s.world.pidNamespace
  | .call caller request => r.accepts ids caller request = true
  | _ => True

lemma Receipt.Settled.evolves (hknown : r.Known ids w) (hsettled : r.Settled w) (h : w.Evolves w')
    (hns : w'.pidNamespace = w.pidNamespace) (habsent : w'.cgroups r.cgroup = none) : r.Settled w' := by
  refine ⟨hsettled.1.evolves hknown h, habsent, fun hboot => ?_⟩
  rw [hns]
  exact hsettled.2.2 (h.boot.symm.trans hboot)

lemma advance_step (expired : Bool) {phase : Phase} (hsettled : s.Settled ids r)
    (hcall : s.call = some (runtime, phase)) :
    s.finish (r.advance ids runtime expired s.world phase).1 runtime
        (r.advance ids runtime expired s.world phase).2 =
      { s with call := none, results := s.results ++ [.ok ()] } ∨
    ∃ phase', s.finish (r.advance ids runtime expired s.world phase).1 runtime
        (r.advance ids runtime expired s.world phase).2 = { s with call := some (runtime, phase') } ∧
      r.Final s.world phase' ∧ Receipt.left phase' < Receipt.left phase := by
  obtain ⟨hworld, hdone | ⟨phase', hgo, hfinal, hleft⟩⟩ := advance_settled runtime expired
    hsettled.world.known hsettled.settled (hsettled.call _ _ hcall) (hsettled.final _ _ hcall)
  · left
    rw [hworld, hdone]
    rfl
  · right
    rw [hworld, hgo]
    exact ⟨phase', rfl, hfinal, hleft⟩

lemma step_settled (hsettled : s.Settled ids r) (hundisturbed : Undisturbed ids r s event)
    (h : s.step ids r event = some s') :
    s'.Settled ids r ∧ (s'.results = s.results ∨ s'.results = s.results ++ [.ok ()]) := by
  have hprecise' := (step_precise hsettled.toPrecise h).1
  have hknown := hsettled.world.known
  cases step_cases h with
  | changed hw hreboot hrestart =>
    have hevolves := change_evolves hw hreboot
    have habsent := change_absent r.cgroup hw (by rintro inode rfl; exact hundisturbed rfl)
      hsettled.settled.2.1
    refine ⟨⟨hprecise', ?_, ?_⟩, .inl rfl⟩
    · exact hsettled.settled.evolves hknown hevolves (change_pidNamespace hw hreboot hrestart) habsent
    · exact fun runtime phase hcall => (hsettled.final runtime phase hcall).evolves hknown hevolves
  | rebooted hw =>
    have hboot := (change_reboot hsettled.world hw).2
    refine ⟨⟨hprecise', ⟨fun hrunning => hboot hrunning.1, ?_, fun hsame => absurd hsame hboot⟩, nofun⟩, .inl rfl⟩
    exact change_absent r.cgroup hw nofun hsettled.settled.2.1
  | restarted =>
    cases hundisturbed
    exact ⟨⟨hprecise', hsettled.settled, nofun⟩, .inl rfl⟩
  | called =>
    refine ⟨⟨hprecise', hsettled.settled, ?_⟩, .inl rfl⟩
    rintro runtime phase ⟨⟩
    trivial
  | refused hrefused => cases hrefused.symm.trans hundisturbed
  | @advanced expired runtime phase hcall =>
    rcases advance_step expired hsettled hcall with hdone | ⟨phase', hgo, hfinal, -⟩
    · rw [hdone] at hprecise' ⊢
      exact ⟨⟨hprecise', hsettled.settled, nofun⟩, .inr rfl⟩
    · rw [hgo] at hprecise' ⊢
      refine ⟨⟨hprecise', hsettled.settled, ?_⟩, .inl rfl⟩
      rintro runtime' phase'' ⟨⟩
      exact hfinal
  | failed hcall => exact hundisturbed.elim

lemma run_settled {events : List Event} (hsettled : s.Settled ids r)
    (h : ((confirmation ids r).when (Undisturbed ids r)).Run s events s') :
    s'.Settled ids r ∧ ∃ later, s'.results = s.results ++ later ∧ ∀ x ∈ later, x = .ok () := by
  induction h with
  | nil s => exact ⟨hsettled, [], by simp, by simp⟩
  | cons hstep _ ih =>
  obtain ⟨hsettled', hresults⟩ := step_settled hsettled hstep.2 hstep.1
  obtain ⟨hend, later, hlater, hok⟩ := ih hsettled'
  rcases hresults with hresults | hresults
  · exact ⟨hend, later, by rw [hlater, hresults], hok⟩
  · refine ⟨hend, .ok () :: later, by rw [hlater, hresults]; simp, ?_⟩
    simpa using hok

lemma settled_returns (n : ℕ) {phase : Phase} (hsettled : s.Settled ids r)
    (hcall : s.call = some (runtime, phase)) (hn : left phase ≤ n) :
    ∃ m s', (confirmation ids r).Run s (List.replicate m (.advance false)) s' ∧
      s'.results = s.results ++ [.ok ()] := by
  induction n generalizing s phase with
  | zero => cases phase <;> simp [left] at hn
  | succ n ih =>
  have hstep : s.step ids r (.advance false) =
      some (s.finish (r.advance ids runtime false s.world phase).1 runtime
        (r.advance ids runtime false s.world phase).2) := by
    simp only [System.step, hcall, map_some]
  have hundisturbed : Undisturbed ids r s (.advance false) := trivial
  have hsettled' := (step_settled hsettled hundisturbed hstep).1
  rcases advance_step false hsettled hcall with hdone | ⟨phase', hgo, -, hleft⟩
  · rw [hdone] at hstep
    exact ⟨1, _, .cons hstep (.nil _), rfl⟩
  · rw [hgo] at hstep hsettled'
    obtain ⟨m, s', hrun, hok⟩ := ih hsettled' rfl (by omega)
    exact ⟨m + 1, s', .cons hstep hrun, hok⟩

/-- A host on which every process was born in this boot, and nothing was signalled or removed. -/
structure World.Fresh (w : World) : Prop where
  boot : w.boot ∉ w.earlier
  born : ∀ ns pid p, w.processes ns pid = some p → (ns, pid, p.start) ∈ w.births
  signalled : w.signalled = []
  removed : w.removed = []

variable {cgroup : Text} {info : VmInfo}

lemma capture_eq_ok (h : capture ids w info cgroup = .ok r) :
    r.boot = w.boot ∧ r.pidNamespace = w.pidNamespace ∧ (ids.parse w.boot).isSome ∧
      ∃ p, w.processes w.pidNamespace r.pid = some p ∧ p.start = r.start ∧ p.start ≠ 0 := by
  unfold capture at h
  cases hpid : info.pid with
  | none => simp [hpid, bind, Except.bind] at h
  | some pid =>
  cases hp : w.process pid with
  | none => simp [hpid, processStart, hp, bind, Except.bind] at h
  | some p =>
  by_cases hstart : p.start = 0
  · simp [hpid, processStart, hp, hstart, bind, Except.bind] at h
  cases hg : w.cgroups cgroup with
  | none => simp [hpid, processStart, hp, hstart, hg, bind, Except.bind] at h
  | some g =>
    cases hid : ids.parse w.boot with
    | none => simp [hpid, processStart, hp, hstart, hg, bootId, hid, bind, Except.bind] at h; split at h <;> cases h
    | some id =>
      simp [hpid, processStart, hp, hstart, hg, bootId, hid, bind, Except.bind] at h
      split at h <;> cases h
      · exact ⟨rfl, rfl, rfl, p, hp, rfl, hstart⟩

lemma start_precise (hfresh : w.Fresh)
    (h : capture ids w info cgroup = .ok r) : (System.start w).Precise ids r := by
  obtain ⟨hboot, hns, hid, p, hp, hstart, hne⟩ := capture_eq_ok h
  refine ⟨⟨⟨.inl hboot.symm, hfresh.boot, fun _ => ?_, fun _ q hq => ?_, hid⟩, ?_, ?_⟩, nofun⟩
  · rw [hns, ← hstart]
    exact hfresh.born _ _ p hp
  · rw [hns] at hq
    cases hp.symm.trans hq
    exact hne
  · simp [System.start, hfresh.signalled]
  · simp [System.start, hfresh.removed]

/-- In every run after a receipt was captured only its process is ever signalled and only its empty
cgroup removed.  When Ok is returned both are gone, and another call returns Ok again. -/
theorem confirm_is_precise {info : VmInfo} {cgroup : Text} {events : List Event} (hfresh : w.Fresh)
    (hcapture : Receipt.capture ids w info cgroup = .ok r)
    (hrun : (confirmation ids r).Run (.start w) events s) :
    (∀ birth ∈ s.world.signalled, birth = r.birth) ∧
      (∀ x ∈ s.world.removed,
        x.boot = r.boot ∧ x.cgroup.inode = r.cgroupInode ∧ x.cgroup.tasks = 0) ∧
      ∀ event s', (confirmation ids r).step s event s' → s'.results = s.results ++ [.ok ()] →
        r.Ended s'.world ∧ s'.world.cgroups r.cgroup = none ∧
          ∀ events' s'', ((confirmation ids r).when (Undisturbed ids r)).Run s' events' s'' →
            (∃ later, s''.results = s'.results ++ later ∧ ∀ x ∈ later, x = .ok ()) ∧
              (s''.call.isSome → ∃ n t, (confirmation ids r).Run s'' (List.replicate n (.advance false)) t ∧
                t.results = s''.results ++ [.ok ()]) := by
  have hprecise : s.Precise ids r :=
    hrun.invariant (start_precise hfresh hcapture) fun s event s' h hstep => (step_precise h hstep).1
  refine ⟨hprecise.world.signalled, hprecise.world.removed, fun event s' hstep hok => ?_⟩
  obtain ⟨hprecise', hsettles⟩ := step_precise hprecise hstep
  have hworld := hsettles hok
  have hidle : s'.call = none := by
    cases step_cases hstep with
    | changed | rebooted | restarted | called | refused => simp at hok
    | advanced hcall | failed hcall =>
    unfold System.finish at hok ⊢
    split at hok
    · simp at hok
    · rfl
  have hsettled : s'.Settled ids r := ⟨hprecise', hworld, by rw [hidle]; exact nofun⟩
  refine ⟨hworld.1, hworld.2.1, fun events' s'' hrun' => ?_⟩
  obtain ⟨hsettled'', hlater⟩ := run_settled hsettled hrun'
  refine ⟨hlater, fun hcall => ?_⟩
  obtain ⟨⟨runtime, phase⟩, hcall⟩ := isSome_iff_exists.mp hcall
  exact settled_returns _ hsettled'' hcall le_rfl

/-! ## Samples -/

def sampleId : Text := "7c9e6679-7425-40de-944b-e07fc1f90ae7".toList

def sampleIds : Ids := ⟨fun text => if text = sampleId then some 1 else none, fun _ => sampleId⟩

def sampleWorld : World where
  boot := sampleId
  earlier := []
  pidNamespace := 4026531836
  processes := fun ns pid =>
    if ns = 4026531836 ∧ pid = 77 then
      some ⟨500, 0, ("--api-sock".toList ++ Char.ofNat 0 :: "/run/".toList) ++ sampleId ++ ".sock".toList, false⟩
    else none
  births := [(4026531836, 77, 500)]
  cgroups := fun path => if path = "/sys/fs/cgroup/vm".toList then some ⟨true, 12, 1⟩ else none
  inodes := [12]
  signalled := []
  removed := []

def sampleReceipt : Receipt where
  version := 1
  id := 1
  name := "job-".toList ++ sampleId
  cid := 3
  boot := sampleId
  pid := 77
  start := 500
  uid := 0
  pidNamespace := 4026531836
  cgroup := "/sys/fs/cgroup/vm".toList
  cgroupInode := 12

/-- The process is signalled and exits, its pid is used again at once, and the cgroup goes. -/
def sampleEvents : List Event :=
  [.call ⟨0, 1⟩ ⟨1, "job-".toList ++ sampleId, 3, "/run".toList, "/sys/fs/cgroup/vm".toList⟩] ++
    List.replicate 8 (.advance false) ++
    [.exit 4026531836 77, .reap 4026531836 77, .spawn 4026531836 77 ⟨900, 0, [], false⟩,
      .enter "/sys/fs/cgroup/vm".toList 0] ++
    List.replicate 3 (.advance false)

theorem sample_confirmed :
    ∃ s, (confirmation sampleIds sampleReceipt).Run (.start sampleWorld) sampleEvents s ∧
      s.world.signalled = [sampleReceipt.birth] ∧
      (∀ birth ∈ s.world.signalled, birth = sampleReceipt.birth) ∧
      ∃ s', (confirmation sampleIds sampleReceipt).step s (.advance false) s' ∧
        sampleReceipt.Ended s'.world ∧ s'.world.cgroups sampleReceipt.cgroup = none := by
  have hrun : ∃ s, (confirmation sampleIds sampleReceipt).Run (.start sampleWorld) sampleEvents s ∧
      (s.world.signalled = [sampleReceipt.birth] ∧ s.results = [] ∧
        ((s.step sampleIds sampleReceipt (.advance false)).map System.results) = some [.ok ()]) := by
    apply Machine.exists_run_ofStep
    decide +kernel
  obtain ⟨s, hrun, hsignalled, hresults, hok⟩ := hrun
  obtain ⟨s', hstep, hok⟩ := map_eq_some_iff.mp hok
  have hcapture : capture sampleIds sampleWorld
      ⟨1, "job-".toList ++ sampleId, some 77, 3⟩ "/sys/fs/cgroup/vm".toList = .ok sampleReceipt := by
    decide +kernel
  have hfresh : sampleWorld.Fresh := by
    refine ⟨not_mem_nil, fun ns pid p hp => ?_, rfl, rfl⟩
    simp only [sampleWorld] at hp ⊢
    split_ifs at hp with hpid
    cases hp
    simp [hpid]
  obtain ⟨hall, -, hreturns⟩ := confirm_is_precise hfresh hcapture hrun
  have hends := hreturns (.advance false) s' hstep (by rw [hok, hresults]; rfl)
  exact ⟨s, hrun, hsignalled, hall, s', hstep, hends.1, hends.2.1⟩

end Husker.Vmm
