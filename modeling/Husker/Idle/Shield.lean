import Husker.Idle.Sessions

/-! # No suspend under a session

A tick that has found no session open suspends the VM some steps later.  When no session begins on
the VM in between, the VM has none when the suspension begins.
-/
namespace Husker.Idle
open List Option Function

open Idle.Core Idle.Task

section
open Relational Store

set_option linter.unusedSectionVars false

variable {ι : Type} [DecidableEq ι] {c c' : Core ι} {t : ℕ} {a : Task ι} {id : ι}

def Task.Suspending : Task ι → ι → Prop
  | .cancel fresh _, id | .persist fresh _, id | .pause fresh _, id => fresh.id = id
  | _, _ => False

def Task.Pinning : Task ι → ι → Prop
  | .readyPin _ vm, id | .pin _ _ vm, id | .session vm, id => vm = id
  | _, _ => False

def Unraced (c : Core ι) (e : Event ι) : Prop :=
  ∀ t answer a id, e = .advance t answer → c.tasks t = some a → a.Pinning id →
    c.tasks.All fun b => ¬b.Suspending id

def unraced (ι : Type) [DecidableEq ι] : Machine (Core ι) (Event ι) := (interleaved ι).when Unraced

/-! ## The guards alive -/

def Core.pinsOf (c : Core ι) (t : ℕ) : List ι := (c.tasks t).elim [] Task.pins

structure Shielded (c : Core ι) : Prop where
  balanced : ∀ id, c.activeSessions id = c.guards.countP (·.2 = id)
  owned : ∀ t id, c.guards.count (t, id) = (c.pinsOf t).count id
  unpinned : c.tasks.All fun a => ∀ id, a.Suspending id → c.activeSessions id = 0
  begun : ∀ b ∈ c.begun, b.sessions = 0 ∧ b.guards = []

variable {answer : Answer}

namespace Shielded

lemma pinsOf_set (c : Core ι) (t u : ℕ) (a : Task ι) :
    (c.goto t a).pinsOf u = if u = t then a.pins else c.pinsOf u := by
  by_cases hu : u = t
  · subst hu
    simp [pinsOf, Core.goto]
  · simp [pinsOf, Core.goto, hu]

lemma pinsOf_clear (c : Core ι) (t u : ℕ) :
    (c.finish t).pinsOf u = if u = t then [] else c.pinsOf u := by
  by_cases hu : u = t
  · subst hu
    simp [pinsOf, Core.finish]
  · simp [pinsOf, Core.finish, hu]

lemma congr (h : Shielded c) (hsessions : c'.activeSessions = c.activeSessions)
    (hguards : c'.guards = c.guards) (htasks : c'.tasks = c.tasks) (hbegun : c'.begun = c.begun) :
    Shielded c' where
  balanced := by
    rw [hsessions, hguards]
    exact h.balanced
  owned := by
    unfold pinsOf
    rw [hguards, htasks]
    exact h.owned
  unpinned := by
    rw [htasks, hsessions]
    exact h.unpinned
  begun := by
    rw [hbegun]
    exact h.begun

lemma goto (h : Shielded c) (hpins : a.pins = c.pinsOf t)
    (hfree : ∀ id, a.Suspending id → c.activeSessions id = 0) : Shielded (c.goto t a) where
  balanced := h.balanced
  owned u id := by
    rw [pinsOf_set]
    split_ifs with hu
    · rw [hpins, hu]
      exact h.owned t id
    · exact h.owned u id
  unpinned := h.unpinned.set hfree
  begun := h.begun

lemma finish (h : Shielded c) (hpins : c.pinsOf t = []) : Shielded (c.finish t) where
  balanced := h.balanced
  owned u id := by
    rw [pinsOf_clear]
    split_ifs with hu
    · rw [← hpins, hu]
      exact h.owned t id
    · exact h.owned u id
  unpinned := h.unpinned.clear
  begun := h.begun

lemma count_cons_of {α : Type} [BEq α] [LawfulBEq α] [DecidableEq α] (x y : α) (l : List α) :
    (x :: l).count y = l.count y + if y = x then 1 else 0 := by
  by_cases hxy : y = x
  · simp [hxy]
  · simp [hxy, Ne.symm hxy]

lemma count_cons_pair {u : ℕ} {id' : ι} (l : List (ℕ × ι)) :
    ((t, id) :: l).count (u, id') = l.count (u, id') + if u = t ∧ id' = id then 1 else 0 := by
  simp only [count_cons_of, Prod.mk.injEq]

lemma pin (h : Shielded c) (hpins : a.pins = id :: c.pinsOf t) (ha : ∀ id, ¬a.Suspending id)
    (hfree : c.tasks.All fun b => ¬b.Suspending id) :
    Shielded ((c.beginSession t id).goto t a) where
  balanced id' := by
    simp only [Core.goto, beginSession, countP_cons]
    by_cases hid : id' = id
    · subst hid
      simp [h.balanced id']
    · rw [update_of_ne hid, h.balanced id']
      simp [Ne.symm hid]
  owned u id' := by
    rw [pinsOf_set]
    change ((t, id) :: c.guards).count (u, id') = _
    rw [count_cons_pair, h.owned u id']
    by_cases hu : u = t
    · rw [if_pos hu, hpins, count_cons_of, hu]
      simp only [true_and]
    · rw [if_neg hu, if_neg (fun hboth => hu hboth.1), Nat.add_zero]
      rfl
  unpinned := by
    refine Tasks.All.set ?_ fun id' hid' => absurd hid' (ha id')
    intro u b hb id' hid'
    have hne : id' ≠ id := by
      rintro rfl
      exact hfree u b hb hid'
    exact (update_of_ne hne _ _).trans (h.unpinned u b hb id' hid')
  begun := h.begun

lemma dropped (h : Shielded c) (hpins : id ∈ c.pinsOf t) (id' : ι) :
    (c.dropGuard t id).activeSessions id' = (c.dropGuard t id).guards.countP (·.2 = id') ∧
      (c.dropGuard t id).activeSessions id' ≤ c.activeSessions id' ∧
      ∀ u, c.guards.count (u, id') =
        (c.dropGuard t id).guards.count (u, id') + if u = t ∧ id' = id then 1 else 0 := by
  have hmem : (t, id) ∈ c.guards := by
    rw [← count_pos_iff, h.owned t id, count_pos_iff]
    exact hpins
  have hperm := perm_cons_erase hmem
  have hcount := h.balanced id'
  rw [hperm.countP_eq, countP_cons] at hcount
  refine ⟨?_, ?_, fun u => ?_⟩
  · simp only [dropGuard]
    by_cases hid : id' = id
    · subst hid
      rw [update_self, hcount]
      simp
    · rw [update_of_ne hid, hcount]
      simp [Ne.symm hid]
  · simp only [dropGuard]
    by_cases hid : id' = id
    · subst hid
      rw [update_self]
      omega
    · rw [update_of_ne hid]
  · rw [hperm.count_eq, count_cons_pair]
    rfl

lemma release (h : Shielded c) (hpins : (c.pinsOf t).Perm (id :: a.pins))
    (ha : ∀ id, ¬a.Suspending id) : Shielded ((c.dropGuard t id).goto t a) := by
  have hdropped := h.dropped (hpins.mem_iff.mpr (.head _))
  refine ⟨fun id' => (hdropped id').1, fun u id' => ?_, ?_, h.begun⟩
  · have hcount := (hdropped id').2.2 u
    rw [pinsOf_set]
    rw [h.owned u id'] at hcount
    by_cases hu : u = t
    · rw [hu, hpins.count_eq, count_cons_of] at hcount
      simp only [true_and] at hcount
      rw [if_pos hu, hu]
      exact (Nat.add_right_cancel hcount).symm
    · rw [if_neg (fun hboth => hu hboth.1), Nat.add_zero] at hcount
      rw [if_neg hu]
      exact hcount.symm
  · refine Tasks.All.set ?_ fun id' hid' => absurd hid' (ha id')
    intro u b hb id' hid'
    have hle := (hdropped id').2.1
    rw [h.unpinned u b hb id' hid'] at hle
    exact Nat.le_zero.mp hle

lemma leave (h : Shielded c) (hpins : c.pinsOf t = [id]) :
    Shielded ((c.dropGuard t id).finish t) := by
  -- as if it went to a place without guards first
  have hrelease : Shielded ((c.dropGuard t id).goto t .tick) := h.release (by rw [hpins]; rfl) nofun
  have hfinish := hrelease.finish (t := t) (by simp [pinsOf, Core.goto, pins])
  exact hfinish.congr rfl rfl (by simp [Core.finish, Core.goto]) rfl

variable {outer : Option ι} {name : String} {again : Bool}

lemma giveUp (h : Shielded c) (hpins : c.pinsOf t = outer.toList) :
    Shielded (c.giveUp t outer) := by
  cases outer with
  | none => exact h.finish hpins
  | some id => exact h.leave hpins

lemma retry (h : Shielded c)
    (hpins : c.pinsOf t = outer.toList) : Shielded (c.retry t outer name again) := by
  unfold Core.retry
  split_ifs
  · exact h.goto hpins.symm nofun
  · exact h.giveUp hpins

lemma retry_goto : (c.goto t a).retry t outer name again = c.retry t outer name again := by
  unfold Core.retry Core.giveUp
  cases outer with
  | none => simp [Core.goto, Core.finish]
  | some id =>
    split_ifs
    · simp [Core.goto]
    · simp [Core.goto, Core.finish, dropGuard]

lemma release_retry (h : Shielded c) (hpins : c.pinsOf t = id :: outer.toList) :
    Shielded ((c.dropGuard t id).retry t outer name again) := by
  have hrelease := h.release (a := .connect outer name) (by rw [hpins]; rfl) (nofun)
  rw [← retry_goto (a := .connect outer name)]
  exact hrelease.retry (by simp [pinsOf, Core.goto, pins])

lemma refreshNetworkActivity (h : Shielded c) (vm : VmRecord ι)
    (counters : String → Option (ℕ × ℕ)) : Shielded (c.refreshNetworkActivity vm counters) ∧
      (c.refreshNetworkActivity vm counters).tasks = c.tasks := by
  unfold Core.refreshNetworkActivity
  split
  · exact ⟨h, rfl⟩
  · dsimp only
    split_ifs
    · exact ⟨h.congr rfl rfl rfl rfl, rfl⟩
    · exact ⟨h.congr rfl rfl rfl rfl, rfl⟩

lemma takeLock (h : Shielded c) (hstep : c.takeLock t name a = some c')
    (hpins : a.pins = c.pinsOf t) (hfree : ∀ id, ¬a.Suspending id) : Shielded c' := by
  unfold Core.takeLock at hstep
  split_ifs at hstep
  cases hstep
  have hlocked : Shielded { c with lock := update c.lock name (some t) } :=
    h.congr rfl rfl rfl rfl
  exact hlocked.goto hpins fun id hid => absurd hid (hfree id)

lemma begin (h : Shielded c) (hid : c.activeSessions id = 0) : Shielded (c.begin id) where
  balanced := h.balanced
  owned := h.owned
  unpinned := h.unpinned
  begun b hb := by
    rcases mem_cons.mp hb with rfl | hb
    · refine ⟨hid, filter_eq_nil_iff.mpr ?_⟩
      exact countP_eq_zero.mp (h.balanced id ▸ hid)
    · exact h.begun b hb

lemma verdict_suspend {record : VmRecord ι} (h : c.verdict record = .suspend) :
    c.activeSessions record.id = 0 := by
  by_contra hne
  have hactive : decide (0 < c.activeSessions record.id) = true := by simp; omega
  rw [verdict, hactive, evaluatePolicy_active] at h
  cases h

section
variable (h : Shielded c)
include h

lemma goto_plain {b : Task ι} (ha : c.tasks t = some a) (hpins : a.pins = b.pins)
    (hfree : ∀ id, ¬b.Suspending id) : Shielded (c.goto t b) := by
  refine h.goto ?_ fun id hid => absurd hid (hfree id)
  simp [pinsOf, ha, hpins]

lemma finish_plain (ha : c.tasks t = some a) (hpins : a.pins = []) : Shielded (c.finish t) := by
  refine h.finish ?_
  simp [pinsOf, ha, hpins]

lemma advance_tick (ha : c.tasks t = some a)
    (htick : a.connecting = false) (hstep : c.advance t answer = some c') : Shielded c' := by
  have hunlocked : ∀ name, Shielded (c.unlock name) := fun _ => h.congr rfl rfl rfl rfl
  have hupdated : ∀ id f name, Shielded ((c.updateVm id f).unlock name) := fun _ _ _ =>
    h.congr rfl rfl rfl rfl
  have hsuspending := h.unpinned t a ha
  cases a <;> simp only [Core.advance, ha, some.injEq] at hstep
  case tick =>
    subst hstep
    split_ifs
    · exact h.finish_plain ha rfl
    · exact h.goto_plain ha rfl nofun
  case next todo =>
    cases todo with
    | nil =>
      obtain rfl := some.inj hstep
      exact h.finish_plain ha rfl
    | cons vm rest =>
    dsimp only at hstep
    split_ifs at hstep <;> cases hstep
    · exact h.goto_plain ha rfl nofun
    · obtain ⟨hrefreshed, htasks⟩ := h.refreshNetworkActivity vm answer.counters
      split
      all_goals exact hrefreshed.goto_plain ((congrFun htasks t).trans ha) rfl nofun
  case suspendLock vm rest | reapLock vm rest =>
    exact h.takeLock hstep (by simp [pinsOf, ha, pins]) nofun
  case reread vm rest =>
    split at hstep
    · cases hstep
      exact (hunlocked _).goto_plain ha rfl nofun
    next fresh _ =>
      cases hstep
      obtain ⟨hrefreshed, htasks⟩ := h.refreshNetworkActivity fresh answer.counters
      exact hrefreshed.goto_plain ((congrFun htasks t).trans ha) rfl nofun
  case judge fresh rest =>
    split_ifs at hstep with hverdict
    · cases hstep
      -- the only way into the window: the count was zero
      refine h.goto (by simp [pinsOf, ha, pins]) ?_
      rintro id rfl
      simp only [Bool.and_eq_true, decide_eq_true_iff] at hverdict
      exact verdict_suspend hverdict.1
    · cases hstep
      exact (hunlocked _).goto_plain ha rfl nofun
  case cancel fresh rest =>
    subst hstep
    exact h.goto (by simp [pinsOf, ha, pins]) hsuspending
  case persist fresh rest =>
    split_ifs at hstep <;> cases hstep
    · exact (hunlocked _).goto_plain ha rfl nofun
    · have hwritten : Shielded (c.updateVm fresh.id fun r => { r with state := .suspending }) :=
        h.congr rfl rfl rfl rfl
      refine (hwritten.begin (hsuspending _ rfl)).goto ?_ hsuspending
      simp [pinsOf, Core.begin, updateVm, ha, pins]
  case pause fresh rest =>
    split_ifs at hstep <;> cases hstep
    · exact (hupdated _ _ _).goto_plain ha rfl nofun
    · exact (h.begin (hsuspending _ rfl)).goto_plain ha rfl nofun
  case capture fresh rest =>
    subst hstep
    exact (hupdated _ _ _).goto_plain ha rfl nofun
  case reapJudge vm rest =>
    split at hstep
    · cases hstep
      exact (hunlocked _).goto_plain ha rfl nofun
    · split_ifs at hstep <;> cases hstep
      · exact h.goto_plain ha rfl nofun
      · exact (hunlocked _).goto_plain ha rfl nofun
  case reap fresh rest =>
    subst hstep
    have hreaped : Shielded ((if answer.fails then c
        else { c with vms := c.vms.filter (·.id ≠ fresh.id) }).unlock fresh.name) := by
      split_ifs
      · exact h.congr rfl rfl rfl rfl
      · exact h.congr rfl rfl rfl rfl
    refine hreaped.goto_plain (a := .reap fresh rest) ?_ rfl nofun
    split_ifs <;> exact ha
  all_goals simp [connecting] at htick

lemma advance_connect (ha : c.tasks t = some a) (hconnecting : a.connecting = true)
    (hunraced : ∀ id, a.Pinning id → c.tasks.All fun b => ¬b.Suspending id)
    (hstep : c.advance t answer = some c') : Shielded c' := by
  have hpins : c.pinsOf t = a.pins := by simp [pinsOf, ha]
  cases a <;> simp only [Core.advance, ha, some.injEq] at hstep
  case ready name =>
    split at hstep
    · cases hstep
      exact h.finish_plain ha rfl
    next record _ =>
      cases hstep
      have hnoted : Shielded (c.noteActivity record.id) := h.congr rfl rfl rfl rfl
      exact hnoted.goto_plain ha rfl nofun
  case readyPin name id | pin outer name id | session id =>
    subst hstep
    exact h.pin (by rw [hpins]; rfl) (nofun) (hunraced id rfl)
  case connect outer name =>
    split at hstep
    · cases hstep
      exact h.giveUp hpins
    · split_ifs at hstep <;> cases hstep
      · exact h.goto_plain ha rfl nofun
      · exact h.giveUp hpins
      · exact h.goto_plain ha rfl nofun
  case resumeLock outer name =>
    exact h.takeLock hstep hpins.symm nofun
  case resume outer name =>
    have hunlocked : Shielded (c.unlock name) := h.congr rfl rfl rfl rfl
    split at hstep
    · cases hstep
      exact hunlocked.giveUp hpins
    next record _ =>
      split at hstep
      · cases hstep
        exact hunlocked.goto_plain ha rfl nofun
      · split_ifs at hstep <;> cases hstep
        · exact hunlocked.retry hpins
        · have hwoken : Shielded ((c.unlock name).updateVm record.id fun r =>
              { r with state := .running }) := hunlocked.congr rfl rfl rfl rfl
          exact hwoken.goto_plain ha rfl nofun
      · split_ifs at hstep <;> cases hstep
        · exact hunlocked.retry hpins
        · refine goto_plain (a := .resume outer name) ?_ ha rfl nofun
          exact hunlocked.congr rfl rfl rfl rfl
      · cases hstep
        exact hunlocked.giveUp hpins
  case connectRead outer name =>
    split at hstep
    · cases hstep
      exact h.giveUp hpins
    next record _ =>
      split_ifs at hstep <;> cases hstep
      · exact h.giveUp hpins
      · refine goto_plain (a := .connectRead outer name) ?_ ha rfl nofun
        exact h.congr rfl rfl rfl rfl
      · refine goto_plain (a := .connectRead outer name) ?_ ha rfl nofun
        exact h.congr rfl rfl rfl rfl
  case dial outer name id =>
    split_ifs at hstep <;> cases hstep
    · exact h.release_retry hpins
    · exact h.goto_plain ha rfl nofun
  case ping outer name id =>
    cases outer with
    | none =>
      obtain rfl := some.inj hstep
      exact h.goto_plain ha rfl nofun
    | some hold =>
    dsimp only at hstep
    split_ifs at hstep <;> cases hstep
    · exact h.release_retry hpins
    · refine h.release ?_ nofun
      rw [hpins]
      exact List.Perm.swap hold id []
  case opened id =>
    subst hstep
    exact h.leave hpins
  all_goals simp [connecting] at hconnecting

lemma abandon (ha : c.tasks t = some a) : Shielded ((c.abandon t a).finish t) := by
  have hunlocked : Shielded (a.lockName.elim c c.unlock) := by
    cases a.lockName with
    | none => exact h
    | some name => exact h.congr rfl rfl rfl rfl
  have htasks : (a.lockName.elim c c.unlock).tasks = c.tasks := by
    cases a.lockName <;> rfl
  have hpins : (a.lockName.elim c c.unlock).pinsOf t = a.pins := by
    simp [pinsOf, htasks, ha]
  have hshort : a.pins = [] ∨ (∃ id, a.pins = [id]) ∨ ∃ id hold, a.pins = [id, hold] := by
    cases a with
    | connect outer _ | resumeLock outer _ | resume outer _ | connectRead outer _ | pin outer _ _ =>
      cases outer <;> simp [pins]
    | dial outer _ id | ping outer _ id => cases outer <;> simp [pins]
    | _ => simp [pins]
  unfold Core.abandon
  rcases hshort with hnone | ⟨id, hone⟩ | ⟨id, hold, htwo⟩
  · rw [hnone] at hpins ⊢
    exact hunlocked.finish hpins
  · rw [hone] at hpins ⊢
    exact hunlocked.leave hpins
  · rw [htwo] at hpins ⊢
    have hrelease : Shielded (((a.lockName.elim c c.unlock).dropGuard t id).goto t (.opened hold)) :=
      hunlocked.release (by rw [hpins]; rfl) nofun
    have hleave := hrelease.leave (t := t) (show pinsOf _ t = [hold] by
      simp [pinsOf, Core.goto, pins])
    exact hleave.congr rfl rfl (by simp [Core.finish, Core.goto, dropGuard]) rfl

end

lemma quiet (h : c.Quiet) : Shielded c where
  balanced id := by rw [h.sessions, h.guards, countP_nil]
  owned t id := by simp [h.guards, pinsOf, h.tasks]
  unpinned t a ha := by simp [h.tasks] at ha
  begun := by simp [h.begun]

lemma step {e : Event ι} (h : Shielded c) (hstep : (unraced ι).step c e c') : Shielded c' := by
  obtain ⟨hstep, hunraced⟩ := hstep
  simp only [interleaved, Machine.ofStep] at hstep
  cases e <;> simp only [Core.step] at hstep
  case call t call =>
    split_ifs at hstep with hbusy
    cases hstep
    have hnone : c.tasks t = none := by simpa using hbusy
    refine h.goto ?_ ?_
    · cases call <;> simp [Call.task, pins, pinsOf, hnone]
    · cases call <;> exact nofun
  case advance t answer =>
    cases ha : c.tasks t with
    | none => simp [Core.advance, ha] at hstep
    | some a =>
      cases hconnecting : a.connecting with
      | false => exact h.advance_tick ha hconnecting hstep
      | true => exact h.advance_connect ha hconnecting (hunraced t answer a · rfl ha) hstep
  case abandon t =>
    split at hstep
    next a ha =>
      split_ifs at hstep
      cases hstep
      exact h.abandon ha
    · cases hstep
  case elapse nanos =>
    cases hstep
    exact h.congr rfl rfl rfl rfl

end Shielded

/-- In a run in which no session begins between the check of a tick and the pause, a tick never
begins to suspend a VM with an open session; and a caller that has pinned a VM has a guard that
counts as one. -/
theorem tick_spares_pinned_vms (c₀ c : Core ι) (events : List (Event ι)) (h₀ : c₀.Quiet)
    (hrun : (unraced ι).Run c₀ events c) : (∀ b ∈ c.begun, b.sessions = 0 ∧ b.guards = []) ∧
      ∀ t a, c.tasks t = some a → ∀ id ∈ a.pins, (t, id) ∈ c.guards ∧ 0 < c.activeSessions id := by
  have hshielded : Shielded c := hrun.invariant (.quiet h₀) fun _ _ _ h hstep => h.step hstep
  refine ⟨hshielded.begun, fun t a ha id hid => ?_⟩
  have hmem : (t, id) ∈ c.guards := by
    rw [← count_pos_iff, hshielded.owned t id, count_pos_iff, pinsOf, ha]
    exact hid
  refine ⟨hmem, ?_⟩
  rw [hshielded.balanced id]
  exact countP_pos_iff.mpr ⟨(t, id), hmem, by simp⟩

/-! ## Runs -/

def idleVm : VmRecord ℕ where
  id := 1
  name := "dev"
  state := .running
  vmm := .firecracker
  serviceId := none
  forkedFrom := none
  volume := none
  tapDevice := none
  lastActivityAt := ⟨0⟩
  suspendedAt := none
  idleTimeoutSecs := some 60
  suspendTtlSecs := none
  autoResume := true

def idleHost : Core ℕ where
  vms := [idleVm]
  forwards _ := []
  activeSessions _ := 0
  guards := []
  controlPlaneLastActive _ := none
  networkLastActive _ := none
  networkCounters _ := none
  instant := 0
  now := ⟨3600000000000⟩
  lock _ := none
  tasks _ := none
  begun := []

def untilCancel : List (Event ℕ) :=
  .call 0 .tick :: List.replicate 5 (.advance 0 {})

/-- A connection is pinned after the check and before the VM is suspended. -/
theorem session_suspended_underneath :
    ∃ c, (interleaved ℕ).Run idleHost (untilCancel ++ [.call 1 (.agentConnect "dev"), .advance 1 {},
        .advance 1 {}, .advance 1 {}, .advance 0 {}, .advance 0 {}, .advance 0 {}]) c ∧
      c.begun = [⟨1, 1, [(1, 1)]⟩, ⟨1, 1, [(1, 1)]⟩] ∧ c.tasks 1 = some (.dial none "dev" 1) ∧
      c.vms.map VmRecord.state = [.suspending] := by
  apply Machine.exists_run_ofStep
  decide +kernel

/-- An idle VM that nobody connects to is suspended. -/
theorem idle_vm_suspended :
    ∃ c, (unraced ℕ).Run idleHost (untilCancel ++ List.replicate 3 (.advance 0 {})) c ∧
      c.begun.map Begun.id = [1, 1] ∧ ∀ b ∈ c.begun, b.sessions = 0 := by
  have hrun : ∃ c, (unraced ℕ).Run idleHost (untilCancel ++ List.replicate 3 (.advance 0 {})) c ∧
      c.begun.map Begun.id = [1, 1] := by
    refine ⟨_, .cons ⟨rfl, ?_⟩ (.cons ⟨rfl, ?_⟩ (.cons ⟨rfl, ?_⟩ (.cons ⟨rfl, ?_⟩ (.cons ⟨rfl, ?_⟩
      (.cons ⟨rfl, ?_⟩ (.cons ⟨rfl, ?_⟩ (.cons ⟨rfl, ?_⟩ (.cons ⟨rfl, ?_⟩ (.nil _))))))))), ?_⟩
    · rintro t answer a id ⟨⟩
    -- none of the steps of the tick pins a session
    iterate 8
      · rintro t answer a id ⟨⟩ ⟨⟩ ⟨⟩
    · rfl
  obtain ⟨c, hc, hbegun⟩ := hrun
  have hquiet : idleHost.Quiet := ⟨fun _ => rfl, fun _ => rfl, rfl, rfl⟩
  exact ⟨c, hc, hbegun, fun b hb => ((tick_spares_pinned_vms idleHost c _ hquiet hc).1 b hb).1⟩

end

open Store

/-! ## Traffic seen by polling counters

Every forward counts the packets it carried.  A tick compares the counts with those it kept; a
poll that failed reports no counts at all, and the tick keeps zeros for them.
-/

variable {ι : Type}

inductive Poll where
  | failed
  | counts (f : String → ℕ × ℕ)

/-- The map that `snapshot_pf_counters` returns. -/
def Poll.snapshot : Poll → String → Option (ℕ × ℕ)
  | .failed => fun _ => none
  | .counts f => fun key => some (f key)

variable {keys : List String}

namespace Core

def counterKeys (c : Core ι) (vm : VmRecord ι) (tap : String) : List String :=
  (c.forwards vm.id).map fun port => s!"husker-pf:{tap}:{port}"

def baseline (c : Core ι) (key : String) : ℕ := ((c.networkCounters key).getD (0, 0)).1

def becameActive (c : Core ι) (vm : VmRecord ι) (p : Poll) : Bool :=
  match vm.tapDevice with
  | none => false
  | some tap => (c.counterKeys vm tap).any fun key =>
      c.baseline key < ((p.snapshot key).getD (0, 0)).1

variable {c : Core ι} {vm : VmRecord ι} {tap : String}

lemma becameActive_failed : c.becameActive vm .failed = false := by
  unfold becameActive
  cases vm.tapDevice with
  | none => rfl
  | some tap => simp [Poll.snapshot]

lemma becameActive_counts (htap : vm.tapDevice = some tap) (f : String → ℕ × ℕ) :
    c.becameActive vm (.counts f) =
      (c.counterKeys vm tap).any fun key => c.baseline key < (f key).1 := by
  unfold becameActive
  rw [htap]
  rfl

lemma any_baseline {b count : String → ℕ} (h : ∀ key ∈ keys, c.baseline key = b key) :
    (keys.any fun key => c.baseline key < count key) = keys.any fun key => b key < count key := by
  rw [Bool.eq_iff_iff, List.any_eq_true, List.any_eq_true]
  apply exists_congr
  intro key
  apply and_congr_right
  intro hkey
  rw [h key hkey]

variable [DecidableEq ι]

def polls (c : Core ι) (vm : VmRecord ι) : List Poll → List Bool
  | [] => []
  | p :: ps => c.becameActive vm p :: (c.refreshNetworkActivity vm p.snapshot).polls vm ps

lemma refreshNetworkActivity_lastActive (c : Core ι) (vm : VmRecord ι) (p : Poll) :
    (c.refreshNetworkActivity vm p.snapshot).networkLastActive =
      if c.becameActive vm p then update c.networkLastActive vm.id (some c.instant)
      else c.networkLastActive := by
  unfold refreshNetworkActivity becameActive
  cases vm.tapDevice with
  | none => rfl
  | some tap =>
  simp only [markNetworkActive, counterKeys, baseline]
  split
  next hgrew => exact (if_pos hgrew).symm
  next hsame => exact (if_neg hsame).symm

lemma refreshNetworkActivity_forwards (c : Core ι) (vm : VmRecord ι) (p : Poll) :
    (c.refreshNetworkActivity vm p.snapshot).forwards = c.forwards := by
  unfold refreshNetworkActivity
  cases vm.tapDevice with
  | none => rfl
  | some tap =>
    simp only [markNetworkActive]
    split <;> rfl

lemma refreshNetworkActivity_keys (p : Poll) :
    (c.refreshNetworkActivity vm p.snapshot).counterKeys vm tap = c.counterKeys vm tap := by
  rw [counterKeys, refreshNetworkActivity_forwards, counterKeys]

lemma refreshNetworkActivity_baseline (htap : vm.tapDevice = some tap) (p : Poll) {key : String}
    (hkey : key ∈ c.counterKeys vm tap) :
    (c.refreshNetworkActivity vm p.snapshot).baseline key = ((p.snapshot key).getD (0, 0)).1 := by
  have hkept : (c.refreshNetworkActivity vm p.snapshot).networkCounters key =
      some ((p.snapshot key).getD (0, 0)) := by
    simp only [counterKeys] at hkey
    simp only [refreshNetworkActivity, htap, markNetworkActive]
    split <;> exact if_pos hkey
  rw [baseline, hkept, getD_some]

end Core

/-! ## What a poll should find -/

/-- A poll finds traffic when it succeeds and a count exceeds that of the last success. -/
def trafficSeen (keys : List String) : (String → ℕ) → List Poll → List Bool
  | _, [] => []
  | last, .failed :: ps => false :: trafficSeen keys last ps
  | last, .counts f :: ps =>
    (keys.any fun key => last key < (f key).1) :: trafficSeen keys (fun key => (f key).1) ps

def Recovers (keys : List String) : (String → ℕ) → Bool → List Poll → Prop
  | _, _, [] => True
  | last, _, .failed :: ps => Recovers keys last true ps
  | last, failed, .counts f :: ps =>
    (failed = true → (∃ key ∈ keys, last key < (f key).1) ∨ ∀ key ∈ keys, (f key).1 = 0) ∧
      Recovers keys (fun key => (f key).1) false ps

lemma any_pos_eq_any_lt_iff {last count : String → ℕ} :
    (keys.any fun key => 0 < count key) = (keys.any fun key => last key < count key) ↔
      (∃ key ∈ keys, last key < count key) ∨ ∀ key ∈ keys, count key = 0 := by
  rw [Bool.eq_iff_iff, List.any_eq_true, List.any_eq_true]
  simp only [decide_eq_true_eq]
  constructor
  · intro h
    by_cases hpos : ∃ key ∈ keys, 0 < count key
    · exact .inl (h.mp hpos)
    · right
      intro key hkey
      by_contra hne
      exact hpos ⟨key, hkey, Nat.pos_of_ne_zero hne⟩
  · rintro (⟨key, hkey, hlt⟩ | hzero)
    · exact ⟨fun _ => ⟨key, hkey, hlt⟩, fun _ => ⟨key, hkey, Nat.zero_lt_of_lt hlt⟩⟩
    · constructor
      · rintro ⟨key, hkey, hlt⟩
        exact absurd (hzero key hkey) hlt.ne'
      · rintro ⟨key, hkey, hlt⟩
        rw [hzero key hkey] at hlt
        exact absurd hlt (Nat.not_lt_zero _)

/-- The polls find what they should from a state whose counts are those of the last success, or
zeros after a failure, exactly if every success after a failure recovers. -/
lemma polls_eq_iff [DecidableEq ι] {vm : VmRecord ι} {tap : String} (htap : vm.tapDevice = some tap)
    (ps : List Poll) (c : Core ι) (last : String → ℕ) (failed : Bool)
    (hbase : ∀ key ∈ c.counterKeys vm tap, c.baseline key = if failed then 0 else last key) :
    c.polls vm ps = trafficSeen (c.counterKeys vm tap) last ps ↔
      Recovers (c.counterKeys vm tap) last failed ps := by
  induction ps generalizing c last failed with
  | nil => simp [polls, trafficSeen, Recovers]
  | cons p ps ih =>
  have hkeys : (c.refreshNetworkActivity vm p.snapshot).counterKeys vm tap = c.counterKeys vm tap :=
    refreshNetworkActivity_keys p
  cases p with
  | failed =>
    have hrest := ih (c.refreshNetworkActivity vm Poll.failed.snapshot) last true fun key hkey =>
      refreshNetworkActivity_baseline htap .failed (hkeys ▸ hkey)
    rw [hkeys] at hrest
    rw [polls, trafficSeen, Recovers, becameActive_failed, cons.injEq, hrest]
    exact and_iff_right rfl
  | counts f =>
  have hrest := ih (c.refreshNetworkActivity vm (Poll.counts f).snapshot)
    (fun key => (f key).1) false fun key hkey =>
      refreshNetworkActivity_baseline htap (.counts f) (hkeys ▸ hkey)
  rw [hkeys] at hrest
  have hhead : c.becameActive vm (.counts f) = ((c.counterKeys vm tap).any fun key =>
      last key < (f key).1) ↔ (failed = true → (∃ key ∈ c.counterKeys vm tap,
        last key < (f key).1) ∨ ∀ key ∈ c.counterKeys vm tap, (f key).1 = 0) := by
    rw [becameActive_counts htap]
    cases failed with
    | false => simp [any_baseline hbase]
    | true =>
      rw [any_baseline (b := fun _ => 0) hbase, any_pos_eq_any_lt_iff]
      exact ⟨fun h _ => h, fun h => h rfl⟩
  rw [polls, trafficSeen, Recovers, cons.injEq, hhead, hrest]

/-- A tick sets the activity clock exactly when it finds traffic, and finds it exactly when the
poll succeeded and a forward carried packets since the last success, as long as the first success
after a failure finds packets since the success before it, or none at all. -/
theorem traffic_found_iff [DecidableEq ι] (c : Core ι) (vm : VmRecord ι) (ps : List Poll)
    {tap : String} (htap : vm.tapDevice = some tap)
    (hfirst : ∀ key ∈ c.counterKeys vm tap, c.networkCounters key = none) :
    (∀ (c : Core ι) (p : Poll), (c.refreshNetworkActivity vm p.snapshot).networkLastActive =
      if c.becameActive vm p then Function.update c.networkLastActive vm.id (some c.instant)
      else c.networkLastActive) ∧
    (c.polls vm ps = trafficSeen (c.counterKeys vm tap) (fun _ => 0) ps ↔
      Recovers (c.counterKeys vm tap) (fun _ => 0) false ps) := by
  refine ⟨fun c p => c.refreshNetworkActivity_lastActive vm p, ?_⟩
  apply polls_eq_iff htap
  intro key hkey
  rw [baseline, hfirst key hkey]
  rfl

def forwardedVm : VmRecord ℕ := { idleVm with tapDevice := some "husker3" }

def forwardedHost : Core ℕ := { idleHost with vms := [forwardedVm], forwards := fun _ => [8080] }

def packets (n : ℕ) : Poll := .counts fun _ => (n, 64 * n)

theorem traffic_after_failure_is_found :
    forwardedHost.polls forwardedVm [packets 5, .failed, packets 7, packets 7] =
        trafficSeen ["husker-pf:husker3:8080"] (fun _ => 0)
          [packets 5, .failed, packets 7, packets 7] ∧
      forwardedHost.polls forwardedVm [packets 5, .failed, packets 7, packets 7] =
        [true, false, true, false] := by
  have hkeys : forwardedHost.counterKeys forwardedVm "husker3" = ["husker-pf:husker3:8080"] := by
    decide
  refine ⟨?_, by decide +kernel⟩
  have h := (traffic_found_iff forwardedHost forwardedVm
    [packets 5, .failed, packets 7, packets 7] rfl fun _ _ => rfl).2
  rw [hkeys] at h
  apply h.mpr
  simp [Recovers, packets]

/-- A forward that carried nothing since the last success is taken to be busy after a failure. -/
theorem failed_poll_reports_traffic :
    forwardedHost.polls forwardedVm [packets 5, .failed, packets 5] = [true, false, true] ∧
      trafficSeen (forwardedHost.counterKeys forwardedVm "husker3") (fun _ => 0)
        [packets 5, .failed, packets 5] = [true, false, false] := by
  decide +kernel

end Husker.Idle
