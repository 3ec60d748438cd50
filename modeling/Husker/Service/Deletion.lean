import Husker.Service.Converge

/-! # The steps of calls on services

Whatever the order of the steps, two passes never hold the lock of one service, and a record that
a call carries differs from its row at most in the count.
-/
namespace Husker.Service
open Relational List
set_option linter.unusedSectionVars false

variable {ι : Type} [LinearOrder ι] {d d' : Daemon ι} {t : ℕ} {env : Env ι}
  {svc r : ServiceRecord ι} {id : ι}

/-! ## The table of services -/

variable {name : String}

namespace Services

variable {s : Services ι} {n : ℕ}

lemma mem_update : r ∈ (s.updateServiceDesiredInstances id n).rows ↔
    ∃ r₀ ∈ s.rows, r = if r₀.id = id then { r₀ with desiredInstances := n } else r₀ := by
  simp only [updateServiceDesiredInstances, mem_map, eq_comm]

lemma mem_delete : r ∈ (s.deleteService id).rows ↔ r ∈ s.rows ∧ r.id ≠ id := by
  simp [deleteService]

lemma mem_of_getServiceByName (h : s.getServiceByName name = some r) : r ∈ s.rows ∧ r.name = name :=
  ⟨mem_of_find?_eq_some h, by simpa using find?_some h⟩

lemma name_ne_of_getServiceByName (h : s.getServiceByName name = none)
    (hr : r ∈ s.rows) : r.name ≠ name := by
  simpa using find?_eq_none.mp h r hr

lemma has_iff : s.has id ↔ ∃ r ∈ s.rows, r.id = id := by
  simp [has]

end Services

/-- The row of the record, if it is still there, differs from it at most in the count. -/
def Known (svc : ServiceRecord ι) (s : Services ι) : Prop :=
  ∀ r ∈ s.rows, r.id = svc.id ∨ r.name = svc.name →
    r = { svc with desiredInstances := r.desiredInstances }

open Services

namespace Known

variable {s : Services ι}

lemma of_mem (h : svc ∈ s.rows) (n : ℕ) : Known { svc with desiredInstances := n } s := by
  intro r hr hsame
  have : r = svc := by
    rcases hsame with hid | hname
    · exact inj_on_of_nodup_map s.ids hr h hid
    · exact inj_on_of_nodup_map s.names hr h hname
  rw [this]

lemma update (h : Known svc s) (id : ι) (n : ℕ) :
    Known svc (s.updateServiceDesiredInstances id n) := by
  intro r hr hsame
  obtain ⟨r₀, hr₀, rfl⟩ := mem_update.mp hr
  split_ifs at hsame ⊢
  · rw [h r₀ hr₀ hsame]
  · exact h r₀ hr₀ hsame

lemma delete (h : Known svc s) (id : ι) : Known svc (s.deleteService id) :=
  fun r hr => h r (mem_delete.mp hr).1

end Known

/-! ## What a step does -/

def Task.records : Task ι → List (ServiceRecord ι)
  | .store svc _ => [svc]
  | .reread svc => [svc]
  | .wait svc (.sweep rest) => svc :: rest
  | .wait svc _ => [svc]
  | .pass svc (.sweep rest) => svc :: rest
  | .pass svc _ => [svc]
  | .remove svc => [svc]
  | _ => []

namespace Daemon

inductive Advance (env : Env ι) (d : Daemon ι) (t : ℕ) : Daemon ι → Prop
  | fail {a : Task ι} (e : CoreError) (ha : d.tasks t = some a)
      (hfree : ∀ svc purpose, a ≠ .wait svc purpose ∧ a ≠ .pass svc purpose)
      (hgone : ∀ svc, a = .reread svc → ∀ r ∈ d.services.rows, r.name ≠ svc.name)
      (hgone' : ∀ svc, a = .remove svc → ∀ r ∈ d.services.rows, r.id ≠ svc.id) :
      Advance env d t (d.fail t e)
  | check {name : String} {desired : ℕ} {svc : ServiceRecord ι}
      (ha : d.tasks t = some (.scale name desired)) (hsvc : svc ∈ d.services.rows) :
      Advance env d t (d.goto t (.store svc desired))
  | store {svc : ServiceRecord ι} {desired : ℕ} (ha : d.tasks t = some (.store svc desired)) :
      Advance env d t { d.goto t (.reread svc) with
        services := d.services.updateServiceDesiredInstances svc.id desired }
  | reread {svc svc' : ServiceRecord ι} (ha : d.tasks t = some (.reread svc))
      (hsvc : svc' ∈ d.services.rows) (hname : svc'.name = svc.name) :
      Advance env d t (d.goto t (.wait svc' .scale))
  | drop {name : String} {svc : ServiceRecord ι} (ha : d.tasks t = some (.delete name))
      (hsvc : svc ∈ d.services.rows) :
      Advance env d t (d.goto t (.wait { svc with desiredInstances := 0 } .delete))
  | list (ha : d.tasks t = some .sweep) : Advance env d t (d.sweepOn t d.services.rows)
  | take {svc : ServiceRecord ι} {purpose : Purpose ι} (ha : d.tasks t = some (.wait svc purpose))
      (hfree : d.lock svc.id = none) :
      Advance env d t { d.goto t (.pass svc purpose) with
        lock := Function.update d.lock svc.id (some t) }
  | pass {svc : ServiceRecord ι} {purpose : Purpose ι} (ha : d.tasks t = some (.pass svc purpose)) :
      Advance env d t ((d.reconcile env svc).afterPass t svc
        (reconcileService env svc d.world).outcome purpose)
  | remove {svc : ServiceRecord ι} (ha : d.tasks t = some (.remove svc)) :
      Advance env d t { d.finish t (.deleted svc) with services := d.services.deleteService svc.id }

lemma advance_cases (h : d.advance env t = some d') : Advance env d t d' := by
  unfold advance at h
  split at h
  · cases h
  next name desired ha =>
    have hfail : ∀ e, Advance env d t (d.fail t e) := fun e =>
      .fail e ha (by simp) (by simp) (by simp)
    split at h
    · cases h
      exact hfail _
    next svc hsvc =>
      have hmem := (mem_of_getServiceByName hsvc).1
      split at h
      · cases h
        exact hfail _
      split at h
      · cases h
        exact .check ha hmem
      · split_ifs at h <;> cases h
        · exact hfail _
        · exact .check ha hmem
  next svc desired ha =>
    split_ifs at h <;> cases h
    · exact .store ha
    · exact .fail _ ha (by simp) (by simp) (by simp)
  next svc ha =>
    split at h
    next hnone =>
      cases h
      refine .fail _ ha (by simp) ?_ (by simp)
      rintro svc' ⟨⟩ r hr
      exact name_ne_of_getServiceByName hnone hr
    next svc' hsvc =>
      cases h
      obtain ⟨hmem, hname⟩ := mem_of_getServiceByName hsvc
      exact .reread ha hmem hname
  next name ha =>
    split at h
    · cases h
      exact .fail _ ha (by simp) (by simp) (by simp)
    next svc hsvc =>
      cases h
      exact .drop ha (mem_of_getServiceByName hsvc).1
  next ha =>
    cases h
    exact .list ha
  next svc purpose ha =>
    split_ifs at h with hlock
    cases h
    exact .take ha (by simpa using hlock)
  next svc purpose ha =>
    cases h
    exact .pass ha
  next svc ha =>
    split_ifs at h with hhas <;> cases h
    · exact .remove ha
    · refine .fail _ ha (by simp) (by simp) ?_
      rintro svc' ⟨⟩ r hr hid
      exact hhas (has_iff.mpr ⟨r, hr, hid⟩)

end Daemon

/-! ## What holds in every interleaving -/

structure Sound (d : Daemon ι) : Prop where
  guarded : Guarded Task.Holds d.lock d.tasks
  known : d.tasks.All fun a => ∀ svc ∈ a.records, Known svc d.services
  emptied : d.tasks.All fun a => ∀ svc, a = .wait svc .delete ∨ a = .pass svc .delete →
    svc.desiredInstances = 0

namespace Daemon

def passed (env : Env ι) (d : Daemon ι) (t : ℕ) (svc : ServiceRecord ι) : Daemon ι :=
  { d.reconcile env svc with tasks := d.tasks.clear t }

lemma afterPass_reconcile (outcome : ReconcileOutcome) (purpose : Purpose ι) :
    (d.reconcile env svc).afterPass t svc outcome purpose =
      (d.passed env t svc).afterPass t svc outcome purpose := by
  have hgoto : ∀ a, (d.reconcile env svc).goto t a = (d.passed env t svc).goto t a := fun a => by
    simp [goto, passed, reconcile]
  have hfinish : ∀ x, (d.reconcile env svc).finish t x = (d.passed env t svc).finish t x := fun x => by
    simp [finish, passed, reconcile]
  cases purpose with
  | scale => exact hfinish _
  | delete =>
    cases hfailed : outcome.failed with
    | nil => simp only [afterPass, hfailed, hgoto]
    | cons x _ => simp only [afterPass, hfailed, fail, hfinish]
  | sweep rest =>
    cases rest with
    | nil => exact hfinish _
    | cons svc' rest => exact hgoto _

end Daemon

namespace Sound

lemma goto {a : Task ι} (h : Sound d) (hfree : ∀ id, ¬a.Holds id)
    (hknown : ∀ svc ∈ a.records, Known svc d.services)
    (hemptied : ∀ svc, a = .wait svc .delete ∨ a = .pass svc .delete → svc.desiredInstances = 0) :
    Sound (d.goto t a) where
  guarded := h.guarded.move fun id hid => absurd hid (hfree id)
  known := h.known.set hknown
  emptied := h.emptied.set hemptied

lemma finish (h : Sound d) (report : Report ι) : Sound (d.finish t report) where
  guarded := h.guarded.clear
  known := h.known.clear
  emptied := h.emptied.clear

lemma sweepOn {rest : List (ServiceRecord ι)} (h : Sound d)
    (hknown : ∀ svc ∈ rest, Known svc d.services) : Sound (d.sweepOn t rest) := by
  cases rest with
  | nil => exact h.finish _
  | cons svc rest => exact h.goto (fun id hid => hid) hknown (by simp)

lemma passed {purpose : Purpose ι} (env : Env ι) (h : Sound d)
    (ha : d.tasks t = some (.pass svc purpose)) : Sound (d.passed env t svc) where
  guarded := h.guarded.release (h.guarded t _ svc.id ha rfl)
  known := h.known.clear
  emptied := h.emptied.clear

lemma advance (h : Sound d) (hstep : Daemon.Advance env d t d') : Sound d' := by
  cases hstep with
  | fail e ha hfree hgone hgone' => exact h.finish _
  | check ha hsvc | reread ha hsvc hname | drop ha hsvc =>
    refine h.goto (fun id hid => hid) ?_ (by simp)
    simpa [Task.records] using Known.of_mem hsvc _
  | @store svc desired ha =>
    have hmoved := h.goto (t := t) (a := .reread svc) (fun id hid => hid)
      (by simpa [Task.records] using h.known t _ ha svc (.head _)) (by simp)
    exact ⟨hmoved.guarded, hmoved.known.mono fun a ha svc' hsvc => (ha svc' hsvc).update _ _,
      hmoved.emptied⟩
  | list ha => exact h.sweepOn fun svc hsvc => Known.of_mem hsvc svc.desiredInstances
  | @take svc purpose ha hfree =>
    have hrecords : (Task.pass svc purpose).records = (Task.wait svc purpose).records := by
      cases purpose <;> rfl
    refine ⟨h.guarded.take hfree fun id hid => .inl hid.symm, h.known.set ?_, h.emptied.set ?_⟩
    · rw [hrecords]
      exact h.known t _ ha
    · rintro svc' (⟨⟨⟩⟩ | ⟨⟨⟩⟩)
      exact h.emptied t _ ha svc (.inl rfl)
  | @pass svc purpose ha =>
    have hpassed := h.passed env ha
    rw [Daemon.afterPass_reconcile]
    cases purpose with
    | scale => exact hpassed.finish _
    | delete =>
      cases hfailed : (reconcileService env svc d.world).outcome.failed with
      | nil =>
        have hknown : ∀ svc' ∈ [svc], Known svc' d.services := h.known t _ ha
        simp only [Daemon.afterPass, hfailed]
        exact hpassed.goto (fun id hid => hid) hknown (by simp)
      | cons x _ =>
        simp only [Daemon.afterPass, hfailed]
        exact hpassed.finish _
    | sweep rest => exact hpassed.sweepOn fun svc' hsvc => h.known t _ ha svc' (.tail _ hsvc)
  | @remove svc ha =>
    have hdone := h.finish (t := t) (.deleted svc)
    exact ⟨hdone.guarded, hdone.known.mono fun a ha svc' hsvc => (ha svc' hsvc).delete _,
      hdone.emptied⟩

end Sound

/-! # Deletion is final

A pass works on the record it read before it waited.  When that record is still the row at the
moment the pass gets the lock, and no pass gets it between the pass of a deletion and the removal
of the row, a deleted service stays without instances and the count follows the row.
-/
open Option AList World

/-! ## What a pass can touch

Whatever fails, a pass destroys and marks only VMs that were of its service when it listed them,
and creates VMs of its service.
-/

section
open Store

variable {svc : ServiceRecord ι} {w₀ w : World ι}
  {p : Pass ι} {vm s : VmRecord ι} {ids : Set ι} {k : ℕ} {id : ι}

lemma Edit.markVmStopped (h : ∀ x ∈ w.vms, x.id = id → x.serviceId = some svc.id) :
    Edit svc w (w.markVmStopped id) where
  other x hx := by
    rw [mem_markVmStopped]
    constructor
    · rintro (hmem | ⟨y, hy, hid, rfl⟩)
      · exact hmem.1
      · exact absurd (h y hy hid) hx
    · exact fun hmem => .inl ⟨hmem, fun hid => hx (h x hmem hid)⟩
  live _ _ _ := rfl
  named hnamed x hx := by
    rcases mem_markVmStopped.mp hx with hmem | ⟨y, hy, -, rfl⟩
    · exact hnamed x hmem.1
    · exact hnamed y hy

/-- The identifiers `ids` were given out, to VMs of the service. -/
structure Within (svc : ServiceRecord ι) (ids : Set ι) (w₀ w : World ι) : Prop where
  edit : Edit svc w₀ w
  mine : ∀ vm ∈ w.vms, vm.id ∈ ids → vm.serviceId = some svc.id
  used : ∀ id ∈ ids, id ∈ w.used

namespace Within

lemma retireVm (h : Within svc ids w₀ w) (hid : id ∈ ids) : Within svc ids w₀ (w.retireVm id) where
  edit := h.edit.trans (Edit.retireVm fun x hx hxid => h.mine x hx (hxid ▸ hid))
  mine x hx := h.mine x (mem_retireVm.mp hx).1
  used := h.used

lemma markVmStopped (h : Within svc ids w₀ w) (hid : id ∈ ids) :
    Within svc ids w₀ (w.markVmStopped id) where
  edit := h.edit.trans (Edit.markVmStopped fun x hx hxid => h.mine x hx (hxid ▸ hid))
  mine x hx hxid := by
    rcases mem_markVmStopped.mp hx with hmem | ⟨y, hy, -, rfl⟩
    · exact h.mine x hmem.1 hxid
    · exact h.mine y hy hxid
  used := h.used

lemma insertVm (h : Within svc ids w₀ w) (hid : s.id ∉ w.used)
    (hname : s.name ∉ w.vms.map VmRecord.name) (hmine : s.serviceId = some svc.id)
    (hord : s.serviceOrdinal = some k) (hinstance : s.name = instanceName svc.name k) :
    Within svc ids w₀ (w.insertVm s hid hname) where
  edit := h.edit.trans (Edit.insertVm hmine hord hinstance)
  mine x hx hxid := by
    rcases mem_insertVm.mp hx with hmem | rfl
    · exact h.mine x hmem hxid
    · exact hmine
  used id hid' := .tail _ (h.used id hid')

lemma destroyInstance (env : Env ι) (h : Within svc ids w₀ p.world) (hs : s.id ∈ ids) :
    Within svc ids w₀ (p.destroyInstance env s).2.world := by
  unfold Pass.destroyInstance
  split
  · exact h
  · split_ifs
    · split
      · exact h
      · exact h.retireVm hs
    · exact h

lemma createInstance (h : Within svc ids w₀ p.world) :
    Within svc ids w₀ (p.createInstance env svc k).world := by
  simp only [Pass.createInstance]
  split
  · split_ifs
    · exact h
    · exact h
  next hnone =>
    split
    · exact h
    · exact h.insertVm (env.fresh _) (getVmByName_eq_none.mp hnone) rfl rfl rfl

lemma refreshVmLiveness (env : Env ι) (h : Within svc ids w₀ p.world) (hvm : vm.id ∈ ids) :
    (p.refreshVmLiveness env vm).1.id ∈ ids ∧
      Within svc ids w₀ (p.refreshVmLiveness env vm).2.world := by
  unfold Pass.refreshVmLiveness
  split_ifs
  · exact ⟨hvm, h⟩
  · exact ⟨hvm, h⟩
  · exact ⟨hvm, h⟩
  · exact ⟨hvm, h.markVmStopped hvm⟩

lemma dedupe {st : Pass ι × Pass.Survivors ι} (h : Within svc ids w₀ st.1.world)
    (hst : ∀ k s, st.2.lookup k = some s → s.id ∈ ids) (hvm : vm.id ∈ ids) :
    Within svc ids w₀ (Pass.dedupe env st vm).1.world ∧
      ∀ k s, (Pass.dedupe env st vm).2.lookup k = some s → s.id ∈ ids := by
  obtain ⟨hlisted, hlooked⟩ := h.refreshVmLiveness env hvm
  have hinsert : ∀ j k s, (st.2.insert j (st.1.refreshVmLiveness env vm).1).lookup k = some s →
      s.id ∈ ids := by
    intro j k s hs
    by_cases hkj : k = j
    · subst hkj
      rw [lookup_insert] at hs
      exact some.inj hs ▸ hlisted
    · rw [lookup_insert_ne hkj] at hs
      exact hst k s hs
  simp only [Pass.dedupe]
  split
  · exact ⟨hlooked.destroyInstance env hlisted, hst⟩
  split
  · exact ⟨hlooked, hinsert _⟩
  next existing hexisting =>
    split_ifs
    · exact ⟨hlooked.destroyInstance env (hst _ _ hexisting), hinsert _⟩
    · exact ⟨hlooked.destroyInstance env hlisted, hst⟩

lemma ensure {survivors : Pass.Survivors ι} (h : Within svc ids w₀ p.world)
    (hs : ∀ k s, survivors.lookup k = some s → s.id ∈ ids) :
    Within svc ids w₀ (p.ensure env svc survivors k).world := by
  unfold Pass.ensure
  split
  · exact h.createInstance
  next vm hvm =>
    have hdestroyed := h.destroyInstance env (hs k vm hvm)
    split_ifs
    · exact h
    split
    next p' hp =>
      rw [hp] at hdestroyed
      exact Within.createInstance hdestroyed
    next p' hp =>
      rw [hp] at hdestroyed
      exact hdestroyed

end Within

lemma reconcileService_edit (env : Env ι) (svc : ServiceRecord ι) (w : World ι) :
    Edit svc w (reconcileService env svc w).world := by
  set ids : Set ι := {id | ∃ vm ∈ w.listVmsForService svc.id, vm.id = id} with hids
  have hstart : Within svc ids w w := by
    refine ⟨Edit.refl svc w, ?_, ?_⟩
    · rintro vm hvm ⟨x, hx, hid⟩
      obtain ⟨hmem, hmine⟩ := mem_listVmsForService.mp hx
      rw [← eq_of_id hmem hvm hid, hmine]
    · rintro id ⟨x, hx, rfl⟩
      exact w.known x (mem_listVmsForService.mp hx).1
  unfold reconcileService
  split_ifs
  · exact Edit.refl svc w
  split
  · exact Edit.refl svc w
  · have hfirst := List.foldlRecOn (w.listVmsForService svc.id) (Pass.dedupe env)
      (motive := fun st : Pass ι × Pass.Survivors ι => Within svc ids w st.1.world ∧
        ∀ k s, st.2.lookup k = some s → s.id ∈ ids)
      (b := (⟨w, {}⟩, ∅)) ⟨hstart, by simp⟩ fun st h vm hvm => h.1.dedupe h.2 ⟨vm, hvm, rfl⟩
    have hsecond := List.foldlRecOn (List.range svc.desiredInstances) (Pass.ensure env svc _)
      (motive := fun p : Pass ι => Within svc ids w p.world) hfirst.1
      fun _ h _ _ => h.ensure hfirst.2
    refine (List.foldlRecOn (motive := fun p : Pass ι => Within svc ids w p.world) _ _ hsecond
      fun p h vm hvm => h.destroyInstance env ?_).edit
    obtain ⟨e, he, rfl⟩ := List.mem_map.mp hvm
    have hentry := (perm_insertionSort _ _).mem_iff.mp (mem_of_mem_filter he)
    exact hfirst.2 e.1 e.2 (mem_lookup_iff.mpr hentry)

end

open Tasks

/-- A pass that gets the lock works on the row, or to remove it, and no deletion of the service
has its own pass behind it. -/
def Timely (d : Daemon ι) (t : ℕ) : Prop :=
  ∀ svc purpose, d.tasks t = some (.wait svc purpose) →
    (∃ r ∈ d.services.rows, svc = if purpose = .delete then { r with desiredInstances := 0 } else r) ∧
      d.tasks.All fun a => ∀ svc', a = .remove svc' → svc'.id ≠ svc.id

def timely (ι : Type) [LinearOrder ι] : Machine (Daemon ι) (Event ι) :=
  (interleaved ι).when fun d e => ∀ t env, e = .advance t env → Timely d t

/-! ## Nothing comes back -/

structure Absent (d : Daemon ι) (id : ι) : Prop where
  vms : ∀ vm ∈ d.world.vms, vm.serviceId ≠ some id
  passes : d.tasks.All fun a => ¬a.Holds id

structure Final (d : Daemon ι) : Prop where
  cleared : d.tasks.All fun a => ∀ svc, a = .remove svc → Absent d svc.id
  deleted : ∀ svc, .deleted svc ∈ d.log → Absent d svc.id ∧ ∀ r ∈ d.services.rows, r.id ≠ svc.id

variable {a : Task ι}

lemma Absent.goto (h : Absent d id) (ha : ¬a.Holds id) : Absent (d.goto t a) id :=
  ⟨h.vms, h.passes.set ha⟩

lemma Absent.finish (h : Absent d id) (report : Report ι) : Absent (d.finish t report) id :=
  ⟨h.vms, h.passes.clear⟩

lemma Converged.congr {w : World ι} (h : Converged svc w) (hid : r.id = svc.id)
    (hcount : r.desiredInstances = svc.desiredInstances) : Converged r w := by
  constructor
  · intro k hk
    obtain ⟨vm, hruns, hunique⟩ := h.wanted k (hcount ▸ hk)
    rw [hid]
    exact ⟨vm, ⟨hruns.mem, hid ▸ hruns.mine, hruns.ordinal, hruns.state, hruns.live⟩, hunique⟩
  · rw [hid, hcount]
    exact h.only

lemma Edit.converged {w w' : World ι} (h : Edit svc w w') (hr : Converged r w)
    (hid : r.id ≠ svc.id) : Converged r w' := by
  have hother : ∀ vm : VmRecord ι, vm.serviceId = some r.id → vm.serviceId ≠ some svc.id := by
    intro vm hvm heq
    exact hid (some.inj (hvm.symm.trans heq))
  constructor
  · intro k hk
    obtain ⟨vm, hruns, hunique⟩ := hr.wanted k hk
    have hvm := hother vm hruns.mine
    refine ⟨vm, ⟨(h.other vm hvm).mpr hruns.mem, hruns.mine, hruns.ordinal, hruns.state,
      (h.live vm hruns.mem hvm).trans hruns.live⟩, ?_⟩
    intro x hx hmine
    exact hunique x ((h.other x (hother x hmine)).mp hx) hmine
  · intro vm hvm hmine
    exact hr.only vm ((h.other vm (hother vm hmine)).mp hvm) hmine

lemma Absent.passed (h : Absent d id) (hid : svc.id ≠ id) : Absent (d.passed env t svc) id where
  vms vm hvm hmine := by
    have hother : vm.serviceId ≠ some svc.id := fun heq =>
      hid (some.inj (heq.symm.trans hmine))
    exact h.vms vm (((reconcileService_edit env svc d.world).other vm hother).mp hvm) hmine
  passes := h.passes.clear

variable {purpose : Purpose ι}

namespace Final

lemma mono (h : Final d) (habsent : ∀ id, Absent d id → Absent d' id)
    (htasks : d'.tasks.All fun a => ∀ svc, a = .remove svc → ∃ u, d.tasks u = some (.remove svc))
    (hlog : ∀ svc, .deleted svc ∈ d'.log → .deleted svc ∈ d.log)
    (hrows : ∀ r ∈ d'.services.rows, ∃ r₀ ∈ d.services.rows, r₀.id = r.id) : Final d' where
  cleared t a ha svc hsvc := by
    obtain ⟨u, hu⟩ := htasks t a ha svc hsvc
    exact habsent _ (h.cleared u _ hu svc rfl)
  deleted svc hsvc := by
    obtain ⟨hgone, hrow⟩ := h.deleted svc (hlog svc hsvc)
    refine ⟨habsent _ hgone, fun r hr hid => ?_⟩
    obtain ⟨r₀, hr₀, hr₀id⟩ := hrows r hr
    exact hrow r₀ hr₀ (hr₀id.trans hid)

lemma goto (h : Final d) (hfree : ∀ id, ¬a.Holds id) (hkeeps : ∀ svc, a ≠ .remove svc) :
    Final (d.goto t a) := by
  refine h.mono (fun id hid => hid.goto (hfree id)) ?_ (fun _ => id) fun r hr => ⟨r, hr, rfl⟩
  refine Tasks.All.set ?_ fun svc hsvc => absurd hsvc (hkeeps svc)
  rintro u b hb svc rfl
  exact ⟨u, hb⟩

lemma finish {report : Report ι} (h : Final d) (hreport : ∀ svc, report ≠ .deleted svc) :
    Final (d.finish t report) := by
  refine h.mono (fun id hid => hid.finish _) ?_ ?_ fun r hr => ⟨r, hr, rfl⟩
  · refine Tasks.All.clear ?_
    rintro u b hb svc rfl
    exact ⟨u, hb⟩
  · intro svc hsvc
    exact (mem_cons.mp hsvc).resolve_left fun heq => hreport svc heq.symm

lemma sweepOn {rest : List (ServiceRecord ι)} (h : Final d) : Final (d.sweepOn t rest) := by
  cases rest with
  | nil => exact h.finish (by simp)
  | cons svc rest => exact h.goto (fun id hid => hid) (by simp)

lemma passed (env : Env ι) (h : Final d)
    (ha : d.tasks t = some (.pass svc purpose)) : Final (d.passed env t svc) := by
  refine h.mono (fun id hid => hid.passed ?_) ?_ ?_ fun r hr => ⟨r, hr, rfl⟩
  · intro heq
    exact hid.passes t _ ha heq
  · refine Tasks.All.clear ?_
    rintro u b hb svc rfl
    exact ⟨u, hb⟩
  · intro svc hsvc
    exact (mem_cons.mp hsvc).resolve_left (by simp)

lemma absent_passed (hs : Sound d) (ha : d.tasks t = some (.pass svc .delete))
    (hclean : (reconcileService env svc d.world).Clean) : Absent (d.passed env t svc) svc.id where
  vms vm hvm hmine := by
    obtain ⟨chosen, held, -, hsettling, hwanted, hexcess⟩ := reconcileService_settling hclean
    obtain ⟨k, hk, -⟩ := (hsettling.converged hwanted hexcess).only vm hvm hmine
    rw [hs.emptied t _ ha svc (.inr rfl)] at hk
    omega
  passes u a hu hholds := by
    obtain ⟨hne, hu⟩ := clear_eq_some hu
    exact hne (hs.guarded.exclusive hu ha hholds rfl)

lemma take (h : Final d) (htimely : Timely d t) (ha : d.tasks t = some (.wait svc purpose)) :
    Final { d.goto t (.pass svc purpose) with lock := Function.update d.lock svc.id (some t) } := by
  obtain ⟨⟨r, hr, hsvc⟩, hremoves⟩ := htimely svc purpose ha
  have hid : r.id = svc.id := by
    rw [hsvc]
    split_ifs <;> rfl
  have habsent : ∀ id, svc.id ≠ id → Absent d id → Absent { d.goto t (.pass svc purpose) with
      lock := Function.update d.lock svc.id (some t) } id := by
    intro id hne hid
    have hmoved : Absent (d.goto t (.pass svc purpose)) id := hid.goto hne
    exact ⟨hmoved.vms, hmoved.passes⟩
  constructor
  · intro u a hu svc' hsvc'
    rcases set_eq_some hu with ⟨-, rfl⟩ | ⟨-, hu⟩
    · cases hsvc'
    · exact habsent _ (hremoves u a hu svc' hsvc').symm (h.cleared u a hu svc' hsvc')
  · intro svc' hsvc'
    obtain ⟨hgone, hrow⟩ := h.deleted svc' hsvc'
    exact ⟨habsent _ (fun heq => hrow r hr (hid.trans heq)) hgone, hrow⟩

lemma advance (hs : Sound d) (h : Final d) (htimely : Timely d t)
    (hstep : Daemon.Advance env d t d') : Final d' := by
  cases hstep with
  | fail e ha hfree hgone hgone' => exact h.finish (by simp)
  | check ha hsvc | reread ha hsvc hname => exact h.goto (fun id hid => hid) (by simp)
  | @store svc desired ha =>
    have hmoved := h.goto (t := t) (a := .reread svc) (fun id hid => hid) (by simp)
    refine hmoved.mono (fun id hid => ⟨hid.vms, hid.passes⟩) ?_ (fun _ => id) ?_
    · rintro u b hb svc rfl
      exact ⟨u, hb⟩
    · intro r hr
      obtain ⟨r₀, hr₀, rfl⟩ := mem_update.mp hr
      exact ⟨r₀, hr₀, by split_ifs <;> rfl⟩
  | drop ha hsvc => exact h.goto (fun id hid => hid) (by simp)
  | list ha => exact h.sweepOn
  | take ha hfree => exact h.take htimely ha
  | @pass svc purpose ha =>
    have hpassed := h.passed env ha
    rw [Daemon.afterPass_reconcile]
    cases purpose with
    | scale => exact hpassed.finish (by simp)
    | delete =>
      cases hfailed : (reconcileService env svc d.world).outcome.failed with
      | nil =>
        have habsent := absent_passed hs ha hfailed
        simp only [Daemon.afterPass, hfailed]
        constructor
        · intro u a hu svc' hsvc'
          rcases set_eq_some hu with ⟨-, rfl⟩ | ⟨-, hu⟩
          · cases hsvc'
            exact habsent.goto fun hid => hid
          · exact (hpassed.cleared u a hu svc' hsvc').goto fun hid => hid
        · intro svc' hsvc'
          obtain ⟨hgone, hrow⟩ := hpassed.deleted svc' hsvc'
          exact ⟨hgone.goto fun hid => hid, hrow⟩
      | cons x _ =>
        simp only [Daemon.afterPass, hfailed]
        exact hpassed.finish (by simp)
    | sweep rest => exact hpassed.sweepOn
  | @remove svc ha =>
  have hgone := h.cleared t _ ha svc rfl
  have habsent : ∀ id, Absent d id → Absent { d.finish t (.deleted svc) with
      services := d.services.deleteService svc.id } id := fun id hid =>
    ⟨hid.vms, hid.passes.clear⟩
  constructor
  · intro u a hu svc' hsvc'
    exact habsent _ (h.cleared u a (clear_eq_some hu).2 svc' hsvc')
  intro svc' hsvc'
  rcases mem_cons.mp hsvc' with heq | hsvc'
  · cases heq
    exact ⟨habsent _ hgone, fun r hr => (mem_delete.mp hr).2⟩
  · obtain ⟨hgone', hrow⟩ := h.deleted svc' hsvc'
    exact ⟨habsent _ hgone', fun r hr => hrow r (mem_delete.mp hr).1⟩

end Final

end Husker.Service
