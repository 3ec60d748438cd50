import Husker.Service.Deletion

/-! # The count follows the row

Between the write of a count and the pass that follows it, some call still owes that pass.  When
every pass is timely and none fails, a service that no call is concerned with has as many
instances as its row wants.
-/
namespace Husker.Service
open Relational List Option Services Tasks
set_option linter.unusedSectionVars false

variable {ι : Type} [LinearOrder ι] {d d' : Daemon ι} {t : ℕ} {env : Env ι}
  {svc r : ServiceRecord ι} {id : ι}

def Task.Owes : Task ι → ι → Prop
  | .reread svc, id => svc.id = id
  | .wait svc .scale, id => svc.id = id
  | _, _ => False

def Task.Pending (a : Task ι) (id : ι) : Prop :=
  a.Owes id ∨ a.Holds id ∨ ∃ svc, a = .remove svc ∧ svc.id = id

def Task.Concerns (a : Task ι) (id : ι) : Prop := ∃ svc ∈ a.records, svc.id = id

variable {a : Task ι}

lemma Task.Pending.concerns (h : a.Pending id) : a.Concerns id := by
  unfold Task.Concerns
  rcases h with h | h | ⟨svc, rfl, h⟩
  · cases a with
    | reread svc => exact ⟨svc, .head _, h⟩
    | wait svc purpose =>
      cases purpose with
      | scale => exact ⟨svc, .head _, h⟩
      | delete => exact h.elim
      | sweep rest => exact h.elim
    | _ => exact h.elim
  · cases a with
    | pass svc purpose =>
      refine ⟨svc, ?_, h⟩
      cases purpose <;> exact .head _
    | _ => exact h.elim
  · exact ⟨svc, .head _, h⟩

def PassedCleanly (log : List (Report ι)) (id : ι) : Prop :=
  (∃ svc outcome, .passed svc outcome ∈ log ∧ svc.id = id) ∧
    ∀ svc outcome, .passed svc outcome ∈ log → svc.id = id → outcome.failed = []

variable {report : Report ι}

lemma PassedCleanly.of_cons {log : List (Report ι)} (h : PassedCleanly (report :: log) id)
    (hreport : ∀ svc outcome, report = .passed svc outcome → svc.id ≠ id) :
    PassedCleanly log id := by
  obtain ⟨⟨svc, outcome, hmem, hid⟩, hclean⟩ := h
  refine ⟨⟨svc, outcome, ?_, hid⟩, fun svc' outcome' hmem' => hclean svc' outcome' (.tail _ hmem')⟩
  exact (mem_cons.mp hmem).resolve_left fun heq => hreport svc outcome heq.symm hid

structure Counted (d : Daemon ι) : Prop where
  row : ∀ r ∈ d.services.rows, PassedCleanly d.log r.id →
    d.tasks.Any (·.Pending r.id) ∨ Converged r d.world
  current : ∀ t svc purpose, d.tasks t = some (.pass svc purpose) → purpose ≠ .delete →
    ∀ r ∈ d.services.rows, r.id = svc.id →
      r.desiredInstances = svc.desiredInstances ∨ d.tasks.Any (·.Owes r.id)

namespace Counted

lemma mono (h : Counted d) (hworld : d'.world = d.world)
    (hrows : ∀ r ∈ d'.services.rows, r ∈ d.services.rows)
    (hlog : ∀ id, PassedCleanly d'.log id → PassedCleanly d.log id)
    (howes : ∀ r ∈ d'.services.rows, d.tasks.Any (·.Owes r.id) → d'.tasks.Any (·.Owes r.id))
    (hpending : ∀ r ∈ d'.services.rows, d.tasks.Any (·.Pending r.id) →
      d'.tasks.Any (·.Pending r.id))
    (hpass : ∀ u svc purpose, d'.tasks u = some (.pass svc purpose) → purpose ≠ .delete →
      d.tasks u = some (.pass svc purpose) ∨
        ∀ r ∈ d'.services.rows, r.id = svc.id → r.desiredInstances = svc.desiredInstances) :
    Counted d' where
  row r hr hclean := by
    rw [hworld]
    exact (h.row r (hrows r hr) (hlog _ hclean)).imp_left (hpending r hr)
  current u svc purpose hu hpurpose r hr hid := by
    rcases hpass u svc purpose hu hpurpose with hu | hrow
    · exact (h.current u svc purpose hu hpurpose r (hrows r hr) hid).imp_right (howes r hr)
    · exact .inl (hrow r hr hid)

lemma goto (h : Counted d) (hfree : ∀ id, ¬a.Holds id)
    (hpending : ∀ b, d.tasks t = some b → ∀ r ∈ d.services.rows, b.Pending r.id →
      b.Owes r.id ∧ a.Owes r.id) : Counted (d.goto t a) := by
  refine h.mono rfl (fun _ => id) (fun _ => id) ?_ ?_ ?_
  · intro r hr howes
    exact howes.set fun b hb hb' => (hpending b hb r hr (.inl hb')).2
  · intro r hr hpend
    exact hpend.set fun b hb hb' => .inl (hpending b hb r hr hb').2
  · intro u svc purpose hu _
    rcases set_eq_some hu with ⟨-, rfl⟩ | ⟨-, hu⟩
    · exact absurd rfl (hfree svc.id)
    · exact .inl hu

lemma finish (h : Counted d) (hreport : ∀ svc outcome, report ≠ .passed svc outcome)
    (hpending : ∀ b, d.tasks t = some b → ∀ r ∈ d.services.rows, ¬b.Pending r.id) :
    Counted (d.finish t report) := by
  refine h.mono rfl (fun _ => id) ?_ ?_ ?_ ?_
  · intro id hclean
    exact hclean.of_cons fun svc outcome heq => absurd heq (hreport svc outcome)
  · intro r hr howes
    exact howes.clear fun b hb hb' => hpending b hb r hr (.inl hb')
  · intro r hr hpend
    exact hpend.clear fun b hb => hpending b hb r hr
  · intro u svc purpose hu _
    exact .inl (clear_eq_some hu).2

lemma sweepOn {rest : List (ServiceRecord ι)} (h : Counted d)
    (hpending : ∀ b, d.tasks t = some b → ∀ id, ¬b.Pending id) : Counted (d.sweepOn t rest) := by
  cases rest with
  | nil => exact h.finish (by simp) fun b hb r _ => hpending b hb r.id
  | cons svc rest =>
    exact h.goto (fun id hid => hid) fun b hb r _ hb' => absurd hb' (hpending b hb r.id)

lemma fail {e : CoreError} (hs : Sound d) (h : Counted d) (ha : d.tasks t = some a)
    (hfree : ∀ svc purpose, a ≠ .wait svc purpose ∧ a ≠ .pass svc purpose)
    (hgone : ∀ svc, a = .reread svc → ∀ r ∈ d.services.rows, r.name ≠ svc.name)
    (hgone' : ∀ svc, a = .remove svc → ∀ r ∈ d.services.rows, r.id ≠ svc.id) :
    Counted (d.fail t e) := by
  refine h.finish (by simp) fun b hb r hr hpending => ?_
  obtain rfl : a = b := some.inj (ha.symm.trans hb)
  rcases hpending with howes | hholds | ⟨svc, rfl, hid⟩
  · cases a with
    | reread svc =>
      have hrow := hs.known t _ ha svc (.head _) r hr (.inl (Eq.symm howes))
      exact hgone svc rfl r hr (by rw [hrow])
    | wait svc purpose => exact (hfree svc purpose).1 rfl
    | _ => exact howes
  · cases a with
    | pass svc purpose => exact (hfree svc purpose).2 rfl
    | _ => exact hholds
  · exact hgone' svc rfl r hr hid.symm

lemma store {desired : ℕ} (h : Counted d) (ha : d.tasks t = some (.store svc desired)) :
    Counted { d.goto t (.reread svc) with
      services := d.services.updateServiceDesiredInstances svc.id desired } := by
  have hb : ∀ b, d.tasks t = some b → ∀ id, ¬b.Pending id := by
    intro b hb id hpending
    obtain rfl : .store svc desired = b := some.inj (ha.symm.trans hb)
    simp [Task.Pending, Task.Owes, Task.Holds] at hpending
  have howes : (d.tasks.set t (.reread svc)).Any (·.Owes svc.id) := .set_self rfl
  constructor
  · intro r hr hclean
    obtain ⟨r₀, hr₀, rfl⟩ := mem_update.mp hr
    split_ifs at hclean ⊢ with hid
    · obtain ⟨u, a, hu, ha⟩ := howes
      exact .inl ⟨u, a, hu, .inl (hid ▸ ha)⟩
    · refine (h.row r₀ hr₀ hclean).imp_left fun hpending => hpending.set ?_
      exact fun b hbt hb' => absurd hb' (hb b hbt _)
  · intro u svc' purpose hu hpurpose r hr hid
    rcases set_eq_some hu with ⟨-, heq⟩ | ⟨-, hu⟩
    · cases heq
    obtain ⟨r₀, hr₀, rfl⟩ := mem_update.mp hr
    split_ifs at hid ⊢ with hsvc
    · exact .inr (hsvc ▸ howes)
    · refine (h.current u svc' purpose hu hpurpose r₀ hr₀ hid).imp_right fun howes => howes.set ?_
      exact fun b hbt hb' => absurd (.inl hb') (hb b hbt _)

variable {purpose : Purpose ι}

lemma take (hs : Sound d) (h : Counted d) (htimely : Timely d t)
    (ha : d.tasks t = some (.wait svc purpose)) (hfree : d.lock svc.id = none) :
    Counted { d.goto t (.pass svc purpose) with
      lock := Function.update d.lock svc.id (some t) } := by
  constructor
  · intro r hr hclean
    refine (h.row r hr hclean).imp_left fun hpending => hpending.set fun b hb hb' => ?_
    obtain rfl : .wait svc purpose = b := some.inj (ha.symm.trans hb)
    rcases hb' with howes | hholds | ⟨svc', heq, -⟩
    · cases purpose with
      | scale => exact .inr (.inl howes)
      | delete => exact howes.elim
      | sweep rest => exact howes.elim
    · exact hholds.elim
    · cases heq
  · intro u svc' purpose' hu hpurpose r hr hid
    rcases set_eq_some hu with ⟨-, heq⟩ | ⟨-, hu⟩
    · cases heq
      obtain ⟨⟨r', hr', hsvc⟩, -⟩ := htimely svc purpose ha
      rw [if_neg hpurpose] at hsvc
      rw [inj_on_of_nodup_map d.services.ids hr hr' (hsvc ▸ hid), hsvc]
      exact .inl rfl
    have hne : svc'.id ≠ svc.id := by
      intro heq
      have hlocked := hs.guarded u _ svc'.id hu rfl
      rw [heq, hfree] at hlocked
      cases hlocked
    refine (h.current u svc' purpose' hu hpurpose r hr hid).imp_right fun howes =>
      howes.set fun b hb hb' => ?_
    obtain rfl : .wait svc purpose = b := some.inj (ha.symm.trans hb)
    cases purpose with
    | scale => exact absurd (hid.symm.trans (Eq.symm hb')) hne
    | delete => exact hb'.elim
    | sweep rest => exact hb'.elim

lemma passed (env : Env ι) (h : Counted d) (ha : d.tasks t = some (.pass svc purpose)) :
    (∀ r ∈ d.services.rows, r.id ≠ svc.id → PassedCleanly (d.passed env t svc).log r.id →
      (d.passed env t svc).tasks.Any (·.Pending r.id) ∨ Converged r (d.passed env t svc).world) ∧
    ∀ u svc' purpose', (d.passed env t svc).tasks u = some (.pass svc' purpose') →
      purpose' ≠ .delete → ∀ r ∈ d.services.rows, r.id = svc'.id →
        r.desiredInstances = svc'.desiredInstances ∨
          (d.passed env t svc).tasks.Any (·.Owes r.id) := by
  have hb : ∀ b, d.tasks t = some b → .pass svc purpose = b := fun b hb =>
    some.inj (ha.symm.trans hb)
  constructor
  · intro r hr hid hclean
    have hbefore : PassedCleanly d.log r.id := hclean.of_cons (by
      rintro svc' outcome ⟨⟩
      exact hid.symm)
    refine (h.row r hr hbefore).imp (fun hpending => hpending.clear ?_)
      fun hconverged => (reconcileService_edit env svc d.world).converged hconverged hid
    intro b hbt hpending
    rw [← hb b hbt] at hpending
    rcases hpending with howes | hholds | ⟨svc', heq, -⟩
    · exact howes
    · exact hid (Eq.symm hholds)
    · cases heq
  · intro u svc' purpose' hu hpurpose r hr hid
    obtain ⟨-, hu⟩ := clear_eq_some hu
    refine (h.current u svc' purpose' hu hpurpose r hr hid).imp_right fun howes => howes.clear ?_
    intro b hbt howes
    rw [← hb b hbt] at howes
    exact howes

lemma passed_row (h : Counted d) (ha : d.tasks t = some (.pass svc purpose))
    (hkind : purpose ≠ .delete ∨ (reconcileService env svc d.world).outcome.failed ≠ []) :
    Counted (d.passed env t svc) := by
  obtain ⟨hother, hcurrent⟩ := h.passed env ha
  refine ⟨fun r hr hclean => ?_, hcurrent⟩
  by_cases hid : r.id = svc.id
  · have hfailed : (reconcileService env svc d.world).Clean :=
      hclean.2 svc _ (.head _) hid.symm
    have hpurpose : purpose ≠ .delete := hkind.resolve_right fun hne => hne hfailed
    obtain ⟨chosen, held, -, hsettling, hwanted, hexcess⟩ := reconcileService_settling hfailed
    rcases h.current t svc purpose ha hpurpose r hr hid with hcount | howes
    · exact .inr ((hsettling.converged hwanted hexcess).congr hid hcount)
    · have hleft : (d.passed env t svc).tasks.Any (·.Owes r.id) := by
        refine howes.clear fun b hb howes => ?_
        rw [← some.inj (ha.symm.trans hb)] at howes
        exact howes
      exact .inl (hleft.mono fun a ha => .inl ha)
  · exact hother r hr hid hclean

lemma passed_delete (h : Counted d) (ha : d.tasks t = some (.pass svc .delete)) :
    Counted ((d.passed env t svc).goto t (.remove svc)) := by
  obtain ⟨hother, hcurrent⟩ := h.passed env ha
  have hnone : ∀ b, (d.passed env t svc).tasks t ≠ some b := by simp [Daemon.passed]
  constructor
  · intro r hr hclean
    by_cases hid : r.id = svc.id
    · exact .inl (.set_self (.inr (.inr ⟨svc, rfl, hid.symm⟩)))
    · refine (hother r hr hid hclean).imp_left fun hpending => hpending.set ?_
      exact fun b hb => absurd hb (hnone b)
  · intro u svc' purpose hu hpurpose r hr hid
    rcases set_eq_some hu with ⟨-, heq⟩ | ⟨-, hu⟩
    · cases heq
    · refine (hcurrent u svc' purpose hu hpurpose r hr hid).imp_right fun howes => howes.set ?_
      exact fun b hb => absurd hb (hnone b)

lemma remove (h : Counted d) (ha : d.tasks t = some (.remove svc)) :
    Counted { d.finish t (.deleted svc) with services := d.services.deleteService svc.id } := by
  have hpending : ∀ r ∈ (d.services.deleteService svc.id).rows, ∀ b, d.tasks t = some b →
      ¬b.Pending r.id := by
    intro r hr b hb hpending
    rw [← some.inj (ha.symm.trans hb)] at hpending
    rcases hpending with howes | hholds | ⟨svc', heq, hid⟩
    · exact howes
    · exact hholds
    · cases heq
      exact (mem_delete.mp hr).2 hid.symm
  refine h.mono rfl (fun r hr => (mem_delete.mp hr).1) ?_ ?_ ?_ ?_
  · intro id hclean
    exact hclean.of_cons (by simp)
  · intro r hr howes
    exact howes.clear fun b hb hb' => hpending r hr b hb (.inl hb')
  · intro r hr hpend
    exact hpend.clear fun b hb => hpending r hr b hb
  · intro u svc' purpose hu _
    exact .inl (clear_eq_some hu).2

lemma advance (hs : Sound d) (h : Counted d) (htimely : Timely d t)
    (hstep : Daemon.Advance env d t d') : Counted d' := by
  cases hstep with
  | fail e ha hfree hgone hgone' => exact h.fail hs ha hfree hgone hgone'
  | check ha hsvc | drop ha hsvc =>
    refine h.goto (fun id hid => hid) fun b hb r hr hpending => ?_
    rw [← some.inj (ha.symm.trans hb)] at hpending
    simp [Task.Pending, Task.Owes, Task.Holds] at hpending
  | store ha => exact h.store ha
  | @reread svc svc' ha hsvc hname =>
    refine h.goto (fun id hid => hid) fun b hb r hr hpending => ?_
    rw [← some.inj (ha.symm.trans hb)] at hpending ⊢
    have hrow := hs.known t _ ha svc (.head _) svc' hsvc (.inr hname)
    rcases hpending with howes | hholds | ⟨_, heq, -⟩
    · refine ⟨howes, Eq.trans ?_ howes⟩
      rw [hrow]
    · exact hholds.elim
    · cases heq
  | list ha =>
    refine h.sweepOn fun b hb id hpending => ?_
    rw [← some.inj (ha.symm.trans hb)] at hpending
    simp [Task.Pending, Task.Owes, Task.Holds] at hpending
  | take ha hfree => exact h.take hs htimely ha hfree
  | @pass svc purpose ha =>
    have hnone : ∀ b, (d.passed env t svc).tasks t ≠ some b := by simp [Daemon.passed]
    rw [Daemon.afterPass_reconcile]
    cases purpose with
    | scale =>
      exact (h.passed_row ha (.inl (by simp))).finish (by simp) fun b hb => absurd hb (hnone b)
    | delete =>
      cases hfailed : (reconcileService env svc d.world).outcome.failed with
      | nil =>
        simp only [Daemon.afterPass, hfailed]
        exact h.passed_delete ha
      | cons x _ =>
        simp only [Daemon.afterPass, hfailed]
        refine (h.passed_row ha (.inr (by simp [hfailed]))).finish (by simp) ?_
        exact fun b hb => absurd hb (hnone b)
    | sweep rest =>
      exact (h.passed_row ha (.inl (by simp))).sweepOn fun b hb => absurd hb (hnone b)
  | remove ha => exact h.remove ha

end Counted

/-! ## Whole runs -/

lemma Converged.length [DecidableEq ι] {w : World ι} (h : Converged svc w) :
    (w.vms.filter fun vm => vm.serviceId = some svc.id).length = svc.desiredInstances := by
  set mine := w.vms.filter fun vm => vm.serviceId = some svc.id with hmine
  have hmem : ∀ {vm}, vm ∈ mine ↔ vm ∈ w.vms ∧ vm.serviceId = some svc.id := by
    simp [hmine]
  have hnodup : (mine.map VmRecord.serviceOrdinal).Nodup := by
    refine List.Nodup.map_on ?_ ((List.Nodup.of_map _ w.ids).filter _)
    intro x hx y hy hord
    obtain ⟨hx, hxmine⟩ := hmem.mp hx
    obtain ⟨hy, hymine⟩ := hmem.mp hy
    obtain ⟨k, hk, hxk⟩ := h.only x hx hxmine
    obtain ⟨vm, -, hunique⟩ := h.wanted k hk
    rw [hunique x hx hxmine hxk, hunique y hy hymine (hord.symm.trans hxk)]
  have hperm : (mine.map VmRecord.serviceOrdinal).Perm
      ((List.range svc.desiredInstances).map some) := by
    refine (perm_ext_iff_of_nodup hnodup
      (nodup_range.map (some_injective _))).mpr fun o => ?_
    simp only [List.mem_map, mem_range]
    constructor
    · rintro ⟨vm, hvm, rfl⟩
      obtain ⟨hvm, hvmine⟩ := hmem.mp hvm
      obtain ⟨k, hk, hord⟩ := h.only vm hvm hvmine
      exact ⟨k, hk, hord.symm⟩
    · rintro ⟨k, hk, rfl⟩
      obtain ⟨vm, hruns, -⟩ := h.wanted k hk
      exact ⟨vm, hmem.mpr ⟨hruns.mem, hruns.mine⟩, hruns.ordinal⟩
  simpa using hperm.length_eq

structure Orderly (d : Daemon ι) : Prop where
  sound : Sound d
  final : Final d
  counted : Counted d

lemma Orderly.idle (h : d.Idle) : Orderly d := by
  have hall : ∀ P : Task ι → Prop, d.tasks.All P := fun P t a ha => by simp [h.tasks t] at ha
  refine ⟨⟨?_, hall _, hall _⟩, ⟨hall _, ?_⟩, ⟨?_, ?_⟩⟩
  · intro t a k ha
    simp [h.tasks t] at ha
  · simp [h.log]
  · intro r _ hclean
    obtain ⟨svc, outcome, hmem, -⟩ := hclean.1
    simp [h.log] at hmem
  · intro t svc purpose ha
    simp [h.tasks t] at ha

lemma Orderly.step {e : Event ι} (h : Orderly d) (hstep : (timely ι).step d e d') : Orderly d' := by
  obtain ⟨hstep, htimely⟩ := hstep
  cases e with
  | call t c =>
    simp only [interleaved, Machine.ofStep, Daemon.step] at hstep
    split_ifs at hstep with hbusy
    cases hstep
    have hnone : ∀ b, d.tasks t ≠ some b := fun b hb => hbusy (by simp [hb])
    have hfree : ∀ id, ¬(c.task : Task ι).Holds id := fun id hid => by cases c <;> exact hid
    refine ⟨h.sound.goto hfree ?_ ?_, h.final.goto hfree ?_,
      h.counted.goto hfree fun b hb => absurd hb (hnone b)⟩
    · cases c <;> simp [Call.task, Task.records]
    · cases c <;> simp [Call.task]
    · cases c <;> simp [Call.task]
  | advance t env =>
    have hadvance := Daemon.advance_cases hstep
    exact ⟨h.sound.advance hadvance, h.final.advance h.sound (htimely t env rfl) hadvance,
      h.counted.advance h.sound (htimely t env rfl) hadvance⟩

def fresh : Daemon ℕ where
  services := ⟨[{ webService with desiredInstances := 1 }], by decide, by decide⟩
  world := ⟨[], fun _ => false, [], by decide, by decide, by decide⟩
  tasks _ := none
  lock _ := none
  log := []

lemma fresh_idle : fresh.Idle := ⟨fun _ => rfl, fun _ => rfl, rfl⟩

/-- A tick reads the row, the service is deleted, and the pass of the tick follows. -/
def overtaken : List (Event ℕ) :=
  [.call 0 .sweep, .advance 0 quietHost, .call 1 (.delete "web"), .advance 1 quietHost,
    .advance 1 quietHost, .advance 1 quietHost, .advance 1 quietHost, .advance 0 quietHost,
    .advance 0 quietHost]

/-- Two calls write the row and read it again, and the one that wrote first passes last. -/
def crossed : List (Event ℕ) :=
  [.call 0 (.scale "web" 3), .advance 0 quietHost, .advance 0 quietHost, .advance 0 quietHost,
    .call 1 (.scale "web" 2), .advance 1 quietHost, .advance 1 quietHost, .advance 1 quietHost,
    .advance 1 quietHost, .advance 1 quietHost, .advance 0 quietHost, .advance 0 quietHost]

end Husker.Service
