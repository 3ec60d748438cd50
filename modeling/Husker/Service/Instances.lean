import Mathlib
import Husker.Service.Calls

/-! # The instances a pass keeps track of

A pass holds one record per ordinal and has a list of records still to look at.  Every operation on
the world is an update of that map or a step in that list, and leaves other VMs alone.
-/
namespace Husker.Service
open Store List Option Function World

open VmRecord

section
variable {ι : Type} {svc : ServiceRecord ι} {w w' : World ι} {vm s : VmRecord ι}
  {held : ℕ → Option (VmRecord ι)} {rest : List (VmRecord ι)} {k : ℕ}

/-! ## What a pass may change -/

def Named (svc : ServiceRecord ι) (w : World ι) : Prop :=
  ∀ vm ∈ w.vms, vm.serviceId = some svc.id → ∀ k < svc.desiredInstances,
    vm.name = instanceName svc.name k → vm.serviceOrdinal = some k ∨ vm.serviceOrdinal = none

/-- VMs of other owners, and what the backend says of them, are as they were. -/
structure Edit (svc : ServiceRecord ι) (w w' : World ι) : Prop where
  other : ∀ vm, vm.serviceId ≠ some svc.id → (vm ∈ w'.vms ↔ vm ∈ w.vms)
  live : ∀ vm ∈ w.vms, vm.serviceId ≠ some svc.id → w'.live vm.id = w.live vm.id
  named : Named svc w → Named svc w'

lemma Edit.refl (svc : ServiceRecord ι) (w : World ι) : Edit svc w w :=
  ⟨fun _ _ => Iff.rfl, fun _ _ _ => rfl, id⟩

lemma Edit.trans {w'' : World ι} (h : Edit svc w w') (h' : Edit svc w' w'') : Edit svc w w'' where
  other vm hvm := (h'.other vm hvm).trans (h.other vm hvm)
  live vm hmem hvm := (h'.live vm ((h.other vm hvm).mpr hmem) hvm).trans (h.live vm hmem hvm)
  named := h'.named ∘ h.named

lemma World.eq_of_id (hvm : vm ∈ w.vms) (hs : s ∈ w.vms) (h : vm.id = s.id) : vm = s :=
  inj_on_of_nodup_map w.ids hvm hs h

/-- The world still has the record, perhaps in another state unless it is one of a running VM. -/
structure Carries (w : World ι) (s : VmRecord ι) : Prop where
  present : ∃ vm ∈ w.vms, vm.id = s.id ∧ vm.name = s.name ∧ vm.serviceId = s.serviceId ∧
    vm.serviceOrdinal = s.serviceOrdinal
  running : s.state = .running → s ∈ w.vms ∧ w.live s.id

/-! ## The map of instances -/

/-- The VMs of the service are those held for an ordinal and those still to be looked at. -/
structure Tracks (svc : ServiceRecord ι) (w : World ι) (held : ℕ → Option (VmRecord ι))
    (rest : List (VmRecord ι)) : Prop where
  carried : ∀ k s, held k = some s →
    Carries w s ∧ s.serviceId = some svc.id ∧ s.serviceOrdinal = some k
  waiting : ∀ vm ∈ rest, vm ∈ w.vms ∧ vm.serviceId = some svc.id
  distinct : (rest.map VmRecord.id).Nodup
  apart : ∀ vm ∈ rest, ∀ k s, held k = some s → s.id ≠ vm.id
  only : ∀ vm ∈ w.vms, vm.serviceId = some svc.id →
    vm ∈ rest ∨ ∃ k s, held k = some s ∧ s.id = vm.id

variable {j : ℕ}

namespace Tracks

lemma ordinal_eq {s' : VmRecord ι} (h : Tracks svc w held rest) (hs : held k = some s)
    (hs' : held j = some s') (hid : s.id = s'.id) : k = j := by
  obtain ⟨⟨⟨vm, hvm, hvmid, -, -, hord⟩, -⟩, -, hk⟩ := h.carried k s hs
  obtain ⟨⟨⟨vm', hvm', hvmid', -, -, hord'⟩, -⟩, -, hj⟩ := h.carried j s' hs'
  have hsame : vm = vm' := eq_of_id hvm hvm' (by rw [hvmid, hvmid', hid])
  rw [hk] at hord
  rw [hj, ← hsame, hord] at hord'
  exact some.inj hord'

lemma held_for (h : Tracks svc w held []) (hvm : vm ∈ w.vms) (hmine : vm.serviceId = some svc.id) :
    ∃ k s, held k = some s ∧ s.id = vm.id ∧ vm.serviceOrdinal = some k := by
  obtain ⟨k, s, hs, hid⟩ := (h.only vm hvm hmine).resolve_left not_mem_nil
  obtain ⟨⟨⟨x, hx, hxid, -, -, hxord⟩, -⟩, -, hord⟩ := h.carried k s hs
  rw [eq_of_id hx hvm (hxid.trans hid), hord] at hxord
  exact ⟨k, s, hs, hid, hxord⟩

lemma hold (h : Tracks svc w held (vm :: rest)) (hk : held k = none) (hs : Carries w s)
    (hid : s.id = vm.id) (hmine : s.serviceId = some svc.id) (hord : s.serviceOrdinal = some k) :
    Tracks svc w (update held k (some s)) rest where
  carried j s' hj := by
    by_cases hjk : j = k
    · rw [hjk, update_self] at hj
      rw [← some.inj hj, hjk]
      exact ⟨hs, hmine, hord⟩
    · exact h.carried j s' (by simpa [hjk] using hj)
  waiting x hx := h.waiting x (.tail _ hx)
  distinct := (nodup_cons.mp h.distinct).2
  apart x hx j s' hj := by
    by_cases hjk : j = k
    · rw [hjk, update_self] at hj
      rw [← some.inj hj, hid]
      exact fun heq => (nodup_cons.mp h.distinct).1 (heq ▸ List.mem_map_of_mem hx)
    · exact h.apart x (.tail _ hx) j s' (by simpa [hjk] using hj)
  only x hx hxmine := by
    rcases h.only x hx hxmine with hin | ⟨j, s', hj, hjid⟩
    · rcases mem_cons.mp hin with rfl | hin
      · exact .inr ⟨k, s, update_self .., hid⟩
      · exact .inl hin
    · refine .inr ⟨j, s', ?_, hjid⟩
      rw [update_of_ne, hj]
      rintro rfl
      simp [hk] at hj

end Tracks

/-! ## Looking at a VM -/

def refreshed (w : World ι) (vm : VmRecord ι) : VmRecord ι :=
  if isLive vm.state && !w.live vm.id then { vm with state := .stopped } else vm

@[simp] lemma refreshed_same : (refreshed w vm).id = vm.id ∧ (refreshed w vm).name = vm.name ∧
    (refreshed w vm).serviceId = vm.serviceId ∧
    (refreshed w vm).serviceOrdinal = vm.serviceOrdinal := by
  unfold refreshed
  split_ifs <;> simp

lemma refreshed_running :
    (refreshed w vm).state = .running ↔ vm.state = .running ∧ w.live vm.id := by
  unfold refreshed
  cases hlive : w.live vm.id <;> cases hstate : vm.state <;> simp [isLive, hstate]

lemma refreshed_of_live (hlive : w.live vm.id) : refreshed w vm = vm := by
  simp [refreshed, hlive]

structure Marked (vm : VmRecord ι) (w w' : World ι) : Prop where
  live : w'.live = w.live
  other : ∀ x, x.id ≠ vm.id → (x ∈ w'.vms ↔ x ∈ w.vms)
  same : ∃ x ∈ w'.vms, x.id = vm.id ∧ x.name = vm.name ∧ x.serviceId = vm.serviceId ∧
    x.serviceOrdinal = vm.serviceOrdinal

namespace Marked

lemma carries (h : Marked vm w w') (hs : Carries w s) (hid : s.id ≠ vm.id) : Carries w' s where
  present := by
    obtain ⟨x, hx, hxid, hrest⟩ := hs.present
    exact ⟨x, (h.other x (hxid ▸ hid)).mpr hx, hxid, hrest⟩
  running hrunning := by
    obtain ⟨hmem, hlive⟩ := hs.running hrunning
    exact ⟨(h.other s hid).mpr hmem, h.live ▸ hlive⟩

lemma edit (h : Marked vm w w') (hvm : vm ∈ w.vms) (hmine : vm.serviceId = some svc.id) :
    Edit svc w w' := by
  obtain ⟨now, hnow, hid, hname, hsvc, hord⟩ := h.same
  have hnow_of : ∀ x ∈ w'.vms, x.id = vm.id → x = now := fun x hx hxid =>
    eq_of_id hx hnow (hxid.trans hid.symm)
  constructor
  · intro x hx
    by_cases hxid : x.id = vm.id
    · refine iff_of_false (fun hmem => hx ?_) (fun hmem => hx ?_)
      · rw [hnow_of x hmem hxid, hsvc, hmine]
      · rw [eq_of_id hmem hvm hxid, hmine]
    · exact h.other x hxid
  · intro x _ _
    rw [h.live]
  · intro hnamed x hx hxmine j hj hxname
    by_cases hxid : x.id = vm.id
    · rw [hnow_of x hx hxid, hname] at hxname
      rw [hnow_of x hx hxid, hord]
      exact hnamed vm hvm hmine j hj hxname
    · exact hnamed x ((h.other x hxid).mp hx) hxmine j hj hxname

lemma tracks (h : Marked vm w w') (ht : Tracks svc w held (vm :: rest)) :
    ∃ now, now.id = vm.id ∧ Tracks svc w' held (now :: rest) := by
  obtain ⟨now, hnow, hid, -, hsvc, -⟩ := h.same
  have hrest : ∀ x ∈ rest, x.id ≠ vm.id := fun x hx heq =>
    (nodup_cons.mp ht.distinct).1 (heq ▸ List.mem_map_of_mem hx)
  refine ⟨now, hid, ?_, ?_, ?_, ?_, ?_⟩
  · intro k s hs
    obtain ⟨hcarries, hmine⟩ := ht.carried k s hs
    exact ⟨h.carries hcarries (ht.apart vm (.head _) k s hs), hmine⟩
  · intro x hx
    rcases mem_cons.mp hx with rfl | hx
    · exact ⟨hnow, hsvc.trans (ht.waiting vm (.head _)).2⟩
    · obtain ⟨hmem, hmine⟩ := ht.waiting x (.tail _ hx)
      exact ⟨(h.other x (hrest x hx)).mpr hmem, hmine⟩
  · simpa [hid] using ht.distinct
  · intro x hx
    rcases mem_cons.mp hx with rfl | hx
    · rw [hid]
      exact ht.apart vm (.head _)
    · exact ht.apart x (.tail _ hx)
  · intro x hx hxmine
    by_cases hxid : x.id = vm.id
    · exact .inl (eq_of_id hx hnow (hxid.trans hid.symm) ▸ .head _)
    · refine (ht.only x ((h.other x hxid).mp hx) hxmine).imp_left fun hin => .tail _ ?_
      refine (mem_cons.mp hin).resolve_left ?_
      rintro rfl
      exact hxid rfl

end Marked

variable [LinearOrder ι]

/-! ## The order of survivors -/

def VmRecord.age (vm : VmRecord ι) : ℤ ×ₗ ι := toLex (vm.createdAt.nanos, vm.id)

def VmRecord.preference (vm : VmRecord ι) : ℕ ×ₗ ℤ ×ₗ ι := toLex (rank vm.state, vm.age)

lemma betterSurvivor_iff (candidate current : VmRecord ι) :
    betterSurvivor candidate current ↔ candidate.preference < current.preference := by
  simp only [betterSurvivor, preference, age, Prod.Lex.toLex_lt_toLex]
  cases hrank : compare (rank candidate.state) (rank current.state) with
  | lt => simp [compare_lt_iff_lt.mp hrank]
  | gt =>
    have := compare_gt_iff_gt.mp hrank
    simp [this.not_gt, this.ne']
  | eq =>
  have := compare_eq_iff_eq.mp hrank
  cases hage : compare candidate.createdAt.nanos current.createdAt.nanos with
  | lt => simp [this, compare_lt_iff_lt.mp hage]
  | gt =>
    have hgt := compare_gt_iff_gt.mp hage
    simp [this, hgt.not_gt, hgt.ne']
  | eq => simp [this, compare_eq_iff_eq.mp hage]

lemma preference_le_running {current : VmRecord ι} (h : vm.preference ≤ current.preference)
    (hrunning : current.state = .running) : vm.state = .running ∧ vm.age ≤ current.age := by
  rw [preference, preference, Prod.Lex.toLex_le_toLex, rank, rank, if_pos hrunning] at h
  by_cases hvm : vm.state = .running
  · rw [if_pos hvm] at h
    exact ⟨hvm, h.resolve_left (lt_irrefl 0) |>.2⟩
  · simp [hvm] at h

/-! ## Retiring a VM -/

variable {id : ι}

@[simp] lemma World.mem_retireVm : vm ∈ (w.retireVm id).vms ↔ vm ∈ w.vms ∧ vm.id ≠ id := by
  simp [World.retireVm]

lemma World.live_retireVm (h : vm.id ≠ id) : (w.retireVm id).live vm.id = w.live vm.id :=
  update_of_ne h _ _

lemma Carries.retireVm (h : Carries w s) (hid : s.id ≠ id) : Carries (w.retireVm id) s where
  present := by
    obtain ⟨vm, hvm, hvmid, hrest⟩ := h.present
    exact ⟨vm, mem_retireVm.mpr ⟨hvm, hvmid ▸ hid⟩, hvmid, hrest⟩
  running hrunning := by
    obtain ⟨hmem, hlive⟩ := h.running hrunning
    exact ⟨mem_retireVm.mpr ⟨hmem, hid⟩, (live_retireVm hid).trans hlive⟩

lemma Edit.retireVm (h : ∀ x ∈ w.vms, x.id = id → x.serviceId = some svc.id) :
    Edit svc w (w.retireVm id) where
  other x hx := mem_retireVm.trans (and_iff_left_of_imp fun hmem hid => hx (h x hmem hid))
  live x hmem hx := live_retireVm fun hid => hx (h x hmem hid)
  named hnamed x hx := hnamed x (mem_retireVm.mp hx).1

lemma Carries.edit (h : Carries w s) (hs : s.serviceId = some svc.id) :
    Edit svc w (w.retireVm s.id) := by
  obtain ⟨vm, hvm, hvmid, -, hvmsvc, -⟩ := h.present
  refine Edit.retireVm fun x hx hxid => ?_
  rw [eq_of_id hx hvm (hxid.trans hvmid.symm), hvmsvc, hs]

def Pass.Clean (p : Pass ι) : Prop := p.outcome.failed = []

omit [LinearOrder ι] in
@[simp] lemma Pass.not_clean_fail (p : Pass ι) (name error : String) :
    ¬(p.fail name error).Clean := by
  simp [Pass.Clean, Pass.fail]

variable {env : Env ι}

lemma Pass.destroyInstance_carried {p : Pass ι} (h : Carries p.world s)
    (hclean : (p.destroyInstance env s).2.Clean) :
    p.destroyInstance env s = (true, ⟨p.world.retireVm s.id,
      { p.outcome with destroyed := p.outcome.destroyed ++ [s.name] }⟩) := by
  obtain ⟨vm, hvm, hid, hname, -⟩ := h.present
  simp only [Pass.destroyInstance, ← hname, getVmByName_mem hvm, hid, ↓reduceIte] at hclean ⊢
  cases herror : env.destroyError s.id with
  | some e => simp [herror] at hclean
  | none => rfl

lemma Pass.clean_of_destroyInstance {p : Pass ι}
    (h : (p.destroyInstance env s).2.Clean) : p.Clean := by
  unfold Pass.destroyInstance at h
  split at h
  · exact h
  · split_ifs at h
    · split at h
      · simp at h
      · exact h
    · exact h

namespace Tracks

lemma drop_waiting (h : Tracks svc w held (vm :: rest)) :
    Tracks svc (w.retireVm vm.id) held rest where
  carried k s hs := by
    obtain ⟨hcarries, hrest⟩ := h.carried k s hs
    exact ⟨hcarries.retireVm (h.apart vm (.head _) k s hs), hrest⟩
  waiting x hx := by
    have hne : x.id ≠ vm.id := fun hid =>
      (nodup_cons.mp h.distinct).1 (hid ▸ List.mem_map_of_mem hx)
    exact ⟨mem_retireVm.mpr ⟨(h.waiting x (.tail _ hx)).1, hne⟩, (h.waiting x (.tail _ hx)).2⟩
  distinct := (nodup_cons.mp h.distinct).2
  apart x hx := h.apart x (.tail _ hx)
  only x hx hmine := by
    obtain ⟨hmem, hne⟩ := mem_retireVm.mp hx
    refine (h.only x hmem hmine).imp_left fun hin => (mem_cons.mp hin).resolve_left ?_
    rintro rfl
    exact hne rfl

lemma drop_held (h : Tracks svc w held rest) (hk : held k = some s) :
    Tracks svc (w.retireVm s.id) (update held k none) rest where
  carried j s' hj := by
    obtain ⟨hne, hj⟩ : j ≠ k ∧ held j = some s' := by
      by_cases hjk : j = k
      · simp [hjk] at hj
      · exact ⟨hjk, by simpa [hjk] using hj⟩
    obtain ⟨hcarries, hrest⟩ := h.carried j s' hj
    exact ⟨hcarries.retireVm fun hid => hne (h.ordinal_eq hj hk hid), hrest⟩
  waiting x hx :=
    ⟨mem_retireVm.mpr ⟨(h.waiting x hx).1, (h.apart x hx k s hk).symm⟩, (h.waiting x hx).2⟩
  distinct := h.distinct
  apart x hx j s' hj := by
    by_cases hjk : j = k
    · simp [hjk] at hj
    · exact h.apart x hx j s' (by simpa [hjk] using hj)
  only x hx hmine := by
    obtain ⟨hmem, hne⟩ := mem_retireVm.mp hx
    refine (h.only x hmem hmine).imp_right ?_
    rintro ⟨j, s', hj, hid⟩
    refine ⟨j, s', ?_, hid⟩
    rw [update_of_ne, hj]
    rintro rfl
    rw [hk] at hj
    exact hne (by rw [← hid, some.inj hj])

end Tracks

/-! ## Creating a VM -/

lemma instanceName_inj {name : String} (h : instanceName name k = instanceName name j) : k = j := by
  have : toString k = toString j := String.append_right_inj (name ++ "-") |>.mp h
  exact Nat.repr_inj.mp this

@[simp] lemma World.mem_insertVm {hid : s.id ∉ w.used} {hname : s.name ∉ w.vms.map VmRecord.name} :
    vm ∈ (w.insertVm s hid hname).vms ↔ vm ∈ w.vms ∨ vm = s := by
  simp [World.insertVm]

section
variable {hid : s.id ∉ w.used} {hname : s.name ∉ w.vms.map VmRecord.name}

lemma World.live_insertVm (hvm : vm ∈ w.vms) :
    (w.insertVm s hid hname).live vm.id = w.live vm.id := by
  refine update_of_ne ?_ _ _
  intro heq
  exact hid (heq ▸ w.known vm hvm)

lemma Edit.insertVm (hmine : s.serviceId = some svc.id) (hord : s.serviceOrdinal = some k)
    (hinstance : s.name = instanceName svc.name k) : Edit svc w (w.insertVm s hid hname) where
  other vm hvm := by
    rw [mem_insertVm, or_iff_left]
    rintro rfl
    exact hvm hmine
  live vm hmem _ := live_insertVm hmem
  named hnamed vm hvm hvmine j hj hvmname := by
    rcases mem_insertVm.mp hvm with hmem | rfl
    · exact hnamed vm hmem hvmine j hj hvmname
    · exact .inl (hord.trans (congrArg some (instanceName_inj (hinstance.symm.trans hvmname))))

lemma Carries.insertVm (h : Carries w vm) : Carries (w.insertVm s hid hname) vm where
  present := by
    obtain ⟨x, hx, hrest⟩ := h.present
    exact ⟨x, mem_insertVm.mpr (.inl hx), hrest⟩
  running hrunning := by
    obtain ⟨hmem, hlive⟩ := h.running hrunning
    exact ⟨mem_insertVm.mpr (.inl hmem), (live_insertVm hmem).trans hlive⟩

lemma Carries.inserted : Carries (w.insertVm s hid hname) s where
  present := ⟨s, mem_insertVm.mpr (.inr rfl), rfl, rfl, rfl, rfl⟩
  running _ := ⟨mem_insertVm.mpr (.inr rfl), update_self ..⟩

lemma Tracks.insertVm (h : Tracks svc w held rest) (hk : held k = none)
    (hmine : s.serviceId = some svc.id) (hord : s.serviceOrdinal = some k) :
    Tracks svc (w.insertVm s hid hname) (update held k (some s)) rest where
  carried j s' hj := by
    by_cases hjk : j = k
    · rw [hjk, update_self] at hj
      rw [← some.inj hj, hjk]
      exact ⟨Carries.inserted, hmine, hord⟩
    · obtain ⟨hcarries, hrest⟩ := h.carried j s' (by simpa [hjk] using hj)
      exact ⟨hcarries.insertVm, hrest⟩
  waiting x hx := ⟨mem_insertVm.mpr (.inl (h.waiting x hx).1), (h.waiting x hx).2⟩
  distinct := h.distinct
  apart x hx j s' hj := by
    by_cases hjk : j = k
    · rw [hjk, update_self] at hj
      rw [← some.inj hj]
      exact fun heq => hid (heq ▸ w.known x (h.waiting x hx).1)
    · exact h.apart x hx j s' (by simpa [hjk] using hj)
  only x hx hxmine := by
    rcases mem_insertVm.mp hx with hmem | rfl
    · refine (h.only x hmem hxmine).imp_right ?_
      rintro ⟨j, s', hj, hjid⟩
      refine ⟨j, s', ?_, hjid⟩
      rw [update_of_ne, hj]
      rintro rfl
      simp [hk] at hj
    · exact .inr ⟨k, x, update_self .., rfl⟩

end

variable {p : Pass ι}

lemma Pass.createInstance_clean (hclean : (p.createInstance env svc k).Clean) :
    p.world.getVmByName (instanceName svc.name k) = none ∧
      ∃ s hid hname, (p.createInstance env svc k).world = p.world.insertVm s hid hname ∧
        s.name = instanceName svc.name k ∧ s.state = .running ∧ s.serviceId = some svc.id ∧
        s.serviceOrdinal = some k := by
  simp only [Pass.createInstance] at hclean ⊢
  split at hclean
  next existing h => split_ifs at hclean <;> simp at hclean
  next h =>
    cases herror : env.createError (instanceName svc.name k) with
    | some e => simp [herror] at hclean
    | none =>
    refine ⟨h, ⟨env.newId p.world.used, instanceName svc.name k, .running, env.now, some svc.id,
      some k⟩, env.fresh _, getVmByName_eq_none.mp h, ?_, rfl, rfl, rfl, rfl⟩
    split
    next existing h' => simp at h'
    next => rfl

lemma Pass.clean_of_createInstance (h : (p.createInstance env svc k).Clean) : p.Clean := by
  simp only [Pass.createInstance] at h
  split at h
  · split_ifs at h <;> simp at h
  · split at h
    · simp at h
    · exact h

/-! ## Marking a VM as stopped -/

lemma World.mem_markVmStopped : vm ∈ (w.markVmStopped id).vms ↔
    (vm ∈ w.vms ∧ vm.id ≠ id) ∨ ∃ x ∈ w.vms, x.id = id ∧ vm = { x with state := .stopped } := by
  simp only [World.markVmStopped, List.mem_map]
  constructor
  · rintro ⟨x, hx, rfl⟩
    split_ifs with hid
    · exact .inr ⟨x, hx, hid, rfl⟩
    · exact .inl ⟨hx, hid⟩
  · rintro (⟨hvm, hid⟩ | ⟨x, hx, hid, rfl⟩)
    · exact ⟨vm, hvm, if_neg hid⟩
    · exact ⟨x, hx, if_pos hid⟩

lemma Pass.refreshVmLiveness_spec (env : Env ι) (hvm : vm ∈ p.world.vms) :
    (p.refreshVmLiveness env vm).1 = refreshed p.world vm ∧
      Marked vm p.world (p.refreshVmLiveness env vm).2.world ∧
      ((refreshed p.world vm).state = .running → vm ∈ (p.refreshVmLiveness env vm).2.world.vms) := by
  have hsame : Marked vm p.world p.world := ⟨rfl, fun _ _ => Iff.rfl, vm, hvm, rfl, rfl, rfl, rfl⟩
  unfold Pass.refreshVmLiveness refreshed
  cases hstate : isLive vm.state with
  | false => exact ⟨by simp, by simpa using hsame, fun _ => by simpa using hvm⟩
  | true =>
  cases hlive : p.world.live vm.id with
  | true => exact ⟨by simp, by simpa using hsame, fun _ => by simpa using hvm⟩
  | false =>
  refine ⟨by simp, ?_, by simp⟩
  cases hmark : env.markError vm.id with
  | true => simpa using hsame
  | false =>
  refine ⟨rfl, fun x hx => ?_, { vm with state := .stopped }, ?_, rfl, rfl, rfl, rfl⟩
  · simp only [Bool.not_true, Bool.false_eq_true, ↓reduceIte, mem_markVmStopped]
    refine ⟨?_, fun hmem => .inl ⟨hmem, hx⟩⟩
    rintro (h | ⟨y, hy, hid, rfl⟩)
    · exact h.1
    · exact absurd hid hx
  · simp only [Bool.not_true, Bool.false_eq_true, ↓reduceIte, mem_markVmStopped]
    exact .inr ⟨vm, hvm, rfl, rfl⟩

end

/-! ## One survivor per ordinal

The first loop of a pass leaves the best record of each ordinal and no other VM of the service.
-/

variable {ι : Type} [LinearOrder ι] {env : Env ι} {svc : ServiceRecord ι} {w₀ w : World ι}
  {vm s : VmRecord ι} {held : ℕ → Option (VmRecord ι)} {rest : List (VmRecord ι)} {k : ℕ}

/-! ## The choice -/

/-- What is held for an ordinal is as good as every record of it that was looked at. -/
structure Chosen (svc : ServiceRecord ι) (w₀ : World ι) (held : ℕ → Option (VmRecord ι))
    (rest : List (VmRecord ι)) : Prop where
  origin : ∀ k s, held k = some s → ∃ vm ∈ w₀.vms, s = refreshed w₀ vm
  best : ∀ vm ∈ w₀.vms, vm.serviceId = some svc.id → ∀ k, vm.serviceOrdinal = some k →
    vm ∈ rest ∨ ∃ s, held k = some s ∧ s.preference ≤ (refreshed w₀ vm).preference

lemma Chosen.skip (h : Chosen svc w₀ held (vm :: rest)) (hvm : ∀ k, vm.serviceOrdinal = some k →
      ∃ s, held k = some s ∧ s.preference ≤ (refreshed w₀ vm).preference) :
    Chosen svc w₀ held rest where
  origin := h.origin
  best x hx hmine k hord := by
    rcases h.best x hx hmine k hord with hin | hbest
    · rcases mem_cons.mp hin with rfl | hin
      · exact .inr (hvm k hord)
      · exact .inl hin
    · exact .inr hbest

lemma Chosen.take (h : Chosen svc w₀ held (vm :: rest)) (hvm : vm ∈ w₀.vms)
    (hord : vm.serviceOrdinal = some k)
    (hbetter : ∀ s, held k = some s → (refreshed w₀ vm).preference ≤ s.preference) :
    Chosen svc w₀ (update held k (some (refreshed w₀ vm))) rest where
  origin j s hs := by
    by_cases hjk : j = k
    · rw [hjk, update_self] at hs
      exact ⟨vm, hvm, (some.inj hs).symm⟩
    · exact h.origin j s (by simpa [hjk] using hs)
  best x hx hmine j hxord := by
    by_cases hjk : j = k
    · rw [hjk, update_self]
      rcases h.best x hx hmine j hxord with hin | ⟨s, hs, hle⟩
      · rcases mem_cons.mp hin with rfl | hin
        · exact .inr ⟨_, rfl, le_rfl⟩
        · exact .inl hin
      · exact .inr ⟨_, rfl, (hbetter s (hjk ▸ hs)).trans hle⟩
    · rw [update_of_ne hjk]
      refine (h.best x hx hmine j hxord).imp_left fun hin => (mem_cons.mp hin).resolve_left ?_
      rintro rfl
      exact hjk (some.inj (hxord.symm.trans hord))

def slots (survivors : Pass.Survivors ι) : ℕ → Option (VmRecord ι) := fun k => survivors.lookup k

omit [LinearOrder ι] in
lemma slots_insert (survivors : Pass.Survivors ι) (k : ℕ) (s : VmRecord ι) :
    slots (survivors.insert k s) = update (slots survivors) k (some s) := by
  funext j
  by_cases hjk : j = k
  · subst hjk
    simp [slots]
  · simp [slots, hjk]

/-! ## The loop -/

structure Deduped (svc : ServiceRecord ι) (w₀ : World ι) (rest : List (VmRecord ι))
    (st : Pass ι × Pass.Survivors ι) : Prop where
  edit : Edit svc w₀ st.1.world
  tracks : Tracks svc st.1.world (slots st.2) rest
  chosen : Chosen svc w₀ (slots st.2) rest
  steady : ∀ vm ∈ rest, vm ∈ w₀.vms ∧ st.1.world.live vm.id = w₀.live vm.id

lemma deduped_start (svc : ServiceRecord ι) (w₀ : World ι) :
    Deduped svc w₀ (w₀.listVmsForService svc.id) (⟨w₀, {}⟩, ∅) where
  edit := Edit.refl svc w₀
  tracks := by
    refine ⟨?_, ?_, w₀.listVmsForService_ids svc.id, ?_, ?_⟩
    · intro k s hs
      simp [slots] at hs
    · exact fun vm hvm => mem_listVmsForService.mp hvm
    · intro vm _ k s hs
      simp [slots] at hs
    · exact fun vm hvm hmine => .inl (mem_listVmsForService.mpr ⟨hvm, hmine⟩)
  chosen := by
    refine ⟨?_, fun vm hvm hmine k _ => .inl (mem_listVmsForService.mpr ⟨hvm, hmine⟩)⟩
    intro k s hs
    simp [slots] at hs
  steady vm hvm := ⟨(mem_listVmsForService.mp hvm).1, rfl⟩

omit [LinearOrder ι] in
lemma Carries.of_marked {w' : World ι} (h : Marked vm w w')
    (hrunning : (refreshed w vm).state = .running → vm ∈ w'.vms) : Carries w' (refreshed w vm) where
  present := by simpa using h.same
  running hstate := by
    have hlive := (refreshed_running.mp hstate).2
    rw [refreshed_of_live hlive, h.live]
    exact ⟨hrunning hstate, hlive⟩

structure Looked (svc : ServiceRecord ι) (w₀ : World ι) (vm : VmRecord ι)
    (rest : List (VmRecord ι)) (survivors : Pass.Survivors ι) (p : Pass ι) : Prop where
  edit : Edit svc w₀ p.world
  tracks : ∃ now, now.id = vm.id ∧ Tracks svc p.world (slots survivors) (now :: rest)
  chosen : Chosen svc w₀ (slots survivors) (vm :: rest)
  steady : ∀ x ∈ vm :: rest, x ∈ w₀.vms ∧ p.world.live x.id = w₀.live x.id
  carries : Carries p.world (refreshed w₀ vm)
  mine : vm.serviceId = some svc.id

lemma Deduped.refresh {st : Pass ι × Pass.Survivors ι} (env : Env ι)
    (h : Deduped svc w₀ (vm :: rest) st) :
    ∃ p, st.1.refreshVmLiveness env vm = (refreshed w₀ vm, p) ∧ Looked svc w₀ vm rest st.2 p := by
  obtain ⟨hmem, hmine⟩ := h.tracks.waiting vm (.head _)
  obtain ⟨hlook, hmarked, hrunning⟩ := Pass.refreshVmLiveness_spec env hmem
  have hsame : refreshed st.1.world vm = refreshed w₀ vm := by
    rw [refreshed, refreshed, (h.steady vm (.head _)).2]
  refine ⟨_, Prod.ext (hlook.trans hsame) rfl, h.edit.trans (hmarked.edit hmem hmine),
    hmarked.tracks h.tracks, h.chosen, ?_, ?_, hmine⟩
  · intro x hx
    rw [hmarked.live]
    exact h.steady x hx
  · rw [← hsame]
    exact Carries.of_marked hmarked hrunning

namespace Looked

variable {survivors : Pass.Survivors ι} {p : Pass ι}

section
variable (h : Looked svc w₀ vm rest survivors p)
include h

lemma discard (hlost : ∀ k, vm.serviceOrdinal = some k → ∃ s, slots survivors k = some s ∧
      s.preference ≤ (refreshed w₀ vm).preference)
    (hclean : (p.destroyInstance env (refreshed w₀ vm)).2.Clean) :
    Deduped svc w₀ rest ((p.destroyInstance env (refreshed w₀ vm)).2, survivors) := by
  obtain ⟨now, hid, htracks⟩ := h.tracks
  have hne : ∀ x ∈ rest, x.id ≠ vm.id := by
    intro x hx heq
    refine (nodup_cons.mp htracks.distinct).1 ?_
    rw [hid, ← heq]
    exact List.mem_map_of_mem hx
  rw [Pass.destroyInstance_carried h.carries hclean, refreshed_same.1]
  refine ⟨?_, hid ▸ htracks.drop_waiting, h.chosen.skip hlost, ?_⟩
  · simpa using h.edit.trans (h.carries.edit (by simpa using h.mine))
  · intro x hx
    obtain ⟨hmem, hlive⟩ := h.steady x (.tail _ hx)
    exact ⟨hmem, (live_retireVm (hne x hx)).trans hlive⟩

lemma keep (hord : vm.serviceOrdinal = some k) (hk : survivors.lookup k = none) :
    Deduped svc w₀ rest (p, survivors.insert k (refreshed w₀ vm)) := by
  obtain ⟨now, hid, htracks⟩ := h.tracks
  refine ⟨h.edit, ?_, ?_, fun x hx => h.steady x (.tail _ hx)⟩
  · rw [slots_insert]
    exact htracks.hold hk h.carries (by simpa using hid.symm) (by simpa using h.mine)
      (by simpa using hord)
  · rw [slots_insert]
    refine h.chosen.take (h.steady vm (.head _)).1 hord ?_
    intro s hs
    simp [slots, hk] at hs

lemma replace {existing : VmRecord ι}
    (hord : vm.serviceOrdinal = some k) (hk : survivors.lookup k = some existing)
    (hbetter : betterSurvivor (refreshed w₀ vm) existing)
    (hclean : (p.destroyInstance env existing).2.Clean) : Deduped svc w₀ rest
      ((p.destroyInstance env existing).2, survivors.insert k (refreshed w₀ vm)) := by
  obtain ⟨now, hid, htracks⟩ := h.tracks
  obtain ⟨hold, hmine, -⟩ := htracks.carried k existing hk
  have hapart : existing.id ≠ vm.id := hid ▸ htracks.apart now (.head _) k existing hk
  rw [Pass.destroyInstance_carried hold hclean]
  refine ⟨h.edit.trans (hold.edit hmine), ?_, ?_, ?_⟩
  · rw [slots_insert, ← update_idem (a := k) none]
    refine (htracks.drop_held hk).hold (update_self ..) ?_ (by simpa using hid.symm)
      (by simpa using h.mine) (by simpa using hord)
    exact h.carries.retireVm (by simpa using hapart.symm)
  · rw [slots_insert]
    refine h.chosen.take (h.steady vm (.head _)).1 hord ?_
    intro s hs
    rw [← some.inj (hk.symm.trans hs)]
    exact ((betterSurvivor_iff _ _).mp hbetter).le
  · intro x hx
    obtain ⟨hmem, hlive⟩ := h.steady x (.tail _ hx)
    have hne : existing.id ≠ x.id := htracks.apart x (.tail _ hx) k existing hk
    exact ⟨hmem, (live_retireVm hne.symm).trans hlive⟩

end

end Looked

variable {st : Pass ι × Pass.Survivors ι}

lemma Deduped.dedupe (h : Deduped svc w₀ (vm :: rest) st)
    (hclean : (Pass.dedupe env st vm).1.Clean) : Deduped svc w₀ rest (Pass.dedupe env st vm) := by
  obtain ⟨p, hlook, hlooked⟩ := h.refresh env
  simp only [Pass.dedupe, hlook, refreshed_same] at hclean ⊢
  cases hord : vm.serviceOrdinal with
  | none =>
    simp only [hord] at hclean ⊢
    refine hlooked.discard ?_ hclean
    intro k hk
    simp [hord] at hk
  | some k =>
  simp only [hord] at hclean ⊢
  cases hk : st.2.lookup k with
  | none => exact hlooked.keep hord hk
  | some existing =>
  simp only [hk] at hclean ⊢
  by_cases hbetter : betterSurvivor (refreshed w₀ vm) existing
  · rw [if_pos hbetter] at hclean ⊢
    exact hlooked.replace hord hk hbetter hclean
  · rw [if_neg hbetter] at hclean ⊢
    refine hlooked.discard ?_ hclean
    intro j hj
    obtain rfl : k = j := some.inj (hord.symm.trans hj)
    exact ⟨existing, hk, not_lt.mp ((betterSurvivor_iff _ _).not.mp hbetter)⟩

lemma Pass.clean_of_dedupe (h : (Pass.dedupe env st vm).1.Clean) : st.1.Clean := by
  have hlook : (st.1.refreshVmLiveness env vm).2.outcome = st.1.outcome := by
    unfold Pass.refreshVmLiveness
    split_ifs <;> rfl
  rw [Pass.Clean, ← hlook]
  simp only [Pass.dedupe] at h
  split at h
  · exact Pass.clean_of_destroyInstance h
  · split at h
    · exact h
    · split_ifs at h
      · exact Pass.clean_of_destroyInstance h
      · exact Pass.clean_of_destroyInstance h

lemma foldl_clean {σ α : Type} {P : σ → Prop} {f : σ → α → σ}
    (hf : ∀ x a, P (f x a) → P x) {l : List α} {x : σ} (h : P (l.foldl f x)) : P x := by
  induction l generalizing x with
  | nil => exact h
  | cons a l ih => exact hf x a (ih h)

lemma Deduped.foldl (env : Env ι) (h : Deduped svc w₀ rest st)
    (hclean : (rest.foldl (Pass.dedupe env) st).1.Clean) :
    Deduped svc w₀ [] (rest.foldl (Pass.dedupe env) st) := by
  induction rest generalizing st with
  | nil => exact h
  | cons vm rest ih =>
    refine ih (h.dedupe ?_) hclean
    exact foldl_clean (P := fun st : Pass ι × Pass.Survivors ι => st.1.Clean)
       (fun _ _ => Pass.clean_of_dedupe) hclean

end Husker.Service
