import Husker.Service.Instances

/-! # A pass converges

The second loop makes every wanted ordinal a running VM, the third removes what is left.  A pass
over a service that has converged does nothing.
-/
namespace Husker.Service
open Store List Option Function AList Pass World Sigma
set_option linter.unusedSectionVars false

variable {ι : Type} [LinearOrder ι] {env : Env ι} {svc : ServiceRecord ι} {w₀ w : World ι}
  {vm s : VmRecord ι} {held chosen : ℕ → Option (VmRecord ι)} {rest : List (VmRecord ι)} {k : ℕ}

/-! ## A running VM for every wanted ordinal -/

variable {p : Pass ι} {survivors : Pass.Survivors ι}

lemma Pass.clean_of_replaced (h : (match p.destroyInstance env s with
      | (true, p) => p.createInstance env svc k
      | (false, p) => p).Clean) : (p.destroyInstance env s).2.Clean := by
  split at h
  next p' hp => exact hp ▸ clean_of_createInstance h
  next p' hp => exact hp ▸ h

lemma Pass.clean_of_ensure (h : (p.ensure env svc survivors k).Clean) : p.Clean := by
  unfold Pass.ensure at h
  split at h
  · exact clean_of_createInstance h
  · split_ifs at h
    · exact h
    · exact clean_of_destroyInstance (clean_of_replaced h)

/-- The state of the other loops: what is held now, `held`, came from `chosen`. -/
structure Settling (svc : ServiceRecord ι) (w₀ w : World ι) (chosen held : ℕ → Option (VmRecord ι)) :
    Prop where
  edit : Edit svc w₀ w
  tracks : Tracks svc w held []
  kept : ∀ k < svc.desiredInstances, ∀ s, chosen k = some s → s.state = .running → held k = some s

lemma Settling.create (h : Settling svc w₀ p.world chosen held)
    (hnone : held k = none) (hclean : (p.createInstance env svc k).Clean) :
    ∃ s, s.state = .running ∧ Settling svc w₀ (p.createInstance env svc k).world chosen
      (update held k (some s)) := by
  obtain ⟨-, s, hid, hname, hworld, hinstance, hrunning, hmine, hord⟩ := createInstance_clean hclean
  refine ⟨s, hrunning, ?_⟩
  rw [hworld]
  refine ⟨h.edit.trans (Edit.insertVm hmine hord hinstance), h.tracks.insertVm hnone hmine hord, ?_⟩
  intro j hj s' hs' hrun
  by_cases hjk : j = k
  · have := h.kept j hj s' hs' hrun
    simp [hjk, hnone] at this
  · rw [update_of_ne hjk]
    exact h.kept j hj s' hs' hrun

lemma Settling.drop (h : Settling svc w₀ w chosen held) (hk : held k = some s)
    (hdrop : k < svc.desiredInstances → ∀ s', chosen k = some s' → s'.state ≠ .running) :
    Settling svc w₀ (w.retireVm s.id) chosen (update held k none) := by
  obtain ⟨hcarries, hmine, -⟩ := h.tracks.carried k s hk
  refine ⟨h.edit.trans (hcarries.edit hmine), h.tracks.drop_held hk, ?_⟩
  intro j hj s' hs' hrun
  have hjk : j ≠ k := by
    rintro rfl
    exact hdrop hj s' hs' hrun
  rw [update_of_ne hjk]
  exact h.kept j hj s' hs' hrun

lemma Settling.ensure (h : Settling svc w₀ p.world (slots survivors) held)
    (hheld : held k = slots survivors k) (hclean : (p.ensure env svc survivors k).Clean) :
    ∃ s, s.state = .running ∧ Settling svc w₀ (p.ensure env svc survivors k).world
      (slots survivors) (update held k (some s)) := by
  unfold Pass.ensure at hclean ⊢
  cases hlookup : survivors.lookup k with
  | none =>
    simp only [hlookup] at hclean ⊢
    exact h.create (hheld.trans hlookup) hclean
  | some s =>
  have hs : held k = some s := hheld.trans hlookup
  simp only [hlookup] at hclean ⊢
  by_cases hrunning : s.state = .running
  · refine ⟨s, hrunning, ?_⟩
    rw [if_pos hrunning, ← hs, update_eq_self]
    exact h
  rw [if_neg hrunning] at hclean ⊢
  have hdestroyed := destroyInstance_carried (h.tracks.carried k s hs).1
    (clean_of_replaced hclean)
  simp only [hdestroyed] at hclean ⊢
  have hdropped := h.drop hs (by
    intro _ s' hs'
    rw [← some.inj (hlookup.symm.trans hs')]
    exact hrunning)
  obtain ⟨new, hnew, hsettling⟩ := Settling.create
    (p := ⟨p.world.retireVm s.id, { p.outcome with destroyed := p.outcome.destroyed ++ [s.name] }⟩)
    hdropped (update_self ..) hclean
  rw [update_idem] at hsettling
  exact ⟨new, hnew, hsettling⟩

/-- After the second loop has done the first `n` ordinals. -/
lemma Settling.foldl_ensure (h : Settling svc w₀ p.world (slots survivors) (slots survivors))
    (n : ℕ) (hclean : ((List.range n).foldl (Pass.ensure env svc survivors) p).Clean) :
    ∃ held, Settling svc w₀ ((List.range n).foldl (Pass.ensure env svc survivors) p).world
      (slots survivors) held ∧ (∀ k < n, ∃ s, held k = some s ∧ s.state = .running) ∧
      ∀ k, n ≤ k → held k = slots survivors k := by
  induction n with
  | zero => exact ⟨slots survivors, h, by simp, fun _ _ => rfl⟩
  | succ n ih =>
  rw [range_succ, foldl_append] at hclean ⊢
  obtain ⟨held, hsettling, hdone, hahead⟩ := ih (clean_of_ensure hclean)
  obtain ⟨s, hrunning, hnext⟩ := hsettling.ensure (hahead n le_rfl) hclean
  refine ⟨_, hnext, ?_, ?_⟩
  · intro k hk
    by_cases hkn : k = n
    · rw [hkn, update_self]
      exact ⟨s, rfl, hrunning⟩
    · rw [update_of_ne hkn]
      exact hdone k (by omega)
  · intro k hk
    rw [update_of_ne (by omega)]
    exact hahead k (by omega)

/-! ## Nothing else -/

lemma Settling.foldl_destroy {l : List (Σ _ : ℕ, VmRecord ι)}
    (h : Settling svc w₀ p.world chosen held) (hkeys : (l.map fst).Nodup)
    (hl : ∀ e ∈ l, held e.1 = some e.2 ∧ svc.desiredInstances ≤ e.1)
    (hclean : (l.foldl (fun p e => (p.destroyInstance env e.2).2) p).Clean) :
    ∃ held', Settling svc w₀
        (l.foldl (fun p e => (p.destroyInstance env e.2).2) p).world chosen held' ∧
      ∀ k, held' k = if k ∈ l.map fst then none else held k := by
  induction l generalizing p held with
  | nil => exact ⟨held, h, by simp⟩
  | cons e l ih =>
  obtain ⟨hnotin, hkeys⟩ := nodup_cons.mp hkeys
  obtain ⟨he, hexcess⟩ := hl e (.head _)
  have hdropped := h.drop he (by omega)
  have hrest : ∀ e' ∈ l, update held e.1 none e'.1 = some e'.2 ∧
      svc.desiredInstances ≤ e'.1 := by
    intro e' he'
    have hne : e'.1 ≠ e.1 := fun heq => hnotin (heq ▸ List.mem_map_of_mem he')
    rw [update_of_ne hne]
    exact hl e' (.tail _ he')
  have hdestroyed := destroyInstance_carried (h.tracks.carried _ _ he).1
    (foldl_clean (P := Pass.Clean) (fun _ _ => clean_of_destroyInstance) hclean)
  rw [foldl_cons, hdestroyed] at hclean ⊢
  obtain ⟨held', hsettling, hheld'⟩ := ih
    (p := ⟨p.world.retireVm e.2.id, { p.outcome with destroyed := p.outcome.destroyed ++ [e.2.name] }⟩)
    hdropped hkeys hrest hclean
  refine ⟨held', hsettling, fun k => ?_⟩
  rw [hheld' k]
  by_cases hk : k = e.1
  · simp [hk]
  · simp only [update_of_ne hk, map_cons, mem_cons, hk, false_or]

lemma foldl_excess (f : Pass ι → VmRecord ι → Pass ι) (survivors : Pass.Survivors ι) (n : ℕ)
    (p : Pass ι) : ∃ l : List (Σ _ : ℕ, VmRecord ι), (l.map fst).Nodup ∧
      (∀ e, e ∈ l ↔ slots survivors e.1 = some e.2 ∧ n ≤ e.1) ∧
      (Pass.excess n survivors).foldl f p = l.foldl (fun p e => f p e.2) p := by
  refine ⟨(survivors.entries.insertionSort fun a b => a.1 ≤ b.1).filter fun s => n ≤ s.1,
    ?_, ?_, foldl_map⟩
  · have hkeys : ((survivors.entries.insertionSort fun a b => a.1 ≤ b.1).map fst).Nodup :=
      ((perm_insertionSort _ _).map fst).nodup_iff.mpr survivors.nodupKeys
    exact hkeys.sublist (filter_sublist.map _)
  · rintro ⟨k, s⟩
    rw [mem_filter, (perm_insertionSort _ _).mem_iff, decide_eq_true_iff]
    exact and_congr_left fun _ => mem_lookup_iff.symm

/-! ## The pass -/

structure Runs (svc : ServiceRecord ι) (w : World ι) (k : ℕ) (vm : VmRecord ι) : Prop where
  mem : vm ∈ w.vms
  mine : vm.serviceId = some svc.id
  ordinal : vm.serviceOrdinal = some k
  state : vm.state = .running
  live : w.live vm.id

/-- One running VM for each wanted ordinal, and no other VM of the service. -/
structure Converged (svc : ServiceRecord ι) (w : World ι) : Prop where
  wanted : ∀ k < svc.desiredInstances, ∃ vm, Runs svc w k vm ∧
    ∀ other ∈ w.vms, other.serviceId = some svc.id → other.serviceOrdinal = some k → other = vm
  only : ∀ vm ∈ w.vms, vm.serviceId = some svc.id →
    ∃ k < svc.desiredInstances, vm.serviceOrdinal = some k

def HasTemplate (svc : ServiceRecord ι) : Prop := ¬(svc.rootfsPath = "" ∧ svc.cloudImage = none)

lemma reconcileService_template (htemplate : HasTemplate svc) (hlist : env.listError = none)
    (w : World ι) : ∃ st, (w.listVmsForService svc.id).foldl (Pass.dedupe env) (⟨w, {}⟩, ∅) = st ∧
      reconcileService env svc w = (Pass.excess svc.desiredInstances st.2).foldl
        (fun p vm => (p.destroyInstance env vm).2)
        ((List.range svc.desiredInstances).foldl (Pass.ensure env svc st.2) st.1) := by
  refine ⟨_, rfl, ?_⟩
  unfold reconcileService
  rw [if_neg]
  · simp only [hlist]
  · simpa [HasTemplate, String.isEmpty_iff] using htemplate

lemma clean_reconcileService (hclean : (reconcileService env svc w).Clean) :
    HasTemplate svc ∧ env.listError = none := by
  unfold reconcileService at hclean
  split_ifs at hclean with htemplate
  · simp at hclean
  · cases hlist : env.listError with
    | some e => simp [hlist] at hclean
    | none => exact ⟨by simpa [HasTemplate, String.isEmpty_iff] using htemplate, rfl⟩

/-- What a pass leaves: the map of instances it ends with and the records it chose from. -/
lemma reconcileService_settling (hclean : (reconcileService env svc w).Clean) :
    ∃ chosen held, Chosen svc w chosen [] ∧
      Settling svc w (reconcileService env svc w).world chosen held ∧
      (∀ k < svc.desiredInstances, ∃ s, held k = some s ∧ s.state = .running) ∧
      ∀ k, svc.desiredInstances ≤ k → held k = none := by
  obtain ⟨htemplate, hlist⟩ := clean_reconcileService hclean
  obtain ⟨st, hst, hpass⟩ := reconcileService_template htemplate hlist w
  rw [hpass] at hclean
  have hensured := foldl_clean (P := Pass.Clean) (fun _ _ => clean_of_destroyInstance) hclean
  have hdeduped := (deduped_start svc w).foldl env (by
    rw [hst]
    exact foldl_clean (P := Pass.Clean) (fun _ _ => clean_of_ensure) hensured)
  rw [hst] at hdeduped
  obtain ⟨held, hsettling, hdone, hahead⟩ := Settling.foldl_ensure
    ⟨hdeduped.edit, hdeduped.tracks, fun _ _ _ hs _ => hs⟩ svc.desiredInstances hensured
  obtain ⟨l, hkeys, hl, hfold⟩ := foldl_excess (fun p vm => (p.destroyInstance env vm).2) st.2
    svc.desiredInstances ((List.range svc.desiredInstances).foldl (Pass.ensure env svc st.2) st.1)
  have hheld : ∀ e ∈ l, held e.1 = some e.2 ∧ svc.desiredInstances ≤ e.1 := by
    intro e he
    obtain ⟨hslot, hexcess⟩ := (hl e).mp he
    exact ⟨(hahead e.1 hexcess).trans hslot, hexcess⟩
  obtain ⟨held', hfinal, hheld'⟩ := hsettling.foldl_destroy hkeys hheld (hfold ▸ hclean)
  rw [← hfold, ← hpass] at hfinal
  refine ⟨slots st.2, held', hdeduped.chosen, hfinal, ?_, ?_⟩
  · intro k hk
    have hnotin : k ∉ l.map fst := by
      intro hin
      obtain ⟨e, he, rfl⟩ := List.mem_map.mp hin
      have := ((hl e).mp he).2
      omega
    rw [hheld' k, if_neg hnotin]
    exact hdone k hk
  · intro k hk
    rw [hheld' k]
    split_ifs with hin
    · rfl
    · cases hslot : slots st.2 k with
      | none => exact (hahead k hk).trans hslot
      | some s => exact absurd (List.mem_map_of_mem ((hl ⟨k, s⟩).mpr ⟨hslot, hk⟩)) hin

lemma Settling.converged (h : Settling svc w₀ w chosen held)
    (hwanted : ∀ k < svc.desiredInstances, ∃ s, held k = some s ∧ s.state = .running)
    (hexcess : ∀ k, svc.desiredInstances ≤ k → held k = none) : Converged svc w where
  wanted k hk := by
    obtain ⟨s, hs, hrunning⟩ := hwanted k hk
    obtain ⟨hcarries, hmine, hord⟩ := h.tracks.carried k s hs
    obtain ⟨hmem, hlive⟩ := hcarries.running hrunning
    refine ⟨s, ⟨hmem, hmine, hord, hrunning, hlive⟩, ?_⟩
    intro other hother homine hoord
    obtain ⟨j, s', hs', hid, hjord⟩ := h.tracks.held_for hother homine
    rw [← some.inj (hoord.symm.trans hjord), hs] at hs'
    exact eq_of_id hother hmem (by rw [← hid, some.inj hs'])
  only vm hvm hmine := by
    obtain ⟨j, s, hs, -, hord⟩ := h.tracks.held_for hvm hmine
    refine ⟨j, ?_, hord⟩
    by_contra hj
    simp [hexcess j (by omega)] at hs

lemma Settling.keeps (h : Settling svc w₀ w chosen held) (hchosen : Chosen svc w₀ chosen [])
    (hk : k < svc.desiredInstances) (hvm : Runs svc w₀ k vm) :
    ∃ kept, Runs svc w₀ k kept ∧ (∀ other, Runs svc w₀ k other → kept.age ≤ other.age) ∧
      kept ∈ w.vms := by
  have hbest : ∀ x, Runs svc w₀ k x → ∃ s, chosen k = some s ∧ s.preference ≤ x.preference := by
    intro x hx
    obtain ⟨s, hs, hle⟩ := (hchosen.best x hx.mem hx.mine k hx.ordinal).resolve_left not_mem_nil
    exact ⟨s, hs, by rwa [refreshed_of_live hx.live] at hle⟩
  obtain ⟨s, hs, hle⟩ := hbest vm hvm
  obtain ⟨hrunning, -⟩ := preference_le_running hle hvm.state
  obtain ⟨hcarries, hmine, hord⟩ := h.tracks.carried k s (h.kept k hk s hs hrunning)
  obtain ⟨x, hx, rfl⟩ := hchosen.origin k s hs
  have hlive := (refreshed_running.mp hrunning).2
  rw [refreshed_of_live hlive] at *
  refine ⟨x, ⟨hx, hmine, hord, hrunning, hlive⟩, ?_, (hcarries.running hrunning).1⟩
  intro other hother
  obtain ⟨s, hs', hle'⟩ := hbest other hother
  rw [← some.inj (hs.symm.trans hs')] at hle'
  exact (preference_le_running hle' hother.state).2

/-! ## A pass over what has converged -/

lemma Converged.runs (h : Converged svc w) (hvm : vm ∈ w.vms) (hmine : vm.serviceId = some svc.id) :
    ∃ k < svc.desiredInstances, Runs svc w k vm := by
  obtain ⟨k, hk, hord⟩ := h.only vm hvm hmine
  obtain ⟨x, hx, hunique⟩ := h.wanted k hk
  exact ⟨k, hk, hunique vm hvm hmine hord ▸ hx⟩

lemma Converged.foldl_dedupe (env : Env ι) (h : Converged svc w) (survivors : Pass.Survivors ι)
    (hrest : ∀ vm ∈ rest, vm ∈ w.vms ∧ vm.serviceId = some svc.id)
    (hids : (rest.map VmRecord.id).Nodup)
    (hnew : ∀ vm ∈ rest, ∀ k, vm.serviceOrdinal = some k → survivors.lookup k = none) :
    ∃ survivors', rest.foldl (Pass.dedupe env) (⟨w, {}⟩, survivors) = (⟨w, {}⟩, survivors') ∧
      ∀ k s, survivors'.lookup k = some s ↔
        survivors.lookup k = some s ∨ (s ∈ rest ∧ s.serviceOrdinal = some k) := by
  induction rest generalizing survivors with
  | nil => exact ⟨survivors, rfl, by simp⟩
  | cons vm rest ih =>
  obtain ⟨hvm, hmine⟩ := hrest vm (.head _)
  obtain ⟨hnotin, hids⟩ := nodup_cons.mp hids
  obtain ⟨k, hk, hruns⟩ := h.runs hvm hmine
  have hstep : Pass.dedupe env (⟨w, {}⟩, survivors) vm = (⟨w, {}⟩, survivors.insert k vm) := by
    simp [Pass.dedupe, Pass.refreshVmLiveness, hruns.live, hruns.ordinal,
      hnew vm (.head _) k hruns.ordinal]
  have hnext : ∀ x ∈ rest, ∀ j, x.serviceOrdinal = some j →
      (survivors.insert k vm).lookup j = none := by
    intro x hx j hj
    obtain ⟨hxmem, hxmine⟩ := hrest x (.tail _ hx)
    have hjk : j ≠ k := by
      rintro rfl
      obtain ⟨y, -, hunique⟩ := h.wanted j hk
      rw [hunique vm hvm hmine hruns.ordinal, ← hunique x hxmem hxmine hj] at hnotin
      exact hnotin (List.mem_map_of_mem hx)
    rw [lookup_insert_ne hjk]
    exact hnew x (.tail _ hx) j hj
  obtain ⟨survivors', hfold, hlookup⟩ := ih (survivors.insert k vm)
    (fun x hx => hrest x (.tail _ hx)) hids hnext
  refine ⟨survivors', by rw [foldl_cons, hstep, hfold], fun j s => ?_⟩
  rw [hlookup]
  by_cases hjk : j = k
  · subst hjk
    rw [lookup_insert, hnew vm (.head _) j hruns.ordinal, some.injEq]
    constructor
    · rintro (rfl | ⟨hs, hord⟩)
      · exact .inr ⟨.head _, hruns.ordinal⟩
      · exact .inr ⟨.tail _ hs, hord⟩
    · rintro (hs | ⟨hs, hord⟩)
      · simp at hs
      · exact (mem_cons.mp hs).imp Eq.symm fun hs => ⟨hs, hord⟩
  · rw [lookup_insert_ne hjk, mem_cons]
    refine or_congr_right (and_congr_left fun hord => (or_iff_right ?_).symm)
    rintro rfl
    exact hjk (some.inj (hord.symm.trans hruns.ordinal))

lemma Converged.reconcileService (h : Converged svc w) (htemplate : HasTemplate svc)
    (hlist : env.listError = none) : reconcileService env svc w = ⟨w, {}⟩ := by
  obtain ⟨st, hst, hpass⟩ := reconcileService_template htemplate hlist w
  obtain ⟨survivors, hfold, hlookup⟩ := h.foldl_dedupe env ∅
    (fun vm hvm => mem_listVmsForService.mp hvm) (w.listVmsForService_ids svc.id) (by simp)
  obtain rfl : st = (⟨w, {}⟩, survivors) := hst.symm.trans hfold
  have hslots : ∀ k s, survivors.lookup k = some s → ∃ j < svc.desiredInstances, j = k ∧
      s.state = .running := by
    intro k s hs
    obtain ⟨hs, hord⟩ := ((hlookup k s).mp hs).resolve_left (by simp)
    obtain ⟨hmem, hmine⟩ := mem_listVmsForService.mp hs
    obtain ⟨j, hj, hruns⟩ := h.runs hmem hmine
    exact ⟨j, hj, some.inj (hruns.ordinal.symm.trans hord), hruns.state⟩
  have hensure : ∀ n ≤ svc.desiredInstances,
      (List.range n).foldl (Pass.ensure env svc survivors) ⟨w, {}⟩ = ⟨w, {}⟩ := by
    intro n hn
    induction n with
    | zero => rfl
    | succ n ih =>
    obtain ⟨vm, hruns, -⟩ := h.wanted n (by omega)
    have hs := (hlookup n vm).mpr
      (.inr ⟨mem_listVmsForService.mpr ⟨hruns.mem, hruns.mine⟩, hruns.ordinal⟩)
    rw [range_succ, foldl_append, ih (by omega)]
    simp [Pass.ensure, hs, hruns.state]
  obtain ⟨l, -, hl, hexcess⟩ := foldl_excess (fun p vm => (p.destroyInstance env vm).2) survivors
    svc.desiredInstances ⟨w, {}⟩
  obtain rfl : l = [] := by
    refine eq_nil_iff_forall_not_mem.mpr fun e he => ?_
    obtain ⟨hslot, hk⟩ := (hl e).mp he
    obtain ⟨j, hj, rfl, -⟩ := hslots e.1 e.2 hslot
    omega
  rw [hpass, hensure _ le_rfl, hexcess]
  rfl

/-! ## When nothing fails -/

structure Env.Reliable (env : Env ι) : Prop where
  list : env.listError = none
  create : ∀ name, env.createError name = none
  destroy : ∀ id, env.destroyError id = none

def Free (svc : ServiceRecord ι) (w : World ι) : Prop :=
  ∀ vm ∈ w.vms, vm.serviceId ≠ some svc.id → ∀ k < svc.desiredInstances,
    vm.name ≠ instanceName svc.name k

lemma Settling.name_free (h : Settling svc w₀ w chosen held) (hnamed : Named svc w₀)
    (hfree : Free svc w₀) (hk : k < svc.desiredInstances) (hnone : held k = none) :
    w.getVmByName (instanceName svc.name k) = none := by
  rw [getVmByName_eq_none, List.mem_map]
  rintro ⟨vm, hvm, hname⟩
  by_cases hmine : vm.serviceId = some svc.id
  · obtain ⟨j, s, hj, -, hord⟩ := h.tracks.held_for hvm hmine
    rcases h.edit.named hnamed vm hvm hmine k hk hname with hvmk | hvmk
    · rw [some.inj (hvmk.symm.trans hord), hj] at hnone
      simp at hnone
    · simp [hvmk] at hord
  · exact hfree vm ((h.edit.other vm hmine).mp hvm) hmine k hk hname

namespace Env.Reliable

section
variable (hr : env.Reliable)
include hr

lemma destroyInstance {p : Pass ι} (h : p.Clean) : (p.destroyInstance env s).2.Clean := by
  unfold Pass.destroyInstance
  split
  · exact h
  · split_ifs
    · rw [hr.destroy]
      exact h
    · exact h

lemma createInstance {p : Pass ι} (h : p.Clean)
    (hfree : p.world.getVmByName (instanceName svc.name k) = none) :
    (p.createInstance env svc k).Clean := by
  simp only [Pass.createInstance]
  split
  next existing hexisting => simp [hfree] at hexisting
  next =>
    simp only [hr.create]
    exact h

lemma dedupe {st : Pass ι × Pass.Survivors ι} (h : st.1.Clean) :
    (Pass.dedupe env st vm).1.Clean := by
  have hlook : (st.1.refreshVmLiveness env vm).2.Clean := by
    unfold Pass.refreshVmLiveness
    split_ifs <;> exact h
  simp only [Pass.dedupe]
  split
  · exact hr.destroyInstance hlook
  · split
    · exact hlook
    · split_ifs
      · exact hr.destroyInstance hlook
      · exact hr.destroyInstance hlook

lemma ensure {p : Pass ι} {survivors : Pass.Survivors ι} (h : p.Clean)
    (hsettling : Settling svc w₀ p.world (slots survivors) held) (hheld : held k = slots survivors k)
    (hnamed : Named svc w₀) (hfree : Free svc w₀) (hk : k < svc.desiredInstances) :
    (p.ensure env svc survivors k).Clean := by
  unfold Pass.ensure
  cases hlookup : survivors.lookup k with
  | none => exact hr.createInstance h (hsettling.name_free hnamed hfree hk (hheld.trans hlookup))
  | some s =>
  by_cases hrunning : s.state = .running
  · simpa [hrunning] using h
  have hs : held k = some s := hheld.trans hlookup
  have hclean := hr.destroyInstance (s := s) h
  have hdestroyed := destroyInstance_carried (hsettling.tracks.carried k s hs).1 hclean
  have hdropped := hsettling.drop hs (by
    intro _ s' hs'
    rw [← some.inj (hlookup.symm.trans hs')]
    exact hrunning)
  rw [hdestroyed] at hclean
  simp only [if_neg hrunning, hdestroyed]
  exact hr.createInstance hclean
    (hdropped.name_free hnamed hfree hk (update_self ..))

lemma reconcileService (htemplate : HasTemplate svc) (hnamed : Named svc w)
    (hfree : Free svc w) : (reconcileService env svc w).Clean := by
  obtain ⟨st, hst, hpass⟩ := reconcileService_template htemplate hr.list w
  have hfirst : st.1.Clean := by
    rw [← hst]
    exact List.foldlRecOn (motive := fun st : Pass ι × Pass.Survivors ι => st.1.Clean) _ _ rfl
      fun _ h _ _ => hr.dedupe h
  have hdeduped := (deduped_start svc w).foldl env (hst ▸ hfirst)
  rw [hst] at hdeduped
  have hsecond : ∀ n ≤ svc.desiredInstances,
      ((List.range n).foldl (Pass.ensure env svc st.2) st.1).Clean := by
    intro n hn
    induction n with
    | zero => exact hfirst
    | succ n ih =>
    obtain ⟨held, hsettling, -, hahead⟩ := Settling.foldl_ensure
      ⟨hdeduped.edit, hdeduped.tracks, fun _ _ _ hs _ => hs⟩ n (ih (by omega))
    rw [range_succ, foldl_append]
    exact hr.ensure (ih (by omega)) hsettling (hahead n le_rfl) hnamed hfree (by omega)
  rw [hpass]
  exact List.foldlRecOn _ _ (hsecond _ le_rfl) fun _ h _ _ => hr.destroyInstance h

end

end Env.Reliable

/-- A pass in which nothing fails leaves one running VM for each wanted ordinal and no other VM of
the service.  It keeps the oldest running VM of a wanted ordinal, touches no VM of another owner,
and the next pass does nothing. -/
theorem reconcile_converges (env : Env ι) (svc : ServiceRecord ι) (w : World ι) (hr : env.Reliable)
    (htemplate : HasTemplate svc) (hnamed : Named svc w) (hfree : Free svc w) :
    Converged svc (reconcileService env svc w).world ∧
      (∀ k < svc.desiredInstances, (∃ vm, Runs svc w k vm) → ∃ vm, Runs svc w k vm ∧
        (∀ other, Runs svc w k other → vm.age ≤ other.age) ∧
        vm ∈ (reconcileService env svc w).world.vms) ∧
      (∀ vm, vm.serviceId ≠ some svc.id →
        (vm ∈ (reconcileService env svc w).world.vms ↔ vm ∈ w.vms)) ∧
      (∀ vm ∈ w.vms, vm.serviceId ≠ some svc.id →
        (reconcileService env svc w).world.live vm.id = w.live vm.id) ∧
      ∀ next : Env ι, next.listError = none →
        reconcileService next svc (reconcileService env svc w).world =
          ⟨(reconcileService env svc w).world, {}⟩ := by
  obtain ⟨chosen, held, hchosen, hsettling, hwanted, hexcess⟩ :=
    reconcileService_settling (hr.reconcileService htemplate hnamed hfree)
  have hconverged := hsettling.converged hwanted hexcess
  refine ⟨hconverged, ?_, hsettling.edit.other, hsettling.edit.live, ?_⟩
  · rintro k hk ⟨vm, hvm⟩
    exact hsettling.keeps hchosen hk hvm
  · intro next hlist
    exact hconverged.reconcileService htemplate hlist

/-- Identifiers are numbers, and the next one is above all that were used. -/
def quietHost : Env ℕ where
  newId used := used.foldr max 0 + 1
  fresh used := by
    have hle : ∀ id ∈ used, id ≤ used.foldr max 0 := by
      intro id hid
      induction used with
      | nil => simp at hid
      | cons a used ih => grind
    intro hmem
    have := hle _ hmem
    omega
  now := ⟨50⟩
  listError := none
  createError _ := none
  destroyError _ := none
  markError _ := false

def webService : ServiceRecord ℕ := ⟨100, "web", 2, "/images/web.img", none, none⟩

/-- Two instances of one ordinal, one that stopped, one beyond the count, one without an ordinal,
and a VM of nobody. -/
def crowded : World ℕ where
  vms := [⟨1, "web-0", .running, ⟨20⟩, some 100, some 0⟩, ⟨2, "web-x", .running, ⟨10⟩, some 100, some 0⟩,
    ⟨3, "web-1", .stopped, ⟨5⟩, some 100, some 1⟩, ⟨4, "web-7", .paused, ⟨5⟩, some 100, some 7⟩,
    ⟨5, "web-9", .failed, ⟨5⟩, some 100, none⟩, ⟨6, "db", .running, ⟨5⟩, none, none⟩]
  live id := id ≠ 3 && id ≠ 5
  used := [1, 2, 3, 4, 5, 6]
  ids := by decide
  names := by decide
  known := by decide

theorem crowded_converges :
    Converged webService (reconcileService quietHost webService crowded).world ∧
      (reconcileService quietHost webService crowded).world.vms.map VmRecord.id = [2, 6, 7] ∧
      (reconcileService quietHost webService crowded).outcome =
        ⟨["web-1"], ["web-9", "web-0", "web-1", "web-7"], []⟩ := by
  refine ⟨(reconcile_converges quietHost webService crowded ⟨rfl, fun _ => rfl, fun _ => rfl⟩
    ?_ ?_ ?_).1, ?_, ?_⟩
  · unfold HasTemplate
    decide
  · unfold Named
    decide +kernel
  · unfold Free
    decide +kernel
  · decide +kernel
  · decide +kernel

end Husker.Service
