import Husker.System.Custody

/-! # Soundness of the reboot proof

The store runs on a host that reboots now and then, and every call reads the true boot or
none.  A lease's evidence names the boot it was entered in for as long as that boot lasts, so
a different boot proves that the host went down after the entry.
-/
namespace Husker.System
open Relational Store Journal Lease List Rewritten

variable {c : Codec} {db db' : Db} {w w' : World} {e : Event} {id : Uuid}

/-! ## What a call does to boot evidence -/

/-- Where the evidence `x'` of the state after a call comes from, when the call read `identity`. -/
inductive EpochChange (db : Db) (identity : Option HostBoot) (db' : Db) (x' : EpochRow) : Prop
  | kept (h : x' ∈ db.epochs.rows)
  | recorded (hidentity : identity = some x'.baseline) (hconfirmed : x'.confirmed = false)
      (hlease : ∃ l ∈ db'.leases.rows, l.id = x'.leaseId)
  | confirmed (i : HostBoot) (x : EpochRow) (hidentity : identity = some i)
      (hx : x ∈ db.epochs.rows) (hentered : entered db x.leaseId = true)
      (hboot : i.boot ≠ x.baseline.boot) (heq : x' = { x with confirmed := true })

variable {x : EpochRow} {t : Tx} {trace : List Event}

lemma mem_observed {lease : Uuid} {identity : Option HostBoot} (h : x ∈ observed lease identity) :
    x.leaseId = lease ∧ identity = some x.baseline ∧ x.confirmed = false := by
  cases identity with
  | none => simp [observed] at h
  | some i =>
  simp only [observed, Option.toList_some, map_cons, map_nil, mem_singleton] at h
  rw [h]
  exact ⟨rfl, rfl, rfl⟩

variable {x' : EpochRow}

lemma HostEffect.epoch (h : HostEffect db t db') (hx' : x' ∈ db'.epochs.rows) : EpochChange db t.identity db' x' := by
  cases h with
  | idle h => exact .kept (h.epochs ▸ hx')
  | relabel _ hepochs => exact .kept (hepochs ▸ hx')
  | begins seed name vmId lease _ hidentity h =>
    rcases h.epochs with hrows | ⟨hrows, -⟩
    · rw [hrows, mem_append] at hx'
      rcases hx' with hx' | hx'
      · exact .kept hx'
      · obtain ⟨hid, hbaseline, hconfirmed⟩ := mem_observed hx'
        refine .recorded (hidentity.trans hbaseline) hconfirmed ⟨lease, by rw [h.rows]; simp, ?_⟩
        rw [h.lease_eq, hid]
        rfl
    · rw [hrows] at hx'
      exact .kept hx'
  | enter id vmId identity l ht hl heligible _ hepochs =>
    obtain ⟨db₁, hprepare, heq⟩ := hepochs
    rw [heq] at hx'
    obtain ⟨-, -, ⟨_, _, hrows, -⟩ | ⟨-, hrows⟩ | ⟨-, hrows⟩⟩ := prepareEntryOn_eq_ok hprepare
    · exact .kept (hrows ▸ hx')
    · rw [hrows, mem_append] at hx'
      rcases hx' with hx' | hx'
      · exact .kept hx'
      obtain ⟨hid, hbaseline, hconfirmed⟩ := mem_observed hx'
      obtain ⟨l', hl', hchange⟩ := Rewritten.keeps hl
        (.enter l vmId (eligible_eq_true heligible).2.1 (eligible_eq_true heligible).2.2.1
          (eligible_eq_true heligible).2.2.2.2) hl.mem
      refine .recorded (by rw [ht]; exact hbaseline) hconfirmed ⟨l', hl', ?_⟩
      rw [hchange.identity.1, (eligible_eq_true heligible).1, hid]
    · rw [hrows] at hx'
      exact .kept (mem_of_mem_filter hx')
  | destroy _ _ _ _ _ _ _ _ hframe | network _ _ _ _ _ _ hframe | abort _ _ _ _ _ _ _ hframe =>
    rw [hframe] at hx'
    exact .kept hx'
  | observe identity ht hframe hepochs =>
    obtain ⟨new, hrows, hnew⟩ := hepochs
    rw [hrows, mem_append] at hx'
    rcases hx' with hx' | hx'
    · exact .kept hx'
    · obtain ⟨i, hi, hbaseline, hconfirmed, hlease, -⟩ := hnew x' hx'
      refine .recorded (by rw [ht, hbaseline]; exact hi) hconfirmed ?_
      rw [hframe]
      exact hlease
  | confirm id identity x ht _ hx hid hentered _ hboot hepochs =>
    rw [hepochs] at hx'
    rcases (Table.mem_updated_key (fun _ _ => clash_of_epoch) hx hid).mp hx' with rfl | ⟨hmem, -⟩
    · exact .confirmed identity x (by rw [ht]; rfl) hx (hid ▸ hentered) hboot rfl
    · exact .kept hmem
  | transfer _ _ _ _ hl | release _ _ hl =>
    rw [hl.epochs] at hx'
    exact .kept (mem_of_mem_filter hx')
  | retire v _ hv =>
    rw [hv.frame] at hx'
    exact .kept hx'

lemma step_epoch (h : (store c).step w e w') (hx' : x' ∈ w'.db.epochs.rows) :
    EpochChange w.db e.call.identity w'.db x' := by
  cases step_host h with
  | idle hsame => exact .kept (hsame.epochs ▸ hx')
  | commit t reply hcall _ heffect =>
    rw [hcall]
    exact heffect.epoch hx'
  | purge base _ _ hdb | raise base _ _ hdb =>
    rw [hdb] at hx'
    exact .kept hx'

lemma HostEffect.keeps_epoch (h : HostEffect db t db') (hx : x ∈ db.epochs.rows)
    (hconfirmed : x.confirmed = true) : x ∈ db'.epochs.rows ∨
      ((∀ l ∈ db'.leases.rows, l.id ≠ x.leaseId) ∧ ∀ y ∈ db'.epochs.rows, y.leaseId ≠ x.leaseId) := by
  have hdrops {l : LeaseRow} (hl : Drops db db' l) : x ∈ db'.epochs.rows ∨
      ((∀ l ∈ db'.leases.rows, l.id ≠ x.leaseId) ∧
        ∀ y ∈ db'.epochs.rows, y.leaseId ≠ x.leaseId) := by
    rw [hl.epochs, hl.leases]
    by_cases hid : x.leaseId = l.id
    · right
      simp [hid]
    · left
      simp [hx, hid]
  cases h with
  | idle h => exact .inl (h.epochs ▸ hx)
  | relabel _ hepochs => exact .inl (hepochs ▸ hx)
  | begins seed name vmId lease _ _ h =>
    rcases h.epochs with hrows | ⟨hrows, -⟩
    · exact .inl (by rw [hrows]; exact mem_append_left _ hx)
    · exact .inl (by rw [hrows]; exact hx)
  | enter id vmId identity l _ _ _ _ hepochs =>
    obtain ⟨db₁, hprepare, heq⟩ := hepochs
    obtain ⟨-, hguard, hrows⟩ := prepareEntryOn_eq_ok hprepare
    have hid : x.leaseId ≠ id := by
      intro hid
      simp [(hguard x hx hid).1] at hconfirmed
    left
    rw [heq]
    rcases hrows with ⟨_, _, hrows, -⟩ | ⟨-, hrows⟩ | ⟨-, hrows⟩ <;> rw [hrows]
    · exact hx
    · exact mem_append_left _ hx
    · exact mem_filter.mpr ⟨hx, by simpa using hid⟩
  | destroy _ _ _ _ _ _ _ _ hframe | network _ _ _ _ _ _ hframe | abort _ _ _ _ _ _ _ hframe =>
    exact .inl (by rw [hframe]; exact hx)
  | observe identity _ _ hepochs =>
    obtain ⟨new, hrows, -⟩ := hepochs
    exact .inl (by rw [hrows]; exact mem_append_left _ hx)
  | confirm id identity y _ _ hy hid _ _ _ hepochs =>
    left
    rw [hepochs]
    apply (Table.mem_updated_key (fun _ _ => clash_of_epoch) hy hid).mpr
    by_cases hxid : x.leaseId = id
    · left
      rw [epoch_unique hy hx (hid.trans hxid.symm), ← hconfirmed]
    · exact .inr ⟨hx, hxid⟩
  | transfer _ _ _ _ hl | release _ _ hl => exact hdrops hl
  | retire v _ hv => exact .inl (by rw [hv.frame]; exact hx)

lemma step_keeps_epoch (h : (store c).step w e w') (hx : x ∈ w.db.epochs.rows)
    (hconfirmed : x.confirmed = true) :
    x ∈ w'.db.epochs.rows ∨ ((∀ l ∈ w'.db.leases.rows, l.id ≠ x.leaseId) ∧
      ∀ y ∈ w'.db.epochs.rows, y.leaseId ≠ x.leaseId) := by
  cases step_host h with
  | idle hsame => exact .inl (hsame.epochs ▸ hx)
  | commit t reply _ _ heffect => exact heffect.keeps_epoch hx hconfirmed
  | purge base _ _ hdb | raise base _ _ hdb =>
    rw [hdb]
    exact .inl hx

variable {l' : LeaseRow}

lemma HostEffect.entered (h : HostEffect db t db') (hl' : l' ∈ db'.leases.rows) (hentered : l'.backendEntered = true) :
    (∃ l ∈ db.leases.rows, l.id = l'.id ∧ l.backendEntered = true) ∨
      ∃ vmId identity, t = .enterHostResourceLeaseBackend l'.id vmId identity := by
  have hsame (hmem : l' ∈ db.leases.rows) :
      ∃ l ∈ db.leases.rows, l.id = l'.id ∧ l.backendEntered = true := ⟨l', hmem, rfl, hentered⟩
  have hrewritten {l : LeaseRow} {f : LeaseRow → LeaseRow} (hl : Rewritten db db' l f)
      (hid : (f l).id = l.id) (hf : (f l).backendEntered = l.backendEntered) :
      ∃ l ∈ db.leases.rows, l.id = l'.id ∧ l.backendEntered = true := by
    rcases (mem_rows hl).mp hl' with rfl | ⟨hmem, -⟩
    · exact ⟨l, hl.mem, hid.symm, hf.symm.trans hentered⟩
    · exact hsame hmem
  cases h with
  | idle h => exact .inl (hsame (h.leases ▸ hl'))
  | relabel hleases => exact .inl (hsame (hleases ▸ hl'))
  | begins seed name vmId lease _ _ h =>
    rw [h.rows, mem_append, mem_singleton] at hl'
    rcases hl' with hl' | rfl
    · exact .inl (hsame hl')
    · rw [h.lease_eq] at hentered
      simp [newLease] at hentered
  | enter id vmId identity l ht hl heligible =>
    rcases (mem_rows hl).mp hl' with rfl | ⟨hmem, -⟩
    · right
      have hid : (enteredRow vmId l).id = id := (eligible_eq_true heligible).1
      rw [hid]
      exact ⟨vmId, identity, ht⟩
    · exact .inl (hsame hmem)
  | destroy _ _ _ _ hl | network _ _ _ _ hl | abort _ _ _ _ _ hl =>
    exact .inl (hrewritten hl rfl rfl)
  | observe _ _ hframe | confirm _ _ _ _ hframe =>
    rw [hframe] at hl'
    exact .inl (hsame hl')
  | transfer _ _ _ _ hl | release _ _ hl =>
    rw [hl.leases] at hl'
    exact .inl (hsame (mem_of_mem_filter hl'))
  | retire v _ hv =>
    rw [hv.frame] at hl'
    exact .inl (hsame hl')

lemma step_entered (h : (store c).step w e w') (hl' : l' ∈ w'.db.leases.rows)
    (hentered : l'.backendEntered = true) :
    (∃ l ∈ w.db.leases.rows, l.id = l'.id ∧ l.backendEntered = true) ∨ e.enters l'.id := by
  cases step_host h with
  | idle hsame => exact .inl ⟨l', hsame.leases ▸ hl', rfl, hentered⟩
  | commit t reply hcall hout heffect =>
    refine (heffect.entered hl' hentered).imp_right ?_
    rintro ⟨vmId, identity, rfl⟩
    exact ⟨vmId, identity, reply, hcall, hout⟩
  | purge base _ _ hdb | raise base _ _ hdb =>
    rw [hdb] at hl'
    exact .inl ⟨l', hl', rfl, hentered⟩

lemma step_enters_epoch (h : (store c).step w e w') (he : e.enters id) :
    confirmedOn w.db id = false ∧ ∀ x ∈ w'.db.epochs.rows, x.leaseId = id →
      x.confirmed = false ∧ e.call.identity = some x.baseline := by
  obtain ⟨vmId, identity, reply, hcall, hout⟩ := he
  have hbody := (noReply_eq_ok.mp (step_body h hcall hout)).1
  obtain ⟨l, -, -, -, db₁, hprepare, hepochs⟩ :=
    enterHostResourceLeaseBackend_eq_ok (mapError_eq_ok.mp hbody)
  obtain ⟨-, hguard, hrows⟩ := prepareEntryOn_eq_ok hprepare
  rw [hcall, hepochs]
  constructor
  · by_contra hconfirmed
    obtain ⟨x, hx, hid, hx'⟩ := confirmedOn_eq_true.mp (Bool.eq_true_of_not_eq_false hconfirmed)
    simp [(hguard x hx hid).1] at hx'
  intro x hx hid
  rcases hrows with ⟨i, hi, hrows, -⟩ | ⟨hnone, hrows⟩ | ⟨-, hrows⟩ <;> rw [hrows] at hx
  · obtain ⟨hconfirmed, hbaseline⟩ := hguard x hx hid
    refine ⟨hconfirmed, ?_⟩
    rw [hbaseline i (by rw [hi]; rfl)]
    exact hi
  · rcases mem_append.mp hx with hx | hx
    · exact absurd hid (hnone x hx)
    · exact ⟨(mem_observed hx).2.2, (mem_observed hx).2.1⟩
  · simp [hid] at hx

lemma entered_of_run (h : (store c).Run .init trace w) :
    ∀ l ∈ w.db.leases.rows, l.backendEntered = true → ∃ e ∈ trace, e.enters l.id := by
  refine h.history (I := fun trace w => ∀ l ∈ w.db.leases.rows, l.backendEntered = true →
    ∃ e ∈ trace, e.enters l.id) (by simp [World.init, Db.fresh]) ?_
  intro trace w e w' _ hI hstep l' hl' hentered
  rcases step_entered hstep hl' hentered with ⟨l, hl, hid, hl_entered⟩ | henters
  · obtain ⟨e', he', henters⟩ := hI l hl hl_entered
    exact ⟨e', mem_append_left _ he', hid ▸ henters⟩
  · exact ⟨e, by simp, henters⟩

lemma confirmed_was_entered (h : (store c).Run .init trace w) :
    ∀ x ∈ w.db.epochs.rows, x.confirmed = true → ∃ e ∈ trace, e.enters x.leaseId := by
  refine h.history (I := fun trace w => ∀ x ∈ w.db.epochs.rows, x.confirmed = true →
    ∃ e ∈ trace, e.enters x.leaseId) (by simp [World.init, Db.fresh]) ?_
  intro trace w e w' hrun hI hstep x' hx' hconfirmed
  cases step_epoch hstep hx' with
  | kept hx =>
    obtain ⟨e', he', henters⟩ := hI x' hx hconfirmed
    exact ⟨e', mem_append_left _ he', henters⟩
  | recorded _ hfalse => simp [hfalse] at hconfirmed
  | confirmed i x _ hx hentered _ heq =>
  obtain ⟨l, hl, hid, hl_entered⟩ := entered_eq_true.mp hentered
  obtain ⟨e', he', henters⟩ := entered_of_run hrun l hl hl_entered
  rw [heq]
  exact ⟨e', mem_append_left _ he', hid ▸ henters⟩

lemma epoch_issued (hw : Reachable c w) : ∀ x ∈ w.db.epochs.rows, x.leaseId ∈ w.issued := by
  obtain ⟨trace, hrun⟩ := hw
  refine hrun.history (I := fun _ w => ∀ x ∈ w.db.epochs.rows, x.leaseId ∈ w.issued)
    (by simp [World.init, Db.fresh]) ?_
  intro trace w e w' hrun hI hstep x' hx'
  cases step_epoch hstep hx' with
  | kept hx => exact issued_mono hstep _ (hI x' hx)
  | recorded _ _ hlease =>
    obtain ⟨l, hl, hid⟩ := hlease
    rw [← hid]
    exact lease_issued ⟨_, hrun.snoc hstep⟩ l hl
  | confirmed i x _ hx _ _ heq =>
    rw [heq]
    exact issued_mono hstep _ (hI x hx)

/-- The evidence `x` is there, or its lease is gone and nothing speaks of it any more. -/
def Stands (x : EpochRow) (db : Db) : Prop :=
  x ∈ db.epochs.rows ∨
    ((∀ l ∈ db.leases.rows, l.id ≠ x.leaseId) ∧ ∀ y ∈ db.epochs.rows, y.leaseId ≠ x.leaseId)

lemma Stands.step (hx : Stands x w.db) (hconfirmed : x.confirmed = true)
    (hissued : x.leaseId ∈ w.issued) (h : (store c).step w e w') : Stands x w'.db := by
  rcases hx with hx | ⟨hleases, hepochs⟩
  · exact step_keeps_epoch h hx hconfirmed
  have hgone : ∀ l' ∈ w'.db.leases.rows, l'.id ≠ x.leaseId := by
    intro l' hl' hid
    rcases step_lease h hl' with ⟨l, hl, hchange⟩ | ⟨seed, name, cid, vmId, hdraw, rfl⟩
    · exact hleases l hl (hchange.identity.1.symm.trans hid)
    · rw [← hid] at hissued
      exact h.1 _ hdraw hissued
  refine .inr ⟨hgone, fun y' hy' hid => ?_⟩
  cases step_epoch h hy' with
  | kept hy => exact hepochs y' hy hid
  | recorded _ _ hlease =>
    obtain ⟨l, hl, hl_id⟩ := hlease
    exact hgone l hl (hl_id.trans hid)
  | confirmed i y _ hy _ _ heq =>
    rw [heq] at hid
    exact hepochs y hy hid

lemma Stands.run (hx : Stands x w.db)
    (hconfirmed : x.confirmed = true) (hissued : x.leaseId ∈ w.issued)
    (h : (store c).Run w trace w') : Stands x w'.db ∧ ∀ e ∈ trace, ¬e.enters x.leaseId := by
  induction h with
  | nil w => exact ⟨hx, by simp⟩
  | cons hstep _ ih =>
  obtain ⟨hstands, hnone⟩ := ih (hx.step hconfirmed hissued hstep) (issued_mono hstep _ hissued)
  refine ⟨hstands, fun e he henters => ?_⟩
  rcases mem_cons.mp he with rfl | he
  · rcases hx with hx | ⟨hleases, -⟩
    · have := (step_enters_epoch hstep henters).1
      simp [confirmedOn_eq_true.mpr ⟨x, hx, rfl, hconfirmed⟩] at this
    · obtain ⟨⟨l, hl, hid, -⟩, -⟩ := step_enters hstep henters
      exact hleases l hl hid
  · exact hnone e he henters

/-! ## A host that reboots -/

structure Site where
  world : World
  host : Uuid
  boot : Uuid
  past : List Uuid

def Site.init (host boot : Uuid) : Site := ⟨.init, host, boot, []⟩

def Site.identity (s : Site) : HostBoot := ⟨s.host, s.boot⟩

inductive Occurrence where
  | call (e : Event)
  | reboot (boot : Uuid)

/-- Calls that read the true identity or none, and reboots into boots never seen before. -/
def site (c : Codec) : Machine Site Occurrence where
  step s o s' :=
    match o with
    | .call e =>
      (store c).step s.world e s'.world ∧ (∀ i ∈ e.call.identity, i = s.identity) ∧
        s' = { s with world := s'.world }
    | .reboot boot =>
      boot ≠ s.boot ∧ boot ∉ s.past ∧ s' = { s with boot, past := s.boot :: s.past }

def calls (trace : List Occurrence) : List Event :=
  trace.filterMap fun
    | .call e => some e
    | .reboot _ => none

lemma mem_calls {trace : List Occurrence} : e ∈ calls trace ↔ .call e ∈ trace := by
  simp only [calls, mem_filterMap]
  constructor
  · rintro ⟨o, ho, heq⟩
    cases o with
    | call e' => simp_all
    | reboot => simp at heq
  · exact fun h => ⟨.call e, h, rfl⟩

lemma calls_run {s s' : Site} {trace : List Occurrence} (h : (site c).Run s trace s') :
    (store c).Run s.world (calls trace) s'.world := by
  induction h with
  | nil s => exact .nil _
  | @cons s₁ s₂ s₃ o trace hstep _ ih =>
  cases o with
  | call e => exact .cons hstep.1 ih
  | reboot boot =>
    have hworld : s₂.world = s₁.world := by rw [hstep.2.2]
    exact hworld ▸ ih

lemma run_of_calls {host boot : Uuid} {past : List Uuid} (h : (store c).Run w trace w')
    (hidentity : ∀ e ∈ trace, ∀ i ∈ e.call.identity, i = ⟨host, boot⟩) :
    (site c).Run ⟨w, host, boot, past⟩ (trace.map .call) ⟨w', host, boot, past⟩ := by
  induction h with
  | nil w => exact .nil _
  | cons hstep _ ih =>
    refine .cons ⟨hstep, hidentity _ (by simp), rfl⟩ (ih fun e he => ?_)
    exact hidentity e (.tail _ he)

def EnteredNow (id : Uuid) (trace : List Occurrence) : Prop :=
  ∃ before e after, trace = before ++ .call e :: after ∧ e.enters id ∧ ∀ boot, .reboot boot ∉ after

lemma EnteredNow.of_snoc {trace : List Occurrence} {o : Occurrence}
    (h : EnteredNow id (trace ++ [o])) :
    (∃ e, o = .call e ∧ e.enters id) ∨ (EnteredNow id trace ∧ ∃ e, o = .call e) := by
  obtain ⟨before, e, after, heq, henters, hnone⟩ := h
  induction after using List.reverseRecOn with
  | nil =>
    obtain ⟨-, ho⟩ := append_inj' heq rfl
    exact .inl ⟨e, (cons.inj ho).1, henters⟩
  | append_singleton after o' _ =>
  have heq' : trace ++ [o] = (before ++ .call e :: after) ++ [o'] := by rw [heq]; simp
  obtain ⟨htrace, ho⟩ := append_inj' heq' rfl
  obtain rfl := (cons.inj ho).1
  refine .inr ⟨⟨before, e, after, htrace, henters, fun boot hboot => ?_⟩, ?_⟩
  · exact hnone boot (mem_append_left _ hboot)
  · cases o with
    | call e' => exact ⟨e', rfl⟩
    | reboot boot => exact absurd (by simp) (hnone boot)

lemma evidence_of_entry {s₀ s : Site} {trace : List Occurrence} (h : (site c).Run s₀ trace s)
    (hnow : EnteredNow id trace) :
    ∀ x ∈ s.world.db.epochs.rows, x.leaseId = id → x.confirmed = false ∧ x.baseline = s.identity := by
  refine h.history (I := fun trace s => EnteredNow id trace → ∀ x ∈ s.world.db.epochs.rows,
    x.leaseId = id → x.confirmed = false ∧ x.baseline = s.identity) ?_ ?_ hnow
  · rintro ⟨before, e, after, heq, -⟩
    simp at heq
  intro trace s o s' _ hI hstep hnow x' hx' hid
  rcases hnow.of_snoc with ⟨e, rfl, henters⟩ | ⟨hold, e, rfl⟩
  · obtain ⟨hstep, hidentity, hs'⟩ := hstep
    obtain ⟨hconfirmed, hread⟩ := (step_enters_epoch hstep henters).2 x' hx' hid
    rw [hs']
    exact ⟨hconfirmed, hidentity x'.baseline hread⟩
  obtain ⟨hstep, hidentity, hs'⟩ := hstep
  have hsame : s'.identity = s.identity := by rw [hs']; rfl
  rw [hsame]
  cases step_epoch hstep hx' with
  | kept hx => exact hI hold x' hx hid
  | recorded hread hconfirmed => exact ⟨hconfirmed, hidentity _ hread⟩
  | confirmed i x hread hx _ hboot heq =>
  rw [heq] at hid
  -- the boot that was read is the one the evidence names
  obtain ⟨-, hbaseline⟩ := hI hold x hx hid
  exact absurd (by rw [hidentity i hread, hbaseline]) hboot

/-- A lease is confirmed only when the host rebooted after its entry; that stands for good, and
an entered lease leaves only with a proof or as its VM record. -/
theorem reboot_proof_is_sound (c : Codec) {host boot : Uuid} {s : Site} {trace : List Occurrence}
    (hrun : (site c).Run (.init host boot) trace s) (id : Uuid) :
    (confirmedOn s.world.db id = true →
      (∃ e, .call e ∈ trace ∧ e.enters id) ∧
      (∀ before e after, trace = before ++ .call e :: after → e.enters id →
        ∃ boot, .reboot boot ∈ after) ∧
      ∀ later s', (site c).Run s later s' →
        ((∃ l ∈ s'.world.db.leases.rows, l.id = id) → confirmedOn s'.world.db id = true) ∧
        (∀ x ∈ s'.world.db.epochs.rows, x.leaseId = id → x.confirmed = true) ∧
        ∀ e, .call e ∈ later → ¬e.enters id) ∧
    (∀ l ∈ s.world.db.leases.rows, l.id = id → l.backendEntered = true → l.vmDestroyed = false →
      ∀ o s', (site c).step s o s' → (∀ l' ∈ s'.world.db.leases.rows, l'.id ≠ id) →
        confirmedOn s.world.db id = true ∨ ∃ e record, o = .call e ∧ e.transfers id record ∧
          transfersTo l record = true ∧ record ∈ s'.world.db.vms.rows) := by
  have hcalls := calls_run hrun
  constructor
  · intro hconfirmed
    obtain ⟨x, hx, rfl, hxc⟩ := confirmedOn_eq_true.mp hconfirmed
    refine ⟨?_, ?_, ?_⟩
    · obtain ⟨e, he, henters⟩ := confirmed_was_entered hcalls x hx hxc
      exact ⟨e, mem_calls.mp he, henters⟩
    · intro before e after htrace henters
      by_contra hnone
      push Not at hnone
      have := (evidence_of_entry hrun ⟨before, e, after, htrace, henters, hnone⟩ x hx rfl).1
      cases this.symm.trans hxc
    · intro later s' hlater
      obtain ⟨hstands, hnone⟩ :=
        Stands.run (.inl hx) hxc (epoch_issued ⟨_, hcalls⟩ x hx) (calls_run hlater)
      refine ⟨?_, ?_, fun e he => hnone e (mem_calls.mpr he)⟩
      · rintro ⟨l, hl, hid⟩
        rcases hstands with hx' | ⟨hgone, -⟩
        · exact confirmedOn_eq_true.mpr ⟨x, hx', rfl, hxc⟩
        · exact absurd hid (hgone l hl)
      · intro y hy hid
        rcases hstands with hx' | ⟨-, hgone⟩
        · rw [epoch_unique hy hx' hid]
          exact hxc
        · exact absurd hid (hgone y hy)
  · rintro l hl rfl hentered hdestroyed o s' hstep hgone
    cases o with
    | reboot boot =>
      rw [hstep.2.2] at hgone
      exact absurd rfl (hgone l hl)
    | call e =>
    rcases step_keeps_lease hstep.1 hl with ⟨l', hl', hchange⟩ |
      ⟨record, expiration, reply, hcall, hout, htransfer, hmem⟩ | ⟨reply, -, -, hproof⟩
    · exact absurd hchange.identity.1 (hgone l' hl')
    · exact .inr ⟨e, record, rfl, ⟨expiration, reply, hcall, hout⟩, htransfer, hmem⟩
    · rw [hentered, hdestroyed] at hproof
      exact .inl (by simpa using hproof)

/-- A lease is begun where the boot cannot be read, and entered where it can. -/
def entryCalls : List Call := [
  .tx (.beginHostResourceLease ⟨.ofNat 2, .ofSeconds 0, none⟩ "vm"),
  .tx (.enterHostResourceLeaseBackend (.ofNat 2) (.ofNat 7) (some ⟨.ofNat 100, .ofNat 101⟩)),
  .tx (.confirmHostResourceLeaseReboot (.ofNat 2) (some ⟨.ofNat 100, .ofNat 101⟩))]

def confirmCalls : List Call := [
  .tx (.confirmHostResourceLeaseReboot (.ofNat 2) (some ⟨.ofNat 100, .ofNat 102⟩))]

def beforeReboot : List Event × World := World.init.calls .emptyObject entryCalls

def afterReboot : List Event × World := beforeReboot.2.calls .emptyObject confirmCalls

theorem reboot_confirms_entered_lease : confirmedOn beforeReboot.2.db (.ofNat 2) = false ∧
    confirmedOn afterReboot.2.db (.ofNat 2) = true ∧
    ∃ e, .call e ∈ beforeReboot.1.map Occurrence.call ++
      .reboot (.ofNat 102) :: afterReboot.1.map Occurrence.call ∧ e.enters (.ofNat 2) := by
  have hbefore : (site .emptyObject).Run (.init (.ofNat 100) (.ofNat 101))
      (beforeReboot.1.map .call) ⟨beforeReboot.2, .ofNat 100, .ofNat 101, []⟩ :=
    run_of_calls (World.calls_run .emptyObject .init entryCalls (by decide)) (by decide +kernel)
  have hafter : (site .emptyObject).Run ⟨beforeReboot.2, .ofNat 100, .ofNat 102, [.ofNat 101]⟩
      (afterReboot.1.map .call) ⟨afterReboot.2, .ofNat 100, .ofNat 102, [.ofNat 101]⟩ :=
    run_of_calls (World.calls_run .emptyObject beforeReboot.2 confirmCalls (by decide))
      (by decide +kernel)
  have hreboot : (site .emptyObject).step ⟨beforeReboot.2, .ofNat 100, .ofNat 101, []⟩
      (.reboot (.ofNat 102)) ⟨beforeReboot.2, .ofNat 100, .ofNat 102, [.ofNat 101]⟩ :=
    ⟨by decide, by decide, rfl⟩
  have hrun := hbefore.append (.cons hreboot hafter)
  have hconfirmed : confirmedOn afterReboot.2.db (.ofNat 2) = true := by decide +kernel
  exact ⟨by decide +kernel, hconfirmed,
    ((reboot_proof_is_sound .emptyObject hrun (.ofNat 2)).1 hconfirmed).1⟩

end Husker.System
