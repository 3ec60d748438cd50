import Husker.Idle.Sessions

/-! # The time to live of a suspended VM

A time to live is accepted as 64 unsigned bits, stored as 64 signed ones and read back.  The tick
of the idle policy compares it as a signed number with the time since the VM was suspended.
-/
namespace Husker.Idle
open Relational Store List Option Function BitVec

variable {ι : Type}

/-! ## Settings -/

structure IdleSettings where
  idleTimeoutSecs : Option UInt64
  suspendTtlSecs : Option UInt64
  autoResume : Bool

def IdleSettings.notOptedIn : IdleSettings := ⟨none, none, true⟩

structure IdlePolicyConfig where
  defaultIdleTimeoutSecs : UInt64
  defaultSuspendTtlSecs : UInt64
  defaultAutoResume : Bool

/-- The idle part of `CreateVmRequest`. -/
structure IdleRequest where
  idle : Option Bool
  idleTimeoutSecs : Option UInt64
  suspendTtlSecs : Option UInt64
  autoResume : Option Bool

def BackendKind.asStr : BackendKind → String
  | .firecracker => "firecracker"
  | .qemu => "qemu"
  | .appleVz => "apple_vz"

def BackendKind.all : List BackendKind := [.firecracker, .qemu, .appleVz]

def requireSnapshotBackend (backend : BackendKind) : Except String Unit :=
  if backend.snapshot then .ok ()
  else
    let capable := ", ".intercalate ((BackendKind.all.filter BackendKind.snapshot).map BackendKind.asStr)
    .error s!"idle policy requires a full-state snapshot backend ({capable}), not {backend.asStr}"

def resolveIdleSettings (req : IdleRequest) (defaults : IdlePolicyConfig) (backend : BackendKind) :
    Except String IdleSettings :=
  match req.idleTimeoutSecs.or
    (if req.idle.getD false then some defaults.defaultIdleTimeoutSecs else none) with
  | none => .ok .notOptedIn
  | some idleTimeoutSecs => do
    requireSnapshotBackend backend
    return {
      idleTimeoutSecs := some idleTimeoutSecs
      suspendTtlSecs := req.suspendTtlSecs.or
        (if 0 < defaults.defaultSuspendTtlSecs then some defaults.defaultSuspendTtlSecs else none)
      autoResume := req.autoResume.getD defaults.defaultAutoResume }

/-! ## Columns -/

/-- An `i64` read as a `u64`. -/
def asU64 (v : ℤ) : ℕ := (BitVec.ofInt 64 v).toNat

lemma asU64_asI64 (n : UInt64) : asU64 (asI64 n.toNat) = n.toNat := by
  rw [asU64, asI64, ofInt_toInt, toNat_ofNat]
  exact Nat.mod_eq_of_lt n.toNat_lt

lemma asI64_of_lt {n : ℕ} (h : n < 2 ^ 63) : asI64 n = n := by
  rw [asI64, toInt_eq_toNat_cond, toNat_ofNat, Nat.mod_eq_of_lt (by omega)]
  split <;> omega

lemma asI64_neg {n : UInt64} (h : 2 ^ 63 ≤ n.toNat) : asI64 n.toNat < 0 := by
  have hlt := n.toNat_lt
  rw [asI64, toInt_eq_toNat_cond, toNat_ofNat, Nat.mod_eq_of_lt hlt]
  split <;> omega

/-- A row of the table of VMs; the idle policy stands in signed columns. -/
structure VmRow (ι : Type) where
  vm : VmRecord ι
  idleTimeoutSecs : Option ℤ
  suspendTtlSecs : Option ℤ
  autoResume : Bool

def VmRow.set (row : VmRow ι) (s : IdleSettings) : VmRow ι :=
  { row with
    idleTimeoutSecs := s.idleTimeoutSecs.map fun v => asI64 v.toNat
    suspendTtlSecs := s.suspendTtlSecs.map fun v => asI64 v.toNat
    autoResume := s.autoResume }

def rowToVmRecord (row : VmRow ι) : VmRecord ι :=
  { row.vm with
    idleTimeoutSecs := row.idleTimeoutSecs.map asU64
    suspendTtlSecs := row.suspendTtlSecs.map asU64
    autoResume := row.autoResume }

lemma evaluatePolicy_reap {record : VmRecord ι} {now : DateTime} {idleFor : Option ℕ}
    {hasActiveSession hasLiveFork : Bool}
    (h : evaluatePolicy record now idleFor hasActiveSession hasLiveFork = .reap) :
    ∃ ttl since, record.suspendTtlSecs = some ttl ∧ ttl ≠ 0 ∧ record.state = .suspended ∧
      record.suspendedAt = some since ∧ asI64 ttl ≤ numSeconds now since := by
  unfold evaluatePolicy at h
  cases httl : record.suspendTtlSecs with
  | none => grind
  | some ttl =>
    cases hsince : record.suspendedAt with
    | none => grind
    | some since => exact ⟨ttl, since, rfl, by grind⟩

/-! ## Runs -/

structure Reaped (ι : Type) where
  id : ι
  ttl : Option UInt64
  since : Option DateTime
  at_ : DateTime

structure Reaper (ι : Type) where
  rows : List (VmRow ι)
  asked : ι → Option UInt64
  /-- VMs on which the first verdict of the tick was to reap. -/
  pending : List ι
  reaped : List (Reaped ι)

structure Look where
  now : DateTime
  idleFor : Option ℕ
  hasActiveSession : Bool
  hasLiveFork : Bool

inductive ReapEvent (ι : Type) where
  | create (vm : VmRecord ι) (req : IdleRequest) (defaults : IdlePolicyConfig)
  | setIdlePolicy (id : ι) (s : IdleSettings)
  | suspend (id : ι) (now : DateTime)
  | resume (id : ι)
  | look (id : ι) (l : Look)
  /-- The second look, under the name lock, and the destruction. -/
  | reap (id : ι) (l : Look) (fails : Bool)

namespace Reaper

variable [DecidableEq ι]

def find (r : Reaper ι) (id : ι) : Option (VmRow ι) := r.rows.find? fun row => row.vm.id = id

def update (r : Reaper ι) (id : ι) (f : VmRow ι → VmRow ι) : Reaper ι :=
  { r with rows := r.rows.map fun row => if row.vm.id = id then f row else row }

def ask (r : Reaper ι) (id : ι) (s : IdleSettings) : Reaper ι :=
  { r with asked := Function.update r.asked id s.suspendTtlSecs }

def create (r : Reaper ι) (vm : VmRecord ι) (req : IdleRequest) (defaults : IdlePolicyConfig) :
    Option (Reaper ι) :=
  if (r.find vm.id).isSome then none
  else
    match resolveIdleSettings req defaults vm.vmm with
    | .error _ => some r
    | .ok s =>
      let row : VmRow ι := VmRow.set ⟨{ vm with state := .running, suspendedAt := none }, none, none,
        true⟩ s
      some ({ r with rows := row :: r.rows }.ask vm.id s)

def setIdlePolicy (r : Reaper ι) (id : ι) (s : IdleSettings) : Option (Reaper ι) :=
  if (r.find id).isNone then some r else some ((r.update id (·.set s)).ask id s)

def verdict (row : VmRow ι) (l : Look) : PolicyAction :=
  evaluatePolicy (rowToVmRecord row) l.now l.idleFor l.hasActiveSession l.hasLiveFork

def look (r : Reaper ι) (id : ι) (l : Look) : Option (Reaper ι) :=
  (r.find id).map fun row =>
    if verdict row l = .reap then { r with pending := id :: r.pending } else r

def destroy (r : Reaper ι) (row : VmRow ι) (now : DateTime) : Reaper ι :=
  { r with
    rows := r.rows.filter fun x => x.vm.id ≠ row.vm.id
    reaped := ⟨row.vm.id, r.asked row.vm.id, row.vm.suspendedAt, now⟩ :: r.reaped }

def judge (r : Reaper ι) (id : ι) (l : Look) (fails : Bool) : Reaper ι :=
  match r.find id with
  | none => r
  | some row =>
    if verdict row { l with idleFor := none } = .reap ∧ fails = false then r.destroy row l.now else r

def reap (r : Reaper ι) (id : ι) (l : Look) (fails : Bool) : Option (Reaper ι) :=
  if id ∈ r.pending then some ({ r with pending := r.pending.erase id }.judge id l fails) else none

def step (r : Reaper ι) : ReapEvent ι → Option (Reaper ι)
  | .create vm req defaults => r.create vm req defaults
  | .setIdlePolicy id s => r.setIdlePolicy id s
  | .suspend id now => some (r.update id fun row =>
      { row with vm := { row.vm with state := .suspended, suspendedAt := some now } })
  | .resume id => some (r.update id fun row =>
      { row with vm := { row.vm with state := .running, suspendedAt := none } })
  | .look id l => r.look id l
  | .reap id l fails => r.reap id l fails

end Reaper

def reaper (ι : Type) [DecidableEq ι] : Machine (Reaper ι) (ReapEvent ι) := .ofStep Reaper.step

def Reaper.empty : Reaper ι := ⟨[], fun _ => none, [], []⟩

def Reaped.due (x : Reaped ι) : Prop :=
  ∃ ttl since, x.ttl = some ttl ∧ ttl ≠ 0 ∧ x.since = some since ∧
    (ttl.toNat : ℤ) ≤ numSeconds x.at_ since

def ReapEvent.ttls : ReapEvent ι → List UInt64
  | .create _ req defaults => req.suspendTtlSecs.toList ++ [defaults.defaultSuspendTtlSecs]
  | .setIdlePolicy _ s => s.suspendTtlSecs.toList
  | _ => []

/-! ## What every run keeps -/

/-- The columns hold what was accepted, and what was accepted is a signed number. -/
structure Kept (r : Reaper ι) : Prop where
  stored : ∀ row ∈ r.rows, row.suspendTtlSecs = (r.asked row.vm.id).map fun v => asI64 v.toNat
  small : ∀ id, ∀ ttl ∈ r.asked id, ttl.toNat < 2 ^ 63
  due : ∀ x ∈ r.reaped, x.due

lemma resolveIdleSettings_ttl {req : IdleRequest} {defaults : IdlePolicyConfig}
    {backend : BackendKind} {s : IdleSettings} {vm : VmRecord ι}
    (h : resolveIdleSettings req defaults backend = .ok s) :
    ∀ ttl ∈ s.suspendTtlSecs, ttl ∈ (ReapEvent.create vm req defaults).ttls := by
  intro ttl httl
  simp only [ReapEvent.ttls, mem_append, mem_toList, mem_singleton]
  unfold resolveIdleSettings at h
  split at h
  · cases h
    cases httl
  obtain ⟨-, -, h⟩ := bind_eq_ok.mp h
  cases h
  rcases or_eq_some_iff.mp httl with hreq | ⟨-, hdefault⟩
  · exact .inl hreq
  · obtain ⟨-, hdefault⟩ := ite_none_right_eq_some.mp hdefault
    exact .inr (some.inj hdefault).symm

open Reaper

namespace Kept

variable {r r' : Reaper ι}

lemma empty : Kept (Reaper.empty : Reaper ι) :=
  ⟨by simp [Reaper.empty], by simp [Reaper.empty], by simp [Reaper.empty]⟩

lemma verdict_due (h : Kept r) {row : VmRow ι} (hrow : row ∈ r.rows) {l : Look}
    (hverdict : verdict row l = .reap) :
    (⟨row.vm.id, r.asked row.vm.id, row.vm.suspendedAt, l.now⟩ : Reaped ι).due := by
  obtain ⟨n, since, hn, hpos, -, hsince, hle⟩ := evaluatePolicy_reap hverdict
  rw [rowToVmRecord, h.stored row hrow, Option.map_map, map_eq_some_iff] at hn
  obtain ⟨ttl, httl, rfl⟩ := hn
  simp only [comp_apply, asU64_asI64] at hpos hle
  refine ⟨ttl, since, httl, fun hzero => hpos (by simp [hzero]), hsince, ?_⟩
  rwa [asI64_of_lt (h.small _ ttl httl)] at hle

variable [DecidableEq ι]

section
variable (h : Kept r)
include h

lemma update (id : ι) {f : VmRow ι → VmRow ι} (hid : ∀ row, (f row).vm.id = row.vm.id)
    (hf : ∀ row, (f row).suspendTtlSecs = row.suspendTtlSecs) : Kept (r.update id f) := by
  refine ⟨fun row hrow => ?_, h.small, h.due⟩
  obtain ⟨old, hold, rfl⟩ := List.mem_map.mp hrow
  change _ = (r.asked _).map _
  split
  · rw [hf, hid, h.stored old hold]
  · exact h.stored old hold

lemma asked_small {id : ι} {s : IdleSettings} (hs : ∀ ttl ∈ s.suspendTtlSecs, ttl.toNat < 2 ^ 63) :
    ∀ x, ∀ ttl ∈ (r.ask id s).asked x, ttl.toNat < 2 ^ 63 := by
  intro x ttl httl
  simp only [ask] at httl
  by_cases hx : x = id
  · subst hx
    rw [update_self] at httl
    exact hs ttl httl
  · rw [update_of_ne hx] at httl
    exact h.small x ttl httl

lemma create {vm : VmRecord ι} {req : IdleRequest} {defaults : IdlePolicyConfig}
    (hstep : r.create vm req defaults = some r')
    (hsmall : ∀ ttl ∈ (ReapEvent.create vm req defaults).ttls, ttl.toNat < 2 ^ 63) : Kept r' := by
  unfold Reaper.create at hstep
  split_ifs at hstep with hfresh
  split at hstep
  · cases hstep
    exact h
  rename_i s hs
  cases hstep
  refine ⟨fun row hrow => ?_, asked_small h fun ttl httl => ?_, h.due⟩
  · simp only [ask]
    rcases mem_cons.mp hrow with rfl | hrow
    · simp [VmRow.set]
    have hne : row.vm.id ≠ vm.id := by
      intro heq
      apply hfresh
      rw [Reaper.find, find?_isSome]
      exact ⟨row, hrow, by simpa using heq⟩
    rw [update_of_ne hne]
    exact h.stored row hrow
  · exact hsmall ttl (resolveIdleSettings_ttl hs ttl httl)

lemma setIdlePolicy {id : ι} {s : IdleSettings} (hstep : r.setIdlePolicy id s = some r')
    (hsmall : ∀ ttl ∈ s.suspendTtlSecs, ttl.toNat < 2 ^ 63) : Kept r' := by
  unfold Reaper.setIdlePolicy at hstep
  split_ifs at hstep <;> cases hstep
  · exact h
  refine ⟨fun row hrow => ?_, asked_small h hsmall, h.due⟩
  obtain ⟨old, hold, rfl⟩ := List.mem_map.mp hrow
  simp only [ask]
  by_cases hid : old.vm.id = id
  · simp [hid, VmRow.set]
  · rw [if_neg hid, update_of_ne hid]
    exact h.stored old hold

lemma judge (id : ι) (l : Look) (fails : Bool) : Kept (r.judge id l fails) := by
  unfold Reaper.judge
  split
  · exact h
  rename_i row hfind
  split_ifs with hverdict
  · refine ⟨fun x hx => h.stored x (mem_of_mem_filter hx), h.small, fun x hx => ?_⟩
    rcases mem_cons.mp hx with rfl | hx
    · have hdue := verdict_due h (mem_of_find?_eq_some hfind) hverdict.1
      exact hdue
    · exact h.due x hx
  · exact h

lemma step {e : ReapEvent ι} (hstep : r.step e = some r')
    (hsmall : ∀ ttl ∈ e.ttls, ttl.toNat < 2 ^ 63) : Kept r' := by
  cases e with
  | create vm req defaults => exact h.create hstep hsmall
  | setIdlePolicy id s =>
    exact h.setIdlePolicy hstep fun ttl httl => hsmall ttl (mem_toList.mpr httl)
  | suspend id now | resume id =>
    cases hstep
    exact h.update id (fun _ => rfl) fun _ => rfl
  | look id l =>
    obtain ⟨row, -, rfl⟩ := map_eq_some_iff.mp hstep
    split
    · exact ⟨h.stored, h.small, h.due⟩
    · exact h
  | reap id l fails =>
    obtain ⟨-, hstep⟩ := ite_none_right_eq_some.mp hstep
    cases hstep
    have hkept : Kept { r with pending := r.pending.erase id } := ⟨h.stored, h.small, h.due⟩
    exact hkept.judge id l fails

end

end Kept

/-! ## A time to live that is no signed number -/

section
variable [Inhabited ι]

def shortLived : VmRecord ι where
  id := default
  name := "dev"
  state := .running
  vmm := .firecracker
  serviceId := none
  forkedFrom := none
  volume := none
  tapDevice := none
  lastActivityAt := ⟨0⟩
  suspendedAt := none
  idleTimeoutSecs := none
  suspendTtlSecs := none
  autoResume := true

def atOnce : Look := ⟨⟨0⟩, none, false, false⟩

def reapAtOnce (ttl : UInt64) : List (ReapEvent ι) := [
  .create shortLived ⟨none, some 60, some ttl, none⟩ ⟨60, ttl, true⟩, .suspend default ⟨0⟩,
  .look default atOnce, .reap default atOnce false]

def suspendedRow (ttl : UInt64) : VmRow ι :=
  VmRow.set ⟨{ shortLived with state := .suspended, suspendedAt := some ⟨0⟩ }, none, none, true⟩
    ⟨some 60, some ttl, true⟩

lemma verdict_atOnce {ttl : UInt64} (h : 2 ^ 63 ≤ ttl.toNat) :
    verdict (suspendedRow ttl : VmRow ι) atOnce = .reap := by
  have hpos : ttl.toNat ≠ 0 := by omega
  have hneg : asI64 ttl.toNat ≤ numSeconds ⟨0⟩ ⟨0⟩ := (asI64_neg h).le
  simp [verdict, evaluatePolicy, rowToVmRecord, suspendedRow, VmRow.set, shortLived, atOnce,
    asU64_asI64, hpos, hneg]

variable [DecidableEq ι]

lemma reapAtOnce_run {ttl : UInt64} (h : 2 ^ 63 ≤ ttl.toNat) :
    ∃ r, (reaper ι).Run .empty (reapAtOnce ttl) r ∧
      r.reaped = [⟨default, some ttl, some ⟨0⟩, ⟨0⟩⟩] := by
  have hverdict := verdict_atOnce (ι := ι) h
  let asked : ι → Option UInt64 := update (fun _ => none) default (some ttl)
  let running : VmRow ι := VmRow.set ⟨shortLived, none, none, true⟩ ⟨some 60, some ttl, true⟩
  let gone : Reaped ι := ⟨default, some ttl, some ⟨0⟩, ⟨0⟩⟩
  have hsuspend : Reaper.step ⟨[running], asked, [], []⟩ (.suspend default ⟨0⟩) =
      some ⟨[suspendedRow ttl], asked, [], []⟩ := by
    simp [Reaper.step, Reaper.update, running, suspendedRow, VmRow.set, shortLived]
  have hfind (pending : List ι) : find ⟨[suspendedRow ttl], asked, pending, []⟩ default =
      some (suspendedRow ttl) := by
    simp [find, suspendedRow, VmRow.set, shortLived]
  have hlook : Reaper.step ⟨[suspendedRow ttl], asked, [], []⟩ (.look default atOnce) =
      some ⟨[suspendedRow ttl], asked, [default], []⟩ := by
    simp [Reaper.step, look, hfind, hverdict]
  have hreap : Reaper.step ⟨[suspendedRow ttl], asked, [default], []⟩ (.reap default atOnce false) =
      some ⟨[], asked, [], [gone]⟩ := by
    have hjudge : Reaper.judge ⟨[suspendedRow ttl], asked, [], []⟩ default atOnce false =
        ⟨[], asked, [], [gone]⟩ := by
      rw [Reaper.judge, hfind]
      exact (if_pos ⟨hverdict, rfl⟩).trans (by simp [destroy, suspendedRow, VmRow.set,
        shortLived, asked, gone, atOnce])
    simp [Reaper.step, reap, hjudge]
  exact ⟨_, .cons rfl (.cons hsuspend (.cons hlook (.cons hreap (.nil _)))), rfl⟩

end

/-- The tick destroys no VM before the time to live it was given has passed, for every sequence of
calls and every clock, exactly if all times to live are below 2 ^ 63. -/
theorem reap_waits_iff (ι : Type) [DecidableEq ι] [Inhabited ι] (S : Set UInt64) :
    (∀ events r, ((reaper ι).when fun _ e => ∀ ttl ∈ e.ttls, ttl ∈ S).Run .empty events r →
      ∀ x ∈ r.reaped, x.due) ↔ ∀ ttl ∈ S, ttl.toNat < 2 ^ 63 := by
  constructor
  · intro h ttl httl
    by_contra hge
    obtain ⟨r, hrun, hreaped⟩ := reapAtOnce_run (ι := ι) (not_lt.mp hge)
    have hwhen := hrun.when_of_mem (C := fun _ e => ∀ ttl ∈ e.ttls, ttl ∈ S) fun _ e he => by
      simp only [reapAtOnce, mem_cons, not_mem_nil, or_false] at he
      rcases he with rfl | rfl | rfl | rfl <;> simp [ReapEvent.ttls, httl]
    have hmem : (⟨default, some ttl, some ⟨0⟩, ⟨0⟩⟩ : Reaped ι) ∈ r.reaped := by
      rw [hreaped]
      exact mem_singleton_self _
    obtain ⟨ttl', since, hsame, -, hsince, hle⟩ := h _ r hwhen _ hmem
    cases hsame
    cases hsince
    have hzero : numSeconds ⟨0⟩ ⟨0⟩ = 0 := rfl
    rw [hzero] at hle
    omega
  · intro hS events r hrun
    have hkept : Kept r := hrun.invariant .empty fun s e s' hs hstep =>
      hs.step hstep.1 fun ttl httl => hS ttl (hstep.2 ttl httl)
    exact hkept.due

/-- A VM told to live for 2 ^ 63 seconds is reaped in the second in which it was suspended. -/
theorem huge_ttl_is_reaped_at_once :
    ∃ r, (reaper ℕ).Run .empty (reapAtOnce (UInt64.ofNat (2 ^ 63))) r ∧
      r.reaped = [⟨0, some (UInt64.ofNat (2 ^ 63)), some ⟨0⟩, ⟨0⟩⟩] ∧ ¬∀ x ∈ r.reaped, x.due := by
  have hhuge : 2 ^ 63 ≤ (UInt64.ofNat (2 ^ 63)).toNat := by decide
  obtain ⟨r, hrun, hreaped⟩ := reapAtOnce_run (ι := ℕ) hhuge
  refine ⟨r, hrun, hreaped, fun h => ?_⟩
  obtain ⟨ttl, since, httl, -, hsince, hle⟩ := h _ (by rw [hreaped]; exact mem_singleton_self _)
  cases httl
  cases hsince
  exact absurd hle (by decide)

end Husker.Idle
