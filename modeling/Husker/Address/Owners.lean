import Husker.Address.Calls
import Husker.Relational.Claims

/-! # Who owns a guest address

An address belongs to a record, to a lease, or to the call that allocated it or is about to give
it back.  This stays so as long as destroys and sweeps free no address that somebody owns.
-/
open Option Function
namespace Husker.Net.IpAllocator

variable {net : Subnet} {a a' : IpAllocator}

lemma Serves.allocate {r : Except NetError Ipv4Addr} (h : Serves net a)
    (heq : a.allocate = some (r, a')) : Serves net a' ∧
      match r with
      | .ok ip => ip ∉ a.inUse ∧ a'.inUse = insert ip a.inUse
      | .error _ => a'.inUse = a.inUse := by
  obtain ⟨reply, a₁, hcall, hserves, hstep⟩ := allocate_refined h
  simp only [call, heq, map_some, some.injEq, Prod.map_apply, id_eq, Prod.mk.injEq] at hcall
  obtain ⟨rfl, rfl⟩ := hcall
  refine ⟨hserves, ?_⟩
  cases r with
  | ok ip => exact ⟨hstep.1.1.2, hstep.2⟩
  | error e => cases e <;> first | exact hstep.2 | exact hstep.elim

lemma Serves.release {r : Except NetError Unit} {ip : Ipv4Addr} (h : Serves net a)
    (heq : a.release ip = some (r, a')) : Serves net a' ∧
      if r.isOk then net.Guest ip ∧ a'.inUse = a.inUse \ {ip}
      else ¬(net.Guest ip ∧ ip ∈ a.inUse) ∧ a'.inUse = a.inUse := by
  obtain ⟨reply, a₁, hcall, hserves, hstep⟩ := release_refined h ip
  simp only [call, heq, map_some, some.injEq, Prod.map_apply, id_eq, Prod.mk.injEq] at hcall
  obtain ⟨rfl, rfl⟩ := hcall
  refine ⟨hserves, ?_⟩
  cases r with
  | ok u => exact ⟨hstep.1.1, hstep.2⟩
  | error e => cases e <;> first | exact hstep.2 | exact hstep.elim

end Husker.Net.IpAllocator

namespace Husker.Address
open Net Relational Tasks

/-! ## Claims -/

inductive Claimant where
  | row (id : ℕ)
  | lease (id : ℕ)
  | task (t : ℕ)
  deriving DecidableEq

def Task.holds : Task → Option Ipv4Addr
  | .lease _ ip | .network _ ip _ | .rollback _ ip _ false | .unlease _ ip _ false
  | .giveBack _ ip | .recoverRelease _ ip _ => ip
  | _ => none

def Task.knows : Task → Option (ℕ × Lease)
  | .network name _ id => some (id, ⟨name, none⟩)
  | .build name ip id | .commit name ip id | .recoverUnlease id name ip _ => some (id, ⟨name, ip⟩)
  | .rollback name ip id named | .unlease name ip id named =>
    some (id, ⟨name, if named then ip else none⟩)
  | _ => none

def Task.frees : Task → Option Ipv4Addr
  | .release _ record _ => record.guestIp
  | .sweepRelease _ _ ip _ => ip
  | _ => none

lemma Task.lockName_of_knows {a : Task} {id : ℕ} {lease : Lease}
    (h : a.knows = some (id, lease)) : a.lockName = some lease.vmName := by
  cases a <;> cases h <;> rfl

namespace Core

variable (s : Core) (t : ℕ)

def claim : Claimant → Option Ipv4Addr
  | .row id => (s.rows id).bind (·.guestIp)
  | .lease id => (s.leases id).bind (·.guestIp)
  | .task t => (s.tasks t).bind Task.holds

@[simp] lemma claim_goto (a : Task) :
    (s.goto t a).claim = update s.claim (.task t) a.holds := by
  funext x
  cases x with
  | row id => rfl
  | lease id => rfl
  | task u =>
  by_cases hu : u = t
  · subst hu
    simp [claim, goto]
  · simp [claim, goto, hu]

@[simp] lemma claim_finish : (s.finish t).claim = update s.claim (.task t) none := by
  funext x
  cases x with
  | row id => rfl
  | lease id => rfl
  | task u =>
  by_cases hu : u = t
  · subst hu
    simp [claim, finish]
  · simp [claim, finish, hu]

@[simp] lemma claim_setRow (vm : ℕ) (row : Option VmRecord) :
    (s.setRow vm row).claim = update s.claim (.row vm) (row.bind (·.guestIp)) := by
  funext x
  cases x with
  | row id =>
    by_cases hid : id = vm
    · subst hid
      simp [claim, setRow]
    · simp [claim, setRow, hid]
  | lease id => rfl
  | task u => rfl

@[simp] lemma claim_setLease (id : ℕ) (lease : Option Lease) :
    (s.setLease id lease).claim = update s.claim (.lease id) (lease.bind (·.guestIp)) := by
  funext x
  cases x with
  | row vm => rfl
  | lease other =>
    by_cases hid : other = id
    · subst hid
      simp [claim, setLease]
    · simp [claim, setLease, hid]
  | task u => rfl

@[simp] lemma claim_unlock (name : String) : (s.unlock name).claim = s.claim := rfl

@[simp] lemma claim_mint : s.mint.claim = s.claim := rfl

/-! ## Soundness -/

structure Sound (net : Subnet) (s : Core) : Prop where
  serves : IpAllocator.Serves net s.allocator
  exclusive : Exclusive net.Guest s.claim s.allocator.inUse
  guarded : Guarded (fun a name => Task.lockName a = some name) s.lock s.tasks
  leased : ∀ {t a id lease}, s.tasks t = some a → a.knows = some (id, lease) →
    s.leases id = some lease
  fresh : ∀ {id}, s.minted ≤ id → s.rows id = none ∧ s.leases id = none

structure Change (net : Subnet) (s s₁ : Core) (b : Task) : Prop where
  tasks : s₁.tasks = s.tasks
  lock : s₁.lock = s.lock
  serves : IpAllocator.Serves net s₁.allocator
  leases : ∀ id, s₁.leases id = s.leases id ∨ s.leases id = none ∨
    ∃ lease, b.knows = some (id, lease)
  fresh : ∀ {id}, s₁.minted ≤ id → s₁.rows id = none ∧ s₁.leases id = none

variable {net : Subnet} {s s₁ : Core} {t : ℕ} {a b : Task}

lemma Sound.same (hs : Sound net s) : Change net s s b :=
  ⟨rfl, rfl, hs.serves, fun _ => .inl rfl, hs.fresh⟩

variable {id vm : ℕ} {lease : Lease} {name : String} {ip : Option Ipv4Addr}

section
variable (hs : Sound net s)
include hs

section
variable (hb : s.tasks t = some b)
include hb

lemma Sound.others (hchange : Change net s s₁ b)
    {u : ℕ} {c : Task} (hu : u ≠ t) (hc : s.tasks u = some c)
    (hknows : c.knows = some (id, lease)) : s₁.leases id = some lease := by
  have hlease := hs.leased hc hknows
  rcases hchange.leases id with hsame | hnone | ⟨lease', hknows'⟩
  · exact hsame.trans hlease
  · cases hnone.symm.trans hlease
  · have hsame := some.inj ((hs.leased hb hknows').symm.trans hlease)
    have hname := Task.lockName_of_knows hknows'
    rw [hsame] at hname
    exact absurd (hs.guarded.exclusive hc hb (Task.lockName_of_knows hknows) hname) hu

lemma Sound.leased_set (hchange : Change net s s₁ b)
    (hknows : ∀ id lease, a.knows = some (id, lease) → s₁.leases id = some lease)
    {u : ℕ} {c : Task} (hc : s₁.tasks.set t a u = some c)
    (hc' : c.knows = some (id, lease)) : s₁.leases id = some lease := by
  rw [hchange.tasks] at hc
  rcases set_eq_some hc with ⟨-, rfl⟩ | ⟨hu, hc⟩
  · exact hknows id lease hc'
  · exact hs.others hb hchange hu hc hc'

lemma Sound.goto (hchange : Change net s s₁ b) (hlock : a.lockName = b.lockName)
    (hknows : ∀ id lease, a.knows = some (id, lease) → s₁.leases id = some lease)
    (hexclusive : Exclusive net.Guest (update s₁.claim (.task t) a.holds)
      s₁.allocator.inUse) : Sound net (s₁.goto t a) where
  serves := hchange.serves
  exclusive := by rwa [claim_goto]
  guarded := by
    simp only [Core.goto, hchange.tasks, hchange.lock]
    apply hs.guarded.move
    intro name hname
    exact hs.guarded t b name hb (hlock.symm.trans hname)
  leased := hs.leased_set hb hchange hknows
  fresh := hchange.fresh

lemma Sound.leave (hchange : Change net s s₁ b) (hlock : b.lockName = some name)
    (hexclusive : Exclusive net.Guest (update s₁.claim (.task t) none)
      s₁.allocator.inUse) : Sound net (s₁.leave t name) where
  serves := hchange.serves
  exclusive := by rwa [Core.leave, claim_finish, claim_unlock]
  guarded := by
    have hguarded := hs.guarded.release (hs.guarded t b name hb hlock)
    simpa only [Core.leave, Core.finish, Core.unlock, hchange.tasks, hchange.lock] using hguarded
  leased := by
    intro u c id lease hc hknows
    rw [Core.leave, Core.finish, Core.unlock, hchange.tasks] at hc
    obtain ⟨hu, hc⟩ := clear_eq_some hc
    exact (hs.others hb hchange hu hc hknows :)
  fresh := hchange.fresh

lemma Sound.next (hchange : Change net s s₁ b)
    (hlock : b.lockName = some name) (hfree : a.lockName = none) (hknows : a.knows = none)
    (hexclusive : Exclusive net.Guest (update s₁.claim (.task t) a.holds)
      s₁.allocator.inUse) : Sound net ((s₁.unlock name).goto t a) where
  serves := hchange.serves
  exclusive := by rwa [claim_goto, claim_unlock]
  guarded := by
    simp only [Core.goto, Core.unlock, hchange.tasks, hchange.lock]
    rw [← set_clear]
    apply (hs.guarded.release (hs.guarded t b name hb hlock)).move
    intro k hk
    cases hfree.symm.trans hk
  leased := hs.leased_set hb hchange fun id lease h => by simp [hknows] at h
  fresh := hchange.fresh

lemma Sound.takeLock {s' : Core}
    (hstep : s.takeLock t name a = some s') (hlock : a.lockName = some name)
    (hknows : a.knows = none) (ha : a.holds = none) : Sound net s' := by
  unfold Core.takeLock at hstep
  split at hstep
  case isTrue => cases hstep
  case isFalse hfree =>
    cases hstep
    refine ⟨hs.serves, ?_, ?_, ?_, hs.fresh⟩
    · rw [claim_goto, ha]
      exact hs.exclusive.drop _
    · apply hs.guarded.take (by simpa using hfree)
      intro k hk
      exact .inl (some.inj (hk.symm.trans hlock))
    · exact hs.leased_set hb hs.same fun id lease h => by simp [hknows] at h

end

lemma Sound.finish : Sound net (s.finish t) where
  serves := hs.serves
  exclusive := by
    rw [claim_finish]
    exact hs.exclusive.drop _
  guarded := hs.guarded.clear
  leased hc hknows := hs.leased (clear_eq_some hc).2 hknows
  fresh := hs.fresh

end

/-! ## Single calls -/

lemma getVmByName_eq_some {record : VmRecord}
    (h : s.getVmByName name = some (vm, record)) : record.name = name := by
  simpa using List.find?_some h

section
variable (hs : Sound net s)
include hs

section
variable (hb : s.tasks t = some b)
include hb

lemma Sound.hold (ha : a.holds = b.holds ∨ a.holds = none) :
    Exclusive net.Guest (update s.claim (.task t) a.holds) s.allocator.inUse := by
  apply hs.exclusive.shrink
  intro x
  by_cases hx : x = .task t
  · subst hx
    simpa [claim, hb] using ha
  · exact .inl (update_of_ne hx _ _)

lemma Sound.stay (hlock : a.lockName = b.lockName) (hknows : a.knows = b.knows)
    (hholds : a.holds = b.holds) : Sound net (s.goto t a) := by
  apply hs.goto hb hs.same hlock _ (hs.hold hb (.inl hholds))
  exact fun id lease h => hs.leased hb (hknows.symm.trans h)

lemma Sound.return (hlock : b.lockName = some name) : Sound net (s.leave t name) :=
  hs.leave hb hs.same hlock (hs.exclusive.drop _)

lemma Sound.skip (hlock : b.lockName = some name)
    (hfree : a.lockName = none) (hknows : a.knows = none)
    (hholds : a.holds = none) : Sound net ((s.unlock name).goto t a) :=
  hs.next hb hs.same hlock hfree hknows (hs.hold hb (.inr hholds))

end

lemma Sound.allocator {allocator : IpAllocator}
    (hserves : IpAllocator.Serves net allocator) : Change net s { s with allocator } b :=
  ⟨rfl, rfl, hserves, fun _ => .inl rfl, hs.fresh⟩

lemma Sound.freeIp {ip : Ipv4Addr} {ok : Bool} (hfree : s.freeIp ip = some (ok, s₁)) :
    Change net s s₁ b ∧ s₁.claim = s.claim ∧
      if ok then net.Guest ip ∧ s₁.allocator.inUse = s.allocator.inUse \ {ip}
      else ¬(net.Guest ip ∧ ip ∈ s.allocator.inUse) ∧
        s₁.allocator.inUse = s.allocator.inUse := by
  obtain ⟨⟨r, allocator⟩, hrelease, heq⟩ := map_eq_some_iff.mp hfree
  obtain ⟨rfl, rfl⟩ := Prod.mk.inj heq
  obtain ⟨hserves, hused⟩ := hs.serves.release hrelease
  exact ⟨hs.allocator hserves, rfl, hused⟩

lemma Sound.freeQuietly (hb : s.tasks t = some b) (hfree : s.freeQuietly b.holds = some s₁) :
    Change net s s₁ b ∧
      Exclusive net.Guest (update s₁.claim (.task t) none) s₁.allocator.inUse := by
  cases hholds : b.holds with
  | none =>
    rw [hholds] at hfree
    cases hfree
    exact ⟨hs.same, hs.exclusive.drop _⟩
  | some ip =>
  rw [hholds] at hfree
  obtain ⟨⟨ok, s₂⟩, hrelease, heq⟩ := map_eq_some_iff.mp hfree
  cases heq
  obtain ⟨hchange, hclaim, hused⟩ := hs.freeIp (b := b) hrelease
  refine ⟨hchange, ?_⟩
  rw [hclaim]
  cases ok with
  | false =>
    rw [show s₂.allocator.inUse = _ from hused.2]
    exact hs.exclusive.drop _
  | true =>
    obtain ⟨hguest, hused⟩ := hused
    rw [hused]
    exact hs.exclusive.giveBack (by simp [claim, hb, hholds]) hguest

lemma Sound.freeRecorded {recorded : Option Ipv4Addr} {ok : Bool}
    (hharmless : ∀ ip, recorded = some ip → ∀ x, s.claim x ≠ some ip)
    (hfree : s.freeRecorded recorded = some (ok, s₁)) : Change net s s₁ b ∧
      Exclusive net.Guest (update s₁.claim (.task t) none) s₁.allocator.inUse := by
  cases recorded with
  | none =>
    cases hfree
    exact ⟨hs.same, hs.exclusive.drop _⟩
  | some ip =>
  obtain ⟨hchange, hclaim, hused⟩ := hs.freeIp (b := b) hfree
  refine ⟨hchange, ?_⟩
  rw [hclaim]
  cases ok with
  | false =>
    rw [show s₁.allocator.inUse = _ from hused.2]
    exact hs.exclusive.drop _
  | true =>
    rw [hused.2]
    exact (hs.exclusive.forget (hharmless ip rfl)).drop _

lemma Sound.setLease {old : Lease} (hb : s.tasks t = some b)
    (hknows : b.knows = some (id, old)) (lease : Option Lease) :
    Change net s (s.setLease id lease) b where
  tasks := rfl
  lock := rfl
  serves := hs.serves
  leases other := by
    by_cases hid : other = id
    · subst hid
      exact .inr (.inr ⟨old, hknows⟩)
    · exact .inl (update_of_ne hid _ _)
  fresh := by
    intro other hle
    have hid : other ≠ id := by
      rintro rfl
      cases (hs.fresh hle).2.symm.trans (hs.leased hb hknows)
    exact ⟨(hs.fresh hle).1, (update_of_ne hid _ _).trans (hs.fresh hle).2⟩

lemma Sound.setRow {row : Option VmRecord}
    (hgone : s.rows vm = none → row = none) : Change net s (s.setRow vm row) b where
  tasks := rfl
  lock := rfl
  serves := hs.serves
  leases _ := .inl rfl
  fresh := by
    intro id hle
    refine ⟨?_, (hs.fresh hle).2⟩
    by_cases hid : id = vm
    · subst hid
      simpa [Core.setRow] using hgone (hs.fresh hle).1
    · exact (update_of_ne hid _ _).trans (hs.fresh hle).1

end

/-! ### Leases -/

lemma Sound.beginLease (hs : Sound net s) (hb : s.tasks t = some (.lease name ip)) :
    Sound net (((s.setLease s.minted (some ⟨name, none⟩)).mint).goto t
      (.network name ip s.minted)) := by
  obtain ⟨hrow, hnone⟩ := hs.fresh le_rfl
  refine hs.goto hb ⟨rfl, rfl, hs.serves, fun id => ?_, fun {id} hle => ?_⟩ rfl ?_ ?_
  · by_cases hid : id = s.minted
    · subst hid
      exact .inr (.inl hnone)
    · exact .inl (update_of_ne hid _ _)
  · have hlt : s.minted < id := hle
    have hold := hs.fresh hlt.le
    exact ⟨hold.1, (update_of_ne hlt.ne' _ _).trans hold.2⟩
  · rintro id lease ⟨⟩
    exact update_self ..
  · rw [claim_mint, claim_setLease]
    have hsame : update s.claim (.lease s.minted) none = s.claim := by
      rw [update_eq_self_iff]
      simp [claim, hnone]
    rw [show (Option.bind (some (⟨name, none⟩ : Lease)) (·.guestIp)) = none from rfl, hsame]
    exact hs.hold hb (.inl rfl)

lemma Sound.nameLease (hs : Sound net s) (hb : s.tasks t = some (.network name ip id)) :
    Sound net ((s.setLease id (some ⟨name, ip⟩)).goto t (.build name ip id)) := by
  refine hs.goto hb (hs.setLease hb rfl _) rfl ?_ ?_
  · rintro other lease ⟨⟩
    exact update_self ..
  have hlease : s.claim (.lease id) = none := by simp [claim, hs.leased hb rfl]
  have hip : s.claim (.task t) = ip := by simp [claim, hb, Task.holds]
  have hpass : Exclusive net.Guest (update (update s.claim (.lease id)
      (s.claim (.task t))) (.task t) none) _ := hs.exclusive.pass nofun hlease
  rw [hip] at hpass
  rwa [claim_setLease]

lemma Sound.commitLease (hs : Sound net s) (hb : s.tasks t = some (.commit name ip id)) :
    Sound net ((((s.setLease id none).setRow s.minted (some ⟨name, ip⟩)).mint).leave t name) := by
  obtain ⟨hrow, -⟩ := hs.fresh le_rfl
  have hlease := hs.setLease hb rfl none
  have hchange : Change net s (((s.setLease id none).setRow s.minted (some ⟨name, ip⟩)).mint)
      (.commit name ip id) := by
    refine ⟨rfl, rfl, hs.serves, hlease.leases, fun {vm} hle => ?_⟩
    have hlt : s.minted < vm := hle
    exact ⟨(update_of_ne hlt.ne' _ _).trans (hs.fresh hlt.le).1, (hlease.fresh hlt.le).2⟩
  apply hs.leave hb hchange rfl
  have hip : s.claim (.lease id) = ip := by simp [claim, hs.leased hb rfl]
  have hpass : Exclusive net.Guest (update (update s.claim (.row s.minted)
      (s.claim (.lease id))) (.lease id) none) _ :=
    hs.exclusive.pass nofun (by simp [claim, hrow])
  rw [hip, update_comm (show Claimant.row s.minted ≠ .lease id from nofun)] at hpass
  rw [claim_mint, claim_setRow, claim_setLease]
  exact hpass.drop _

lemma Sound.unlease (hs : Sound net s) (hb : s.tasks t = some b)
    (hknows : b.knows = some (id, lease)) (hlock : a.lockName = b.lockName)
    (hnew : a.knows = none) (hlease : b.holds = none → lease.guestIp = a.holds)
    (hholds : ∀ ip, b.holds = some ip → lease.guestIp = none ∧ a.holds = some ip) :
    Sound net ((s.setLease id none).goto t a) := by
  refine hs.goto hb (hs.setLease hb hknows none) hlock (fun _ _ h => by simp [hnew] at h) ?_
  rw [claim_setLease]
  have hrow : s.claim (.lease id) = lease.guestIp := by simp [claim, hs.leased hb hknows]
  cases hb' : b.holds with
  | none =>
    have hpass : Exclusive net.Guest (update (update s.claim (.task t)
        (s.claim (.lease id))) (.lease id) none) _ :=
      hs.exclusive.pass nofun (by simp [claim, hb, hb'])
    rwa [hrow, hlease hb', update_comm (show Claimant.task t ≠ .lease id from nofun)]
      at hpass
  | some ip =>
  obtain ⟨hnone, ha⟩ := hholds ip hb'
  have hsame : update s.claim (.lease id) none = s.claim := by
    rw [update_eq_self_iff, hrow, hnone]
  rw [show Option.bind (none : Option Lease) (·.guestIp) = none from rfl, hsame]
  exact hs.hold hb (.inl (ha.trans hb'.symm))

/-! ### Records -/

lemma Sound.clearRow (hs : Sound net s) {rest : List (ℕ × VmRecord)}
    {fails : Bool} (hb : s.tasks t = some (.sweepClear vm name rest)) :
    Sound net (((s.setRow vm (if fails then s.rows vm
      else (s.rows vm).map fun record => { record with guestIp := none })).unlock name).goto t
        (.sweepNext rest)) := by
  refine hs.next hb (hs.setRow fun hnone => by simp [hnone]) rfl rfl rfl ?_
  rw [claim_setRow]
  apply hs.exclusive.shrink
  intro x
  by_cases hx : x = .task t
  · subst hx
    exact .inr (update_self ..)
  rw [update_of_ne hx]
  by_cases hrow : x = .row vm
  · subst hrow
    rw [update_self]
    cases fails with
    | true => exact .inl rfl
    | false =>
      right
      cases s.rows vm <;> rfl
  · exact .inl (update_of_ne hrow _ _)

/-! ## Steps -/

def Frees (s : Core) (e : Event) (ip : Ipv4Addr) : Prop :=
  ∃ t answer a, e = .advance t answer ∧ s.tasks t = some a ∧ a.frees = some ip ∧
    answer.fails = false

/-- An address that a destroy or a sweep frees is in no record and no lease, and no call has it. -/
def Harmless (s : Core) (e : Event) : Prop := ∀ ip, s.Frees e ip → ∀ x, s.claim x ≠ some ip

lemma Sound.advance (hs : Sound net s) {answer : Answer} {s' : Core}
    (hharmless : s.Harmless (.advance t answer)) (hstep : s.advance t answer = some s') :
    Sound net s' := by
  cases hb : s.tasks t with
  | none => simp [Core.advance, hb] at hstep
  | some b =>
  have hharmless : ∀ ip, b.frees = some ip → answer.fails = false →
      ∀ x, s.claim x ≠ some ip := fun ip hip hok =>
    hharmless ip ⟨t, answer, b, rfl, hb, hip, hok⟩
  cases b <;> simp only [Core.advance, hb, some.injEq] at hstep
  case create name nat replaceStopped | destroyLock vm record | sweepLock vm name rest =>
    exact hs.takeLock hb hstep rfl rfl rfl
  case existing name nat replaceStopped =>
    split at hstep
    case h_1 vm record hfind =>
      have hname := getVmByName_eq_some hfind
      split at hstep <;> cases hstep
      · exact hs.stay hb (congrArg some hname) rfl rfl
      · exact hs.return hb rfl
    case h_2 =>
      cases hstep
      exact hs.stay hb rfl rfl rfl
  case allocate name nat =>
    split at hstep
    · cases hstep
      exact hs.return hb rfl
    split at hstep
    case isTrue =>
      split at hstep
      case h_1 => cases hstep
      case h_2 ip allocator halloc =>
        cases hstep
        obtain ⟨hserves, hfresh, hused⟩ := hs.serves.allocate halloc
        refine hs.goto hb (hs.allocator hserves) rfl nofun ?_
        rw [show IpAllocator.inUse _ = _ from hused]
        exact hs.exclusive.acquire hfresh
      case h_3 e allocator halloc =>
        cases hstep
        obtain ⟨hserves, hused⟩ := hs.serves.allocate halloc
        apply hs.leave hb (hs.allocator hserves) rfl
        rw [show IpAllocator.inUse _ = _ from hused]
        exact hs.exclusive.drop _
    case isFalse =>
      cases hstep
      exact hs.stay hb rfl rfl rfl
  case lease name ip =>
    split at hstep <;> cases hstep
    · exact hs.stay hb rfl rfl rfl
    · exact hs.beginLease hb
  case network name ip id =>
    split at hstep <;> cases hstep
    · exact hs.stay hb rfl rfl rfl
    · exact hs.nameLease hb
  case build name ip id =>
    split at hstep <;> cases hstep
    · exact hs.stay hb rfl rfl rfl
    · exact hs.stay hb rfl rfl rfl
  case commit name ip id =>
    split at hstep <;> cases hstep
    · exact hs.stay hb rfl rfl rfl
    · exact hs.commitLease hb
  case rollback name ip id named =>
    split at hstep <;> cases hstep
    · exact hs.return hb rfl
    · exact hs.stay hb rfl rfl (by cases named <;> rfl)
  case unlease name ip id named =>
    split at hstep <;> cases hstep
    · exact hs.return hb rfl
    · cases named with
      | false => exact hs.unlease hb rfl rfl rfl (fun h => h.symm) fun _ h => ⟨rfl, h⟩
      | true => exact hs.unlease hb rfl rfl rfl (fun _ => rfl) nofun
  case giveBack name ip =>
    obtain ⟨s₁, hfree, rfl⟩ := map_eq_some_iff.mp hstep
    obtain ⟨hchange, hexclusive⟩ := hs.freeQuietly hb hfree
    exact hs.leave hb hchange rfl hexclusive
  case destroy name =>
    split at hstep <;> cases hstep
    · exact hs.finish
    · exact hs.stay hb rfl rfl rfl
  case generation vm record creation =>
    split at hstep
    · split at hstep <;> cases hstep
      · exact hs.return hb rfl
      · exact hs.stay hb rfl rfl rfl
    · cases hstep
      cases creation with
      | none => exact hs.return hb rfl
      | some nat => exact hs.stay hb rfl rfl rfl
  case release vm record creation =>
    split at hstep
    · cases hstep
      exact hs.return hb rfl
    case isFalse hok =>
      obtain ⟨⟨ok, s₁⟩, hfree, rfl⟩ := map_eq_some_iff.mp hstep
      obtain ⟨hchange, hexclusive⟩ := hs.freeRecorded
        (fun ip hip => hharmless ip hip (by simpa using hok)) hfree
      cases ok with
      | false => exact hs.leave hb hchange rfl hexclusive
      | true => exact hs.goto hb hchange rfl nofun hexclusive
  case retire vm record creation =>
    split at hstep <;> cases hstep
    · exact hs.return hb rfl
    have hchange : Change net s (s.setRow vm none) (.retire vm record creation) :=
      hs.setRow fun _ => rfl
    have hexclusive := (hs.exclusive.drop (.row vm)).drop (.task t)
    cases creation with
    | none => exact hs.leave hb hchange rfl (by rwa [claim_setRow])
    | some nat => exact hs.goto hb hchange rfl nofun (by rwa [claim_setRow])
  case sweep | recover =>
    subst hstep
    exact hs.stay hb rfl rfl rfl
  case sweepNext rest =>
    cases rest with
    | nil =>
      obtain rfl := some.inj hstep
      exact hs.finish
    | cons vm rest =>
    dsimp only at hstep
    split at hstep <;> cases hstep
    · exact hs.stay hb rfl rfl rfl
    · exact hs.stay hb rfl rfl rfl
  case sweepRead vm name rest =>
    split at hstep
    · cases hstep
      exact hs.skip hb rfl rfl rfl rfl
    · split at hstep <;> cases hstep
      · exact hs.stay hb rfl rfl rfl
      · exact hs.skip hb rfl rfl rfl rfl
  case sweepRelease vm name ip rest =>
    split at hstep
    · cases hstep
      exact hs.skip hb rfl rfl rfl rfl
    case isFalse hok =>
      obtain ⟨⟨ok, s₁⟩, hfree, rfl⟩ := map_eq_some_iff.mp hstep
      obtain ⟨hchange, hexclusive⟩ := hs.freeRecorded
        (fun ip hip => hharmless ip hip (by simpa using hok)) hfree
      cases ok with
      | false => exact hs.next hb hchange rfl rfl rfl hexclusive
      | true => exact hs.goto hb hchange rfl nofun hexclusive
  case sweepClear vm name rest =>
    subst hstep
    exact hs.clearRow hb
  case recoverNext rest =>
    cases rest with
    | nil =>
      obtain rfl := some.inj hstep
      exact hs.finish
    | cons entry rest =>
      obtain rfl := some.inj hstep
      exact hs.stay hb rfl rfl rfl
  case recoverLock id name rest =>
    exact hs.takeLock hb hstep rfl rfl rfl
  case recoverRead id name rest =>
    split at hstep
    · cases hstep
      exact hs.skip hb rfl rfl rfl rfl
    case h_2 found hfound =>
      split at hstep
      case isTrue =>
        cases hstep
        exact hs.skip hb rfl rfl rfl rfl
      case isFalse hpassed =>
        cases hstep
        simp only [Bool.or_eq_true, decide_eq_true_eq, not_or, not_not] at hpassed
        have hname := hpassed.1.1.2
        refine hs.goto hb hs.same rfl ?_ (hs.hold hb (.inl rfl))
        rintro other known ⟨⟩
        rw [hfound, ← hname]
  case recoverUnlease id name ip rest =>
    split at hstep
    · split at hstep <;> cases hstep
      · exact hs.skip hb rfl rfl rfl rfl
      · exact hs.return hb rfl
    · cases hstep
      exact hs.unlease hb rfl rfl rfl (fun _ => rfl) nofun
  case recoverRelease name ip rest =>
    obtain ⟨s₁, hfree, rfl⟩ := map_eq_some_iff.mp hstep
    obtain ⟨hchange, hexclusive⟩ := hs.freeQuietly hb hfree
    exact hs.next hb hchange rfl rfl rfl hexclusive

end Core

/-! # Addresses over whole runs

Creations, rollbacks and lease recovery release the durable owner before the address; destroys and
sweeps free the address first.  Without the latter no recorded address can be allocated again.
-/
open Machine

variable {net : Subnet} {s s' : Core} {e : Event} {ip : Ipv4Addr}

def Claimant.durable : Claimant → Bool
  | .row _ | .lease _ => true
  | .task _ => false

variable {a : Task} {t : ℕ} {x : Claimant}

namespace Core

/-- No address of a record or a lease is available, and no two of them carry the same one. -/
structure Addressed (net : Subnet) (s : Core) : Prop where
  unavailable : ∀ x ip, x.durable = true → s.claim x = some ip → net.Guest ip →
    ip ∈ s.allocator.inUse
  distinct : ∀ x y ip, x.durable = true → y.durable = true → s.claim x = some ip →
    s.claim y = some ip → net.Guest ip → x = y

/-- No call is in progress and the allocator knows the recorded addresses. -/
structure Ready (net : Subnet) (s : Core) : Prop where
  serves : IpAllocator.Serves net s.allocator
  addressed : s.Addressed net
  tasks : ∀ t, s.tasks t = none
  fresh : ∀ id, s.minted ≤ id → s.rows id = none ∧ s.leases id = none

lemma Ready.sound (h : s.Ready net) : Sound net s where
  serves := h.serves
  exclusive := by
    have hdurable : ∀ {x ip}, s.claim x = some ip → x.durable = true := by
      intro x ip hx
      cases x with
      | row id => rfl
      | lease id => rfl
      | task t => simp [claim, h.tasks t] at hx
    constructor
    · exact fun hx hP => h.addressed.unavailable _ _ (hdurable hx) hx hP
    · exact fun hx hy hP => h.addressed.distinct _ _ _ (hdurable hx) (hdurable hy) hx hy hP
  guarded t a name ha := by simp [h.tasks t] at ha
  leased {t} a id lease ha := by simp [h.tasks t] at ha
  fresh := h.fresh _

section
variable (hs : Sound net s)
include hs

lemma Sound.addressed : s.Addressed net where
  unavailable _ _ _ hx hP := hs.exclusive.used hx hP
  distinct _ _ _ _ _ hx hy hP := hs.exclusive.single hx hy hP

lemma Sound.call (t : ℕ) (c : Call) : Sound net (s.goto t c.task) where
  serves := hs.serves
  exclusive := by
    have hholds : c.task.holds = none := by cases c <;> rfl
    rw [claim_goto, hholds]
    exact hs.exclusive.drop _
  guarded := by
    apply hs.guarded.move
    intro name hname
    cases c <;> cases hname
  leased := by
    intro u a id lease ha hknows
    rcases Tasks.set_eq_some ha with ⟨-, rfl⟩ | ⟨-, ha⟩
    · cases c <;> cases hknows
    · exact hs.leased ha hknows
  fresh := hs.fresh

lemma Sound.abandon (ha : s.tasks t = some a) :
    Sound net ((a.lockName.elim s s.unlock).finish t) := by
  cases hlock : a.lockName with
  | none => exact hs.finish
  | some name => exact hs.return ha hlock

lemma Sound.step (hharmless : s.Harmless e) (hstep : s.step e = some s') : Sound net s' := by
  cases e with
  | call t c =>
    simp only [Core.step] at hstep
    split at hstep
    case isTrue => cases hstep
    case isFalse =>
      cases hstep
      exact hs.call t c
  | advance t answer => exact hs.advance hharmless hstep
  | abandon t =>
  simp only [Core.step] at hstep
  split at hstep
  case h_1 a ha =>
    split at hstep <;> cases hstep
    · exact hs.abandon ha
  case h_2 => cases hstep

lemma Sound.freed {ok : Bool} {s₁ : Core} (hx : x.durable = true) (hclaim : s.claim x = some ip) (hguest : net.Guest ip)
    (hfree : s.freeIp ip = some (ok, s₁)) : ok = true ∧ ¬(s₁.goto t a).Addressed net := by
  obtain ⟨-, hsame, hused⟩ := hs.freeIp (b := a) hfree
  cases ok with
  | false => exact absurd ⟨hguest, hs.exclusive.used hclaim hguest⟩ hused.1
  | true =>
  refine ⟨rfl, fun haddressed => ?_⟩
  have hkept : (s₁.goto t a).claim x = some ip := by
    have hne : x ≠ .task t := by
      rintro rfl
      cases hx
    rw [claim_goto, Function.update_of_ne hne, hsame, hclaim]
  have hmem : ip ∈ s₁.allocator.inUse := haddressed.unavailable x ip hx hkept hguest
  rw [hused.2] at hmem
  exact hmem.2 rfl

lemma Sound.broken (hstep : s.step e = some s') (hfrees : s.Frees e ip)
    (hx : x.durable = true) (hclaim : s.claim x = some ip)
    (hguest : net.Guest ip) : ¬s'.Addressed net := by
  obtain ⟨t, answer, a, rfl, ha, hip, hok⟩ := hfrees
  simp only [Core.step] at hstep
  cases a with
  | release vm record creation =>
    replace hip : record.guestIp = some ip := hip
    simp only [Core.advance, ha, hok, hip, Bool.false_eq_true, if_false] at hstep
    obtain ⟨⟨ok, s₁⟩, hfree, rfl⟩ := map_eq_some_iff.mp hstep
    obtain ⟨rfl, hbroken⟩ := hs.freed hx hclaim hguest hfree
    exact hbroken
  | sweepRelease vm name recorded rest =>
    replace hip : recorded = some ip := hip
    simp only [Core.advance, ha, hok, hip, Bool.false_eq_true, if_false] at hstep
    obtain ⟨⟨ok, s₁⟩, hfree, rfl⟩ := map_eq_some_iff.mp hstep
    obtain ⟨rfl, hbroken⟩ := hs.freed hx hclaim hguest hfree
    exact hbroken
  | _ => cases hip

end

end Core

def officeNet : Subnet where
  base := 2886991872
  prefixLen := 24
  range := by decide
  aligned := by decide

/-- A NAT VM has the first address, the second was freed, and a bridged VM has none. -/
def officeCore : Core where
  rows := fun id =>
    if id = 0 then some ⟨"web", some 2886991874⟩ else if id = 1 then some ⟨"lab", none⟩ else none
  leases := fun _ => none
  minted := 2
  allocator := ⟨2886991872, 24, 253, ⟨2, {1}, ∅⟩⟩
  lock := fun _ => none
  tasks := fun _ => none

def freesNothing (s : Core) : Event → Bool
  | .advance t _ => ((s.tasks t).bind Task.frees).isNone
  | _ => true

lemma harmless_of_freesNothing {s : Core} {e : Event} (h : freesNothing s e = true) :
    s.Harmless e := by
  rintro ip ⟨t, answer, a, rfl, ha, hip, -⟩
  simp [freesNothing, ha, hip] at h

lemma officeCore_ready : officeCore.Ready officeNet where
  serves := by
    refine ⟨rfl, rfl, ?_, ?_, ?_⟩
    · decide
    · intro i hi
      rw [Finset.mem_singleton.mp hi]
      decide
    · intro i hi
      cases hi
  addressed := by
    have hweb : ∀ {x ip}, officeCore.claim x = some ip → x = .row 0 ∧ ip = 2886991874 := by
      intro x ip hx
      cases x with
      | row id =>
        by_cases h₀ : id = 0
        · subst h₀
          exact ⟨rfl, (some.inj hx).symm⟩
        · by_cases h₁ : id = 1
          · subst h₁
            cases hx
          · simp [Core.claim, officeCore, h₀, h₁] at hx
      | lease id => cases hx
      | task t => cases hx
    constructor
    · intro x ip _ hx _
      obtain ⟨-, rfl⟩ := hweb hx
      exact ⟨0, .inl ⟨by decide, by decide⟩, rfl⟩
    · intro x y ip _ _ hx hy _
      exact (hweb hx).1.trans (hweb hy).1.symm
  tasks _ := rfl
  fresh := by
    intro id hle
    have hle : 2 ≤ id := hle
    refine ⟨?_, rfl⟩
    simp [officeCore, show id ≠ 0 by omega, show id ≠ 1 by omega]

end Husker.Address
