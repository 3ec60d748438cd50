import Husker.Net.Address
import Husker.Relational.Machine

/-! # The guest address allocator

A high-water mark, the indices released below it, and the indices reserved at or above it stand
for a plain set of addresses in use.  A computation without a value is one that overflowed.
-/
namespace Husker.Net
open Relational Option Finset

structure AllocatorState where
  nextIndex : U32
  /-- Released indices below `nextIndex`, reused before fresh ones. -/
  freed : Finset U32
  /-- Indices at or above `nextIndex` reserved out of band. -/
  reserved : Finset U32

structure IpAllocator where
  base : Ipv4Addr
  prefixLen : ℕ
  maxIndex : U32
  state : AllocatorState

namespace IpAllocator

def new (base : Ipv4Addr) (prefixLen : ℕ) : Option IpAllocator :=
  if 1 ≤ prefixLen ∧ prefixLen ≤ 30 then do
    let addresses ← shlU32 1 (32 - prefixLen)
    let maxGuests ← subU32 addresses 3
    some ⟨base, prefixLen, maxGuests, ⟨0, ∅, ∅⟩⟩
  else none

def gateway (a : IpAllocator) : Option Ipv4Addr := addU32 a.base 1

/-- Advance to the next fresh index, skipping those reserved above the mark. -/
def advance (maxIndex : U32) (s : AllocatorState) : Option (Option U32 × AllocatorState) :=
  if maxIndex ≤ s.nextIndex then some (none, s)
  else
    match addU32 s.nextIndex 1 with
    | none => none
    | some next =>
      if s.nextIndex ∈ s.reserved then
        advance maxIndex { s with nextIndex := next, reserved := s.reserved.erase s.nextIndex }
      else some (some s.nextIndex, { s with nextIndex := next })
termination_by s.reserved.card
decreasing_by exact Finset.card_erase_lt_of_mem ‹_›

def take (maxIndex : U32) (s : AllocatorState) : Option (Option U32 × AllocatorState) :=
  match s.freed.min with
  | some idx => some (some idx, { s with freed := s.freed.erase idx })
  | none => advance maxIndex s

def allocate (a : IpAllocator) : Option (Except NetError Ipv4Addr × IpAllocator) := do
  let (index, state) ← take a.maxIndex a.state
  match index with
  | none => some (.error .poolExhausted, { a with state := state })
  | some index =>
    let first ← addU32 a.base 2
    let guestIp ← addU32 first index
    some (.ok guestIp, { a with state := state })

/-- The index of an address for guests, as `release` and `reserve` compute it. -/
def indexOf (a : IpAllocator) (guestIp : Ipv4Addr) : Option (Option U32) := do
  let first ← addU32 a.base 2
  if guestIp < first then return none
  let offset ← subU32 guestIp a.base
  let index ← subU32 offset 2
  if a.maxIndex ≤ index then return none
  return some index

def releaseIndex (s : AllocatorState) (index : U32) : Option AllocatorState :=
  if index < s.nextIndex then
    if index ∈ s.freed then none else some { s with freed := insert index s.freed }
  else if index ∈ s.reserved then some { s with reserved := s.reserved.erase index }
  else none

def release (a : IpAllocator) (guestIp : Ipv4Addr) : Option (Except NetError Unit × IpAllocator) := do
  match ← a.indexOf guestIp with
  | none => return (.error (.notAllocated guestIp), a)
  | some index =>
    match releaseIndex a.state index with
    | none => return (.error (.notAllocated guestIp), a)
    | some state => return (.ok (), { a with state := state })

def reserveIndex (s : AllocatorState) (index : U32) : AllocatorState :=
  if index < s.nextIndex then { s with freed := s.freed.erase index }
  else { s with reserved := insert index s.reserved }

def reserve (a : IpAllocator) (guestIp : Ipv4Addr) : Option (Except NetError Unit × IpAllocator) := do
  match ← a.indexOf guestIp with
  | none => return (.error (.notAllocated guestIp), a)
  | some index => return (.ok (), { a with state := reserveIndex a.state index })

end IpAllocator

/-! ## Indices in use -/

namespace AllocatorState

variable {maxIndex : U32} {s : AllocatorState}

structure Valid (maxIndex : U32) (s : AllocatorState) : Prop where
  next_le : s.nextIndex ≤ maxIndex
  freed_lt : ∀ i ∈ s.freed, i < s.nextIndex
  reserved_range : ∀ i ∈ s.reserved, s.nextIndex ≤ i ∧ i < maxIndex

/-- What the representation stands for: below the mark all that was not freed, above it what
was reserved. -/
def used (s : AllocatorState) : Set U32 := {i | i < s.nextIndex ∧ i ∉ s.freed ∨ i ∈ s.reserved}

lemma Valid.freed_unused (h : s.Valid maxIndex) {i : U32} (hi : i ∈ s.freed) : i ∉ s.used := by
  rintro (hused | hused)
  · exact hused.2 hi
  · exact absurd (h.freed_lt i hi) (not_lt.mpr (h.reserved_range i hused).1)

end AllocatorState

variable {next : U32}

open AllocatorState

namespace IpAllocator

variable {maxIndex : U32} {s s' : AllocatorState}

/-- One turn of the loop: the mark passes the index it stands at. -/
lemma passed_valid (h : s.Valid maxIndex) (hlt : s.nextIndex < maxIndex) (hnext : next.val = s.nextIndex.val + 1) :
    AllocatorState.Valid maxIndex ⟨next, s.freed, s.reserved.erase s.nextIndex⟩ := by
  refine ⟨?_, fun i hi => ?_, fun i hi => ?_⟩
  · rw [Fin.le_def, hnext]
    exact hlt
  · rw [Fin.lt_def, hnext]
    exact Nat.lt_succ_of_lt (h.freed_lt i hi)
  · obtain ⟨hne, hi⟩ := mem_erase.mp hi
    obtain ⟨hle, hmax⟩ := h.reserved_range i hi
    refine ⟨?_, hmax⟩
    rw [Fin.le_def, hnext]
    exact lt_of_le_of_ne hle (Ne.symm hne)

lemma passed_used (h : s.Valid maxIndex) (hnext : next.val = s.nextIndex.val + 1) :
    used ⟨next, s.freed, s.reserved.erase s.nextIndex⟩ =
      insert s.nextIndex s.used := by
  ext i
  have hfreed : s.nextIndex ∉ s.freed := fun hmem => lt_irrefl _ (h.freed_lt _ hmem)
  simp only [used, Set.mem_ofPred_eq, Set.mem_insert_iff, mem_erase,
    Fin.lt_def, hnext, Nat.lt_succ_iff_lt_or_eq, ← Fin.ext_iff]
  by_cases hi : i = s.nextIndex
  · simp [hi, hfreed]
  · simp [hi]

/-- What handing out an index may answer: the lowest index not in use, or that there is none. -/
def Taken (maxIndex : U32) (used : Set U32) : Option U32 → Set U32 → Prop
  | some i, used' => IsLeast {j | j < maxIndex ∧ j ∉ used} i ∧ used' = insert i used
  | none, used' => (∀ j < maxIndex, j ∈ used) ∧ used' = used

lemma Taken.of_insert {used used' : Set U32} {r : Option U32} {k : U32} (hk : k ∈ used)
    (h : Taken maxIndex (insert k used) r used') : Taken maxIndex used r used' := by
  rwa [Set.insert_eq_of_mem hk] at h

section
variable (h : s.Valid maxIndex)
include h

lemma advance_spec (hfreed : s.freed = ∅) :
    ∃ r s', advance maxIndex s = some (r, s') ∧ s'.Valid maxIndex ∧
      Taken maxIndex s.used r s'.used := by
  -- induction along the loop: each turn removes a reserved index
  induction s using advance.induct maxIndex with
  | case1 s hmax =>
    refine ⟨none, s, by rw [advance, if_pos hmax], h, fun j hj => ?_, rfl⟩
    exact .inl ⟨hj.trans_le hmax, by simp [hfreed]⟩
  | case2 s hmax hnext =>
    have hlt : s.nextIndex < maxIndex := not_le.mp hmax
    have hfits : s.nextIndex.val + 1 < 2 ^ 32 := (Nat.succ_le_of_lt hlt).trans_lt maxIndex.isLt
    have hsome : addU32 s.nextIndex 1 = some ⟨s.nextIndex.val + 1, hfits⟩ := addU32_eq_some.mpr rfl
    rw [hsome] at hnext
    exact absurd hnext (by simp)
  | case3 s hmax next hnext hreserved ih =>
    have hlt : s.nextIndex < maxIndex := not_le.mp hmax
    have hsucc : next.val = s.nextIndex.val + 1 := addU32_eq_some.mp hnext
    obtain ⟨r, s', heq, hvalid, htaken⟩ := ih (passed_valid h hlt hsucc) hfreed
    refine ⟨r, s', by rw [advance, if_neg hmax, hnext]; simp [hreserved, heq], hvalid, ?_⟩
    rw [passed_used h hsucc] at htaken
    exact htaken.of_insert (.inr hreserved)
  | case4 s hmax next hnext hreserved =>
  have hlt : s.nextIndex < maxIndex := not_le.mp hmax
  have hsucc : next.val = s.nextIndex.val + 1 := addU32_eq_some.mp hnext
  have herase : s.reserved.erase s.nextIndex = s.reserved := erase_eq_of_notMem hreserved
  have hvalid := passed_valid h hlt hsucc
  have hused := passed_used h hsucc
  rw [herase] at hvalid hused
  refine ⟨some s.nextIndex, _, by rw [advance, if_neg hmax, hnext]; simp [hreserved], hvalid,
    ⟨⟨hlt, ?_⟩, fun j hj => ?_⟩, hused⟩
  · rintro (hbelow | hmem)
    · exact lt_irrefl _ hbelow.1
    · exact hreserved hmem
  · by_contra hbelow
    exact hj.2 (.inl ⟨not_le.mp hbelow, by simp [hfreed]⟩)

lemma take_spec : ∃ r s', take maxIndex s = some (r, s') ∧ s'.Valid maxIndex ∧
      Taken maxIndex s.used r s'.used := by
  unfold take
  cases hmin : s.freed.min with
  | top => exact advance_spec h (Finset.min_eq_top.mp hmin)
  | coe idx =>
  have hmem : idx ∈ s.freed := mem_of_min hmin
  have hlt : idx < s.nextIndex := h.freed_lt idx hmem
  refine ⟨some idx, _, rfl, ⟨h.next_le, fun i hi => h.freed_lt i (mem_of_mem_erase hi),
    h.reserved_range⟩, ⟨⟨hlt.trans_le h.next_le, h.freed_unused hmem⟩, fun j hj => ?_⟩, ?_⟩
  · -- an index not in use is freed, or at the mark or above it
    by_cases hj' : j ∈ s.freed
    · exact min_le_of_eq hj' hmin
    · by_contra hbelow
      exact hj.2 (.inl ⟨(not_le.mp hbelow).trans hlt, hj'⟩)
  · ext i
    simp only [used, Set.mem_ofPred_eq, Set.mem_insert_iff, mem_erase]
    by_cases hi : i = idx
    · simp [hi, hlt]
    · simp [hi]

lemma releaseIndex_spec (i : U32) :
    (i ∈ s.used ∧ ∃ s', releaseIndex s i = some s' ∧ s'.Valid maxIndex ∧ s'.used = s.used \ {i}) ∨
    (i ∉ s.used ∧ releaseIndex s i = none) := by
  unfold releaseIndex
  by_cases hlt : i < s.nextIndex
  · have hreserved : i ∉ s.reserved := fun hmem =>
      absurd hlt (not_lt.mpr (h.reserved_range i hmem).1)
    by_cases hfreed : i ∈ s.freed
    · exact .inr ⟨h.freed_unused hfreed, by simp [hlt, hfreed]⟩
    refine .inl ⟨.inl ⟨hlt, hfreed⟩, _, by rw [if_pos hlt, if_neg hfreed], ?_, ?_⟩
    · refine ⟨h.next_le, fun j hj => ?_, h.reserved_range⟩
      rcases mem_insert.mp hj with rfl | hj
      · exact hlt
      · exact h.freed_lt j hj
    · ext j
      simp only [used, Set.mem_ofPred_eq, Set.mem_sdiff, Set.mem_singleton_iff, mem_insert]
      by_cases hj : j = i
      · simp [hj, hreserved]
      · simp [hj]
  · by_cases hreserved : i ∈ s.reserved
    · refine .inl ⟨.inr hreserved, _, by rw [if_neg hlt, if_pos hreserved], ?_, ?_⟩
      · exact ⟨h.next_le, h.freed_lt, fun j hj => h.reserved_range j (mem_of_mem_erase hj)⟩
      · ext j
        simp only [used, Set.mem_ofPred_eq, Set.mem_sdiff, Set.mem_singleton_iff, mem_erase]
        by_cases hj : j = i
        · simp [hj, hlt]
        · simp [hj]
    · exact .inr ⟨by simp [used, hlt, hreserved], by simp [hlt, hreserved]⟩

lemma reserveIndex_spec {i : U32} (hi : i < maxIndex) :
    (reserveIndex s i).Valid maxIndex ∧ (reserveIndex s i).used = insert i s.used := by
  unfold reserveIndex
  split_ifs with hlt
  · refine ⟨⟨h.next_le, fun j hj => h.freed_lt j (mem_of_mem_erase hj), h.reserved_range⟩, ?_⟩
    ext j
    simp only [used, Set.mem_ofPred_eq, Set.mem_insert_iff, mem_erase]
    by_cases hj : j = i
    · simp [hj, hlt]
    · simp [hj]
  · refine ⟨⟨h.next_le, h.freed_lt, fun j hj => ?_⟩, ?_⟩
    · rcases mem_insert.mp hj with rfl | hj
      · exact ⟨not_lt.mp hlt, hi⟩
      · exact h.reserved_range j hj
    · ext j
      simp only [used, Set.mem_ofPred_eq, Set.mem_insert_iff, mem_insert]
      by_cases hj : j = i
      · simp [hj]
      · simp [hj]

end

end IpAllocator

/-! ## Addresses in use -/

inductive Call where
  | allocate
  | release (ip : Ipv4Addr)
  | reserve (ip : Ipv4Addr)

abbrev Reply := Except NetError (Option Ipv4Addr)

namespace IpAllocator

def call (a : IpAllocator) : Call → Option (Reply × IpAllocator)
  | .allocate => a.allocate.map (Prod.map (Except.map some) id)
  | .release ip => (a.release ip).map (Prod.map (Except.map fun _ => none) id)
  | .reserve ip => (a.reserve ip).map (Prod.map (Except.map fun _ => none) id)

def calls (a : IpAllocator) : List Call → Option (List Reply × IpAllocator)
  | [] => some ([], a)
  | c :: cs => do
    let (reply, a) ← a.call c
    let (replies, a) ← a.calls cs
    return (reply :: replies, a)

structure Serves (net : Subnet) (a : IpAllocator) : Prop where
  base : a.base = net.base
  max : a.maxIndex.val = net.size - 3
  valid : a.state.Valid a.maxIndex

def inUse (a : IpAllocator) : Set Ipv4Addr :=
  {ip | ∃ i ∈ a.state.used, ip.val = a.base.val + 2 + i.val}

variable {net : Subnet} {a : IpAllocator} {i : U32} {ip : Ipv4Addr} {s : AllocatorState}

lemma Serves.guest_of_index (h : Serves net a) (hi : i < a.maxIndex)
    (hip : ip.val = a.base.val + 2 + i.val) : net.Guest ip := by
  have hi : i.val < a.maxIndex.val := hi
  have hsize := net.four_le_size
  rw [h.max] at hi
  rw [h.base] at hip
  rw [Subnet.guest_iff]
  omega

lemma Serves.index_of_guest (h : Serves net a) (hip : net.Guest ip) :
    ∃ i < a.maxIndex, ip.val = a.base.val + 2 + i.val := by
  rw [Subnet.guest_iff, ← h.base] at hip
  have hlt : ip.val - a.base.val - 2 < 2 ^ 32 := by
    have := ip.isLt
    omega
  refine ⟨⟨ip.val - a.base.val - 2, hlt⟩, ?_, ?_⟩
  · rw [Fin.lt_def, h.max]
    simp only
    omega
  · simp only
    omega

lemma Serves.address (h : Serves net a) (hi : i < a.maxIndex) :
    ∃ ip : Ipv4Addr, ip.val = a.base.val + 2 + i.val := by
  have hi : i.val < a.maxIndex.val := hi
  have hend := net.base_add_size
  rw [h.max] at hi
  rw [← h.base] at hend
  exact ⟨⟨a.base.val + 2 + i.val, by omega⟩, rfl⟩

lemma Serves.first (h : Serves net a) : ∃ first, addU32 a.base 2 = some first ∧
    first.val = a.base.val + 2 := by
  have hend := net.base_add_size
  have hsize := net.four_le_size
  rw [← h.base] at hend
  exact ⟨⟨a.base.val + 2, by omega⟩, addU32_eq_some.mpr rfl, rfl⟩

section
variable (hip : ip.val = a.base.val + 2 + i.val)
include hip

lemma mem_inUse : ip ∈ a.inUse ↔ i ∈ a.state.used := by
  constructor
  · rintro ⟨j, hj, hipj⟩
    have hij : i = j := Fin.ext (by omega)
    rwa [hij]
  · exact fun hi => ⟨i, hi, hip⟩

lemma inUse_insert (hused : s.used = insert i a.state.used) :
    inUse { a with state := s } = insert ip a.inUse := by
  ext x
  simp only [inUse, hused, Set.mem_ofPred_eq, Set.mem_insert_iff, or_and_right, exists_or,
    exists_eq_left, ← hip, ← Fin.ext_iff]

lemma inUse_remove (hused : s.used = a.state.used \ {i}) :
    inUse { a with state := s } = a.inUse \ {ip} := by
  ext x
  constructor
  · rintro ⟨j, hj, hx⟩
    rw [hused] at hj
    refine ⟨⟨j, hj.1, hx⟩, fun hxip => hj.2 (Fin.ext ?_)⟩
    have hxip : x = ip := hxip
    have hx : x.val = a.base.val + 2 + j.val := hx
    rw [hxip] at hx
    omega
  · rintro ⟨⟨j, hj, hx⟩, hne⟩
    refine ⟨j, ?_, hx⟩
    rw [hused]
    refine ⟨hj, fun hji => hne (Fin.ext ?_)⟩
    have hji : j = i := hji
    rw [hx, hip, hji]

end

lemma inUse_same (hused : s.used = a.state.used) : inUse { a with state := s } = a.inUse := by
  simp only [inUse, hused]

lemma indexOf_spec (h : Serves net a) (ip : Ipv4Addr) :
    (net.Guest ip ∧ ∃ i < a.maxIndex, ip.val = a.base.val + 2 + i.val ∧
      a.indexOf ip = some (some i)) ∨ (¬net.Guest ip ∧ a.indexOf ip = some none) := by
  obtain ⟨first, hfirst, hval⟩ := h.first
  unfold indexOf
  simp only [hfirst, bind_eq_bind, bind_some]
  by_cases hlow : ip < first
  · refine .inr ⟨fun hguest => ?_, by rw [if_pos hlow]; rfl⟩
    rw [Subnet.guest_iff, ← h.base] at hguest
    have hlow : ip.val < first.val := hlow
    omega
  rw [if_neg hlow]
  have hlow : first.val ≤ ip.val := not_lt.mp hlow
  obtain ⟨offset, hoffset⟩ : ∃ c, subU32 ip a.base = some c :=
    ⟨⟨ip.val - a.base.val, by omega⟩, subU32_eq_some.mpr (by simp only; omega)⟩
  have hoffset' := subU32_eq_some.mp hoffset
  obtain ⟨index, hindex⟩ : ∃ c, subU32 offset 2 = some c :=
    ⟨⟨offset.val - 2, by omega⟩, subU32_eq_some.mpr (by
      simp only [show (2 : U32).val = 2 from rfl]
      omega)⟩
  have hindex' := subU32_eq_some.mp hindex
  rw [show (2 : U32).val = 2 from rfl] at hindex'
  have hip : ip.val = a.base.val + 2 + index.val := by omega
  simp only [hoffset, hindex, bind_some]
  by_cases hmax : a.maxIndex ≤ index
  · refine .inr ⟨fun hguest => ?_, by rw [if_pos hmax]; rfl⟩
    obtain ⟨i, hi, hipi⟩ := h.index_of_guest hguest
    have hii : i = index := Fin.ext (by omega)
    exact absurd (hii ▸ hi) (not_lt.mpr hmax)
  · exact .inl ⟨h.guest_of_index (not_le.mp hmax) hip, index, not_le.mp hmax, hip,
      by rw [if_neg hmax]; rfl⟩

end IpAllocator

def plain (net : Subnet) : Machine (Set Ipv4Addr) (Call × Reply) where
  step used
    | (.allocate, .ok (some ip)), used' =>
      IsLeast {a | net.Guest a ∧ a ∉ used} ip ∧ used' = insert ip used
    | (.allocate, .error .poolExhausted), used' => (∀ a, net.Guest a → a ∈ used) ∧ used' = used
    | (.release ip, .ok none), used' => (net.Guest ip ∧ ip ∈ used) ∧ used' = used \ {ip}
    | (.release ip, .error (.notAllocated ip')), used' =>
      ip' = ip ∧ ¬(net.Guest ip ∧ ip ∈ used) ∧ used' = used
    | (.reserve ip, .ok none), used' => net.Guest ip ∧ used' = insert ip used
    | (.reserve ip, .error (.notAllocated ip')), used' => ip' = ip ∧ ¬net.Guest ip ∧ used' = used
    | _, _ => False

namespace IpAllocator

variable {net : Subnet} {a : IpAllocator}

def Refined (net : Subnet) (a : IpAllocator) (c : Call) : Prop :=
  ∃ reply a', a.call c = some (reply, a') ∧ Serves net a' ∧
    (plain net).step a.inUse (c, reply) a'.inUse

lemma allocate_refined (h : Serves net a) : Refined net a .allocate := by
  obtain ⟨r, s', htake, hvalid, htaken⟩ := take_spec h.valid
  have hserves : Serves net { a with state := s' } := ⟨h.base, h.max, hvalid⟩
  cases r with
  | none =>
    obtain ⟨hall, hused⟩ := htaken
    refine ⟨.error .poolExhausted, _, by simp [call, allocate, htake, Except.map], hserves,
      fun ip hip => ?_, inUse_same hused⟩
    obtain ⟨i, hi, hipi⟩ := h.index_of_guest hip
    exact (mem_inUse hipi).mpr (hall i hi)
  | some i =>
  obtain ⟨⟨⟨hi, hfree⟩, hleast⟩, hused⟩ := htaken
  obtain ⟨first, hfirst, hval⟩ := h.first
  obtain ⟨ip, hip⟩ := h.address hi
  have hadd : addU32 first i = some ip := addU32_eq_some.mpr (by omega)
  refine ⟨.ok (some ip), _, by simp [call, allocate, htake, hfirst, hadd, Except.map], hserves,
    ⟨⟨h.guest_of_index hi hip, fun hmem => hfree ((mem_inUse hip).mp hmem)⟩, ?_⟩,
    inUse_insert hip hused⟩
  rintro other ⟨hguest, hother⟩
  obtain ⟨j, hj, hotherj⟩ := h.index_of_guest hguest
  have hij : i.val ≤ j.val := hleast ⟨hj, fun hmem => hother ((mem_inUse hotherj).mpr hmem)⟩
  rw [Fin.le_def, hip, hotherj]
  omega

lemma release_refined (h : Serves net a) (ip : Ipv4Addr) : Refined net a (.release ip) := by
  rcases indexOf_spec h ip with ⟨hguest, i, hi, hip, hindex⟩ | ⟨hguest, hindex⟩
  · rcases releaseIndex_spec h.valid i with ⟨hmem, s', hrelease, hvalid, hused⟩ | ⟨hmem, hrelease⟩
    · exact ⟨.ok none, { a with state := s' },
        by simp [call, release, hindex, hrelease, Except.map],
        ⟨h.base, h.max, hvalid⟩, ⟨hguest, (mem_inUse hip).mpr hmem⟩, inUse_remove hip hused⟩
    · exact ⟨.error (.notAllocated ip), a, by simp [call, release, hindex, hrelease, Except.map],
        h, rfl, fun hboth => hmem ((mem_inUse hip).mp hboth.2), rfl⟩
  · exact ⟨.error (.notAllocated ip), a, by simp [call, release, hindex, Except.map],
      h, rfl, fun hboth => hguest hboth.1, rfl⟩

lemma reserve_refined (h : Serves net a) (ip : Ipv4Addr) : Refined net a (.reserve ip) := by
  rcases indexOf_spec h ip with ⟨hguest, i, hi, hip, hindex⟩ | ⟨hguest, hindex⟩
  · obtain ⟨hvalid, hused⟩ := reserveIndex_spec h.valid hi
    exact ⟨.ok none, { a with state := reserveIndex a.state i },
      by simp [call, reserve, hindex, Except.map], ⟨h.base, h.max, hvalid⟩, hguest,
      inUse_insert hip hused⟩
  · exact ⟨.error (.notAllocated ip), a, by simp [call, reserve, hindex, Except.map],
      h, rfl, hguest, rfl⟩

lemma calls_refined (h : Serves net a) (cs : List Call) :
    ∃ replies a', a.calls cs = some (replies, a') ∧ replies.length = cs.length ∧ Serves net a' ∧
      (plain net).Run a.inUse (cs.zip replies) a'.inUse := by
  induction cs generalizing a with
  | nil => exact ⟨[], a, rfl, rfl, h, .nil _⟩
  | cons c cs ih =>
  obtain ⟨reply, a₁, heq, hserves, hstep⟩ : Refined net a c := by
    cases c with
    | allocate => exact allocate_refined h
    | release ip => exact release_refined h ip
    | reserve ip => exact reserve_refined h ip
  obtain ⟨replies, a', heqs, hlength, hserves', hrun⟩ := ih hserves
  exact ⟨reply :: replies, a', by simp [calls, heq, heqs], by simp [hlength], hserves',
    .cons hstep hrun⟩

lemma new_serves (net : Subnet) : ∃ a, new net.base net.prefixLen = some a ∧ Serves net a ∧
    a.inUse = ∅ := by
  have hrange := net.range
  have hsize := net.four_le_size
  have hfits : net.size < 2 ^ 32 := Nat.pow_lt_pow_right (by norm_num) (by omega)
  have hshift : shlU32 1 (32 - net.prefixLen) = some ⟨net.size, hfits⟩ :=
    (shlU32_one (by omega)).mpr rfl
  have hguests : subU32 ⟨net.size, hfits⟩ 3 = some ⟨net.size - 3, by omega⟩ :=
    subU32_eq_some.mpr (Nat.sub_add_cancel (by omega))
  refine ⟨⟨net.base, net.prefixLen, ⟨net.size - 3, by omega⟩, ⟨0, ∅, ∅⟩⟩, ?_, ⟨rfl, rfl, ?_⟩, ?_⟩
  · simp [new, hrange, hshift, hguests]
  · exact ⟨Fin.zero_le _, by simp, by simp⟩
  · ext ip
    simp [inUse, used]

end IpAllocator

/-- The allocator is a plain set of addresses in use, for every sequence of calls: every call
has a value, that is, nothing overflows. -/
theorem allocator_refines_plain_set (net : Subnet) :
    {ip | net.Guest ip}.ncard = 2 ^ (32 - net.prefixLen) - 3 ∧
    ∃ a, IpAllocator.new net.base net.prefixLen = some a ∧ a.gateway.isSome ∧
      ∀ cs : List Call, ∃ replies a', a.calls cs = some (replies, a') ∧
        replies.length = cs.length ∧ (plain net).Run ∅ (cs.zip replies) a'.inUse := by
  obtain ⟨a, hnew, hserves, hempty⟩ := IpAllocator.new_serves net
  refine ⟨net.guests_ncard, a, hnew, ?_, fun cs => ?_⟩
  · have hend := net.base_add_size
    have hsize := net.four_le_size
    rw [← hserves.base] at hend
    have hgateway : a.gateway = some ⟨a.base.val + 1, by omega⟩ := addU32_eq_some.mpr rfl
    rw [hgateway, isSome_some]
  · obtain ⟨replies, a', heq, hlength, -, hrun⟩ := IpAllocator.calls_refined hserves cs
    rw [hempty] at hrun
    exact ⟨replies, a', heq, hlength, hrun⟩

end Husker.Net
