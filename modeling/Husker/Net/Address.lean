import Mathlib.Tactic

/-! # IPv4 subnets

Addresses are 32-bit numbers, and the arithmetic on them is checked: an operation whose result
does not fit has no value.
-/
namespace Husker.Net
open Option Nat

abbrev U32 := Fin (2 ^ 32)

instance neZero : NeZero (2 ^ 32) := inferInstance

/-- An address as the number `u32::from` makes of it. -/
abbrev Ipv4Addr := U32

def addU32 (a b : U32) : Option U32 :=
  if h : a.val + b.val < 2 ^ 32 then some ⟨a.val + b.val, h⟩ else none

def subU32 (a b : U32) : Option U32 :=
  if b ≤ a then some ⟨a.val - b.val, (Nat.sub_le _ _).trans_lt a.isLt⟩ else none

def shlU32 (a : U32) (n : ℕ) : Option U32 :=
  if n < 32 then some ⟨a.val <<< n % 2 ^ 32, Nat.mod_lt _ (by norm_num)⟩ else none

variable {c : U32}

lemma addU32_eq_some {a b : U32} : addU32 a b = some c ↔ c.val = a.val + b.val := by
  unfold addU32
  split_ifs with h
  · rw [some.injEq, Fin.ext_iff]
    exact eq_comm
  · simp only [false_iff]
    intro hc
    exact h (hc ▸ c.isLt)

lemma subU32_eq_some {a b : U32} : subU32 a b = some c ↔ c.val + b.val = a.val := by
  unfold subU32
  split_ifs with h
  · rw [some.injEq, Fin.ext_iff]
    have h : b.val ≤ a.val := h
    constructor <;> intro hc <;> simp only at hc ⊢ <;> omega
  · simp only [false_iff]
    intro hc
    apply h
    rw [Fin.le_def]
    omega

lemma shlU32_one {n : ℕ} (h : n < 32) : shlU32 1 n = some c ↔ c.val = 2 ^ n := by
  have hlt : 2 ^ n < 2 ^ 32 := Nat.pow_lt_pow_right (by norm_num) h
  have hshift : (1 : U32).val <<< n % 2 ^ 32 = 2 ^ n := by
    rw [shiftLeft_eq, show (1 : U32).val = 1 from rfl, one_mul, mod_eq_of_lt hlt]
  rw [shlU32, if_pos h, some.injEq, Fin.ext_iff]
  simp only [hshift]
  exact eq_comm

def Ipv4Addr.toText (a : Ipv4Addr) : String :=
  ".".intercalate ([24, 16, 8, 0].map fun shift => toString (a.val >>> shift % 256))

/-- A network-aligned base address with a prefix length the allocator takes. -/
structure Subnet where
  base : Ipv4Addr
  prefixLen : ℕ
  range : 1 ≤ prefixLen ∧ prefixLen ≤ 30
  aligned : base.val % 2 ^ (32 - prefixLen) = 0

variable {net : Subnet}

namespace Subnet

def size (net : Subnet) : ℕ := 2 ^ (32 - net.prefixLen)

def Contains (net : Subnet) (a : Ipv4Addr) : Prop := a.val / net.size = net.base.val / net.size

/-- Addresses for guests: not the network's own, the gateway's or the broadcast address. -/
structure Guest (net : Subnet) (a : Ipv4Addr) : Prop where
  inside : net.Contains a
  not_network : a.val ≠ net.base.val
  not_gateway : a.val ≠ net.base.val + 1
  not_broadcast : a.val ≠ net.base.val + net.size - 1

lemma four_le_size (net : Subnet) : 4 ≤ net.size := by
  have h : 2 ≤ 32 - net.prefixLen := by
    have := net.range
    omega
  exact (Nat.pow_le_pow_right (by norm_num) h : 2 ^ 2 ≤ net.size)

lemma base_add_size (net : Subnet) : net.base.val + net.size ≤ 2 ^ 32 := by
  have hsize : 2 ^ net.prefixLen * net.size = 2 ^ 32 := by
    have := net.range
    rw [size, ← pow_add]
    congr 1
    omega
  obtain ⟨k, hk⟩ := dvd_of_mod_eq_zero net.aligned
  have hk : net.base.val = net.size * k := hk
  have hlt : k < 2 ^ net.prefixLen := by
    refine lt_of_mul_lt_mul_left (a := net.size) ?_ (Nat.zero_le _)
    rw [← hk, mul_comm, hsize]
    exact net.base.isLt
  calc net.base.val + net.size = net.size * (k + 1) := by rw [hk]; ring
    _ ≤ net.size * 2 ^ net.prefixLen := Nat.mul_le_mul_left _ hlt
    _ = 2 ^ 32 := by rw [mul_comm, hsize]

lemma contains_iff {a : Ipv4Addr} :
    net.Contains a ↔ net.base.val ≤ a.val ∧ a.val < net.base.val + net.size := by
  obtain ⟨k, hk⟩ := dvd_of_mod_eq_zero net.aligned
  have hk : net.base.val = net.size * k := hk
  have hpos : 0 < net.size := lt_of_lt_of_le (by norm_num) net.four_le_size
  rw [Contains, hk, Nat.mul_div_cancel_left _ hpos, Nat.div_eq_iff hpos, mul_comm]
  omega

lemma guest_iff {a : Ipv4Addr} :
    net.Guest a ↔ net.base.val + 2 ≤ a.val ∧ a.val + 1 < net.base.val + net.size := by
  have hsize := net.four_le_size
  constructor
  · rintro ⟨hinside, hnetwork, hgateway, hbroadcast⟩
    rw [contains_iff] at hinside
    omega
  · intro h
    refine ⟨contains_iff.mpr ?_, ?_, ?_, ?_⟩ <;> omega

lemma guests_ncard (net : Subnet) : {a | net.Guest a}.ncard = net.size - 3 := by
  have hend := net.base_add_size
  have hsize := net.four_le_size
  have himage : Set.image Fin.val {a | net.Guest a} =
      Set.Ico (net.base.val + 2) (net.base.val + net.size - 1) := by
    ext n
    simp only [Set.mem_image, Set.mem_ofPred_eq, guest_iff, Set.mem_Ico]
    constructor
    · rintro ⟨a, ha, rfl⟩
      omega
    · intro hn
      exact ⟨⟨n, by omega⟩, by simp only; omega, rfl⟩
  rw [← Set.ncard_image_of_injective _ Fin.val_injective, himage, ← Finset.coe_Ico,
    Set.ncard_coe_finset, card_Ico]
  omega

end Subnet

inductive NetError where
  | poolExhausted
  | notAllocated (ip : Ipv4Addr)
  | commandFailed (cmd message : String)
  | io (message : String)
  | invalidInterfaceName (name reason : String)
  deriving DecidableEq

/-! ## The configured subnet -/

structure Parsers where
  ipv4 : String → Option Ipv4Addr
  u8 : String → Option UInt8

def splitOnce (c : Char) (s : String) : Option (String × String) :=
  match s.toList.span (· ≠ c) with
  | (_, []) => none
  | (before, _ :: after) => some (String.ofList before, String.ofList after)

/-- `base & !mask`. -/
def clearBits (base mask : U32) : U32 :=
  ⟨base.val &&& (2 ^ 32 - 1 - mask.val), Nat.and_le_left.trans_lt base.isLt⟩

/-- An address and a prefix length, or an error; no value at all where the arithmetic overflows. -/
def parseCidr (std : Parsers) (cidr : String) : Option (Except String (Ipv4Addr × UInt8)) :=
  match splitOnce '/' cidr with
  | none => some (.error "invalid CIDR: missing '/'")
  | some (baseStr, prefixStr) =>
    match std.ipv4 baseStr with
    | none => some (.error "invalid CIDR base address")
    | some base =>
      match std.u8 prefixStr with
      | none => some (.error "invalid CIDR prefix length")
      | some len =>
        if ¬(1 ≤ len.toNat ∧ len.toNat ≤ 30) then
          some (.error s!"prefix length must be 1..=30 (got {len})")
        else do
          let bit ← shlU32 1 (32 - len.toNat)
          let hostMask ← subU32 bit 1
          if base.val &&& hostMask.val = 0 then some (.ok (base, len))
          else
            let text := Ipv4Addr.toText base
            let meant := Ipv4Addr.toText (clearBits base hostMask)
            some (.error
              s!"base address {text} is not network-aligned for /{len} (did you mean {meant}/{len}?)")

/-- `parseCidr` never overflows, and accepts the text of exactly the subnets. -/
theorem parseCidr_exact (std : Parsers) (cidr : String) : (parseCidr std cidr).isSome ∧
    ∀ base len, parseCidr std cidr = some (.ok (base, len)) ↔ ∃ b l, splitOnce '/' cidr = some (b, l) ∧
      std.ipv4 b = some base ∧ std.u8 l = some len ∧
      ∃ net : Subnet, net.base = base ∧ net.prefixLen = len.toNat := by
  unfold parseCidr
  split
  · simp [*]
  split
  · simp [*]
  split
  · simp [*]
  rename_i b l hsplit _ base hbase _ len hlen
  have hnet : (∃ net : Subnet, net.base = base ∧ net.prefixLen = len.toNat) ↔
      (1 ≤ len.toNat ∧ len.toNat ≤ 30) ∧ base.val % 2 ^ (32 - len.toNat) = 0 := by
    constructor
    · rintro ⟨net, rfl, hlen⟩
      exact hlen ▸ ⟨net.range, net.aligned⟩
    · exact fun ⟨hrange, haligned⟩ => ⟨⟨base, len.toNat, hrange, haligned⟩, rfl, rfl⟩
  by_cases hrange : 1 ≤ len.toNat ∧ len.toNat ≤ 30
  · have hlt : 2 ^ (32 - len.toNat) < 2 ^ 32 := Nat.pow_lt_pow_right (by norm_num) (by omega)
    have hbit : shlU32 1 (32 - len.toNat) = some ⟨_, hlt⟩ := (shlU32_one (by omega)).mpr rfl
    have hmask : subU32 ⟨_, hlt⟩ 1 = some ⟨2 ^ (32 - len.toNat) - 1, by omega⟩ :=
      subU32_eq_some.mpr (Nat.sub_add_cancel (Nat.two_pow_pos _))
    have hand := and_two_pow_sub_one_eq_mod base.val (32 - len.toNat)
    rw [if_neg (not_not.mpr hrange), hbit, bind_eq_bind, bind_some, hmask, bind_some, hand]
    split_ifs <;> grind
  · rw [if_pos hrange]
    grind

end Husker.Net
