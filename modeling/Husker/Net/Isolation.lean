import Husker.Net.Egress

/-! # Guest isolation

A daemon may keep its guests from private networks and from the host.  The rules are tried in
order, the first one that matches decides, and what a per-TAP policy admitted carries a mark.
-/
namespace Husker.Net
open List Option

/-! ## Private addresses -/

def Ipv4Addr.octets (ip : Ipv4Addr) : ℕ × ℕ × ℕ × ℕ :=
  (ip.val / 2 ^ 24, ip.val / 2 ^ 16 % 2 ^ 8, ip.val / 2 ^ 8 % 2 ^ 8, ip.val % 2 ^ 8)

/-- The standard library's `is_private`. -/
def Ipv4Addr.isPrivate (ip : Ipv4Addr) : Bool :=
  let (a, b, _) := ip.octets
  a = 10 || (a = 172 && 16 ≤ b && b ≤ 31) || (a = 192 && b = 168)

def isPrivateV4 (ip : Ipv4Addr) : Bool :=
  let (a, b, _) := ip.octets
  ip.isPrivate || (a = 100 && 64 ≤ b && b ≤ 127)

/-- A range written as an address and the length of the part that counts. -/
structure Range where
  base : Ipv4Addr
  len : ℕ
  deriving DecidableEq

def Range.contains (r : Range) (ip : Ipv4Addr) : Bool :=
  ip.val / 2 ^ (32 - r.len) = r.base.val / 2 ^ (32 - r.len)

def Ipv4Addr.ofOctets (a b c d : Fin 256) : Ipv4Addr :=
  ⟨a * 2 ^ 24 + b * 2 ^ 16 + c * 2 ^ 8 + d, by omega⟩

def privateDestRanges : List Range := [⟨.ofOctets 10 0 0 0, 8⟩, ⟨.ofOctets 172 16 0 0, 12⟩,
  ⟨.ofOctets 192 168 0 0, 16⟩, ⟨.ofOctets 100 64 0 0, 10⟩]

lemma isPrivateV4_iff (ip : Ipv4Addr) :
    isPrivateV4 ip = true ↔ ∃ r ∈ privateDestRanges, r.contains ip = true := by
  have hlt := ip.isLt
  simp only [privateDestRanges, mem_cons, not_mem_nil, or_false, exists_eq_or_imp,
    exists_eq_left, Range.contains, Ipv4Addr.ofOctets, isPrivateV4, Ipv4Addr.isPrivate,
    Ipv4Addr.octets, decide_eq_true_eq, Bool.or_eq_true, Bool.and_eq_true]
  norm_num
  omega

/-! ## Rules -/

def egressPolicyMark : BitVec 32 := 0x80000000#32

def egressPolicyMarkClearMask : BitVec 32 := 0x7fffffff#32

/-- The terms a rule of the isolation chains is made of; the last one is a statement. -/
inductive FilterTerm where
  | iifname (bridge : String)
  | ctEstablishedRelated
  | marked
  | daddr (ip : Ipv4Addr)
  | daddrIn (ranges : List Range)
  | dport (protocol : EgressProtocol) (port : UInt16)
  | clearMark

structure FilterRule where
  terms : List FilterTerm
  verdict : Verdict
  comment : String

def Range.toText (r : Range) : String := r.base.toText ++ "/" ++ toString r.len

def FilterTerm.words : FilterTerm → List String
  | .iifname bridge => ["iifname", bridge]
  | .ctEstablishedRelated => ["ct", "state", "established,related"]
  | .marked => ["meta", "mark", "&", "0x80000000", "!=", "0"]
  | .daddr ip => ["ip", "daddr", ip.toText]
  | .daddrIn ranges =>
    ["ip", "daddr", "\x7b " ++ ", ".intercalate (ranges.map Range.toText) ++ " \x7d"]
  | .dport protocol port => [protocol.nftName, "dport", toString port.toNat]
  | .clearMark => ["meta", "mark", "set", "meta", "mark", "&", "0x7fffffff"]

def Verdict.word : Verdict → String
  | .accept => "accept"
  | .drop => "drop"

/-- The argument vector for `nft add rule`. -/
def FilterRule.words (r : FilterRule) : List String :=
  r.terms.flatMap FilterTerm.words ++ [r.verdict.word, "comment", "\"" ++ r.comment ++ "\""]

structure IsolationPolicy where
  resolvers : List Ipv4Addr

def dnsCarveoutRules (bridge : String) (policy : IsolationPolicy) : List FilterRule :=
  (policy.resolvers.filter isPrivateV4).flatMap fun r => [EgressProtocol.udp, .tcp].map fun proto =>
    ⟨[.iifname bridge, .daddr r, .dport proto 53], .accept, "husker:isolation-dns"⟩

def egressPolicyCarveoutRule (bridge : String) : FilterRule :=
  ⟨[.iifname bridge, .marked, .clearMark], .accept, "husker:isolation-explicit-egress"⟩

def isolationForwardRules (bridge : String) (policy : IsolationPolicy) : List FilterRule :=
  [⟨[.iifname bridge, .ctEstablishedRelated], .accept, "husker:isolation-est"⟩,
    egressPolicyCarveoutRule bridge] ++ dnsCarveoutRules bridge policy ++
    [⟨[.iifname bridge, .daddrIn privateDestRanges], .drop, "husker:isolation-deny-private"⟩]

def isolationInputRules (bridge : String) (policy : IsolationPolicy) : List FilterRule :=
  egressPolicyCarveoutRule bridge :: dnsCarveoutRules bridge policy ++
    [⟨[.iifname bridge], .drop, "husker:isolation-host-guard"⟩]

/-- The broad accept that `init_nat` adds behind the rules of the forward chain. -/
def bridgeForwardOut (bridge : String) : FilterRule :=
  ⟨[.iifname bridge], .accept, "husker:bridge-fwd-out"⟩

/-! ## What the kernel does with a packet -/

inductive CtState where
  | new | established | related | invalid | untracked
  deriving DecidableEq

structure IpPacket where
  iifname : String
  ctState : CtState
  destination : Ipv4Addr
  transport : Option (EgressProtocol × UInt16)
  mark : BitVec 32
  deriving DecidableEq

def FilterTerm.run (p : IpPacket) : FilterTerm → Option IpPacket
  | .iifname bridge => if p.iifname = bridge then some p else none
  | .ctEstablishedRelated => if p.ctState = .established ∨ p.ctState = .related then some p else none
  | .marked => if p.mark &&& egressPolicyMark ≠ 0 then some p else none
  | .daddr ip => if p.destination = ip then some p else none
  | .daddrIn ranges => if ranges.any (·.contains p.destination) then some p else none
  | .dport protocol port => if p.transport = some (protocol, port) then some p else none
  | .clearMark => some { p with mark := p.mark &&& egressPolicyMarkClearMask }

def FilterRule.run (r : FilterRule) (p : IpPacket) : Option IpPacket :=
  r.terms.foldlM FilterTerm.run p

/-- The first rule that matches decides; a chain accepts by default. -/
def evaluate : List FilterRule → IpPacket → Verdict × IpPacket
  | [], p => (.accept, p)
  | r :: rules, p =>
    match r.run p with
    | some p' => (r.verdict, p')
    | none => evaluate rules p

/-! ## Which packets pass -/

variable {bridge : String} {policy : IsolationPolicy} {p : IpPacket} {rules rest : List FilterRule}

def IpPacket.Marked (p : IpPacket) : Prop := p.mark &&& egressPolicyMark ≠ 0

def IpPacket.ToResolver (p : IpPacket) (resolvers : List Ipv4Addr) : Prop :=
  p.destination ∈ resolvers ∧ ∃ protocol, p.transport = some (protocol, 53)

lemma evaluate_accepting (h : ∀ r ∈ rules, r.verdict = .accept ∧ ∀ p', r.run p = some p' → p' = p) :
    evaluate (rules ++ rest) p =
      open Classical in if ∃ r ∈ rules, r.run p = some p then (.accept, p) else evaluate rest p := by
  induction rules with
  | nil => simp
  | cons r rules ih =>
  obtain ⟨hverdict, hsame⟩ := h r (.head _)
  have ih := ih fun r hr => h r (.tail _ hr)
  rw [cons_append, evaluate]
  cases hrun : r.run p with
  | some p' =>
    cases hsame p' hrun
    simp [hrun, hverdict]
  | none => simp [hrun, ih]

lemma mem_dnsCarveoutRules {r : FilterRule} : r ∈ dnsCarveoutRules bridge policy ↔
    ∃ ip ∈ policy.resolvers.filter isPrivateV4, ∃ protocol : EgressProtocol,
      r = ⟨[.iifname bridge, .daddr ip, .dport protocol 53], .accept, "husker:isolation-dns"⟩ := by
  simp only [dnsCarveoutRules, mem_flatMap, List.mem_map]
  constructor
  · rintro ⟨ip, hip, protocol, -, rfl⟩
    exact ⟨ip, hip, protocol, rfl⟩
  · rintro ⟨ip, hip, protocol, rfl⟩
    exact ⟨ip, hip, protocol, by cases protocol <;> simp, rfl⟩

lemma run_dns (hif : p.iifname = bridge) {ip : Ipv4Addr} {protocol : EgressProtocol}
    {comment : String} {p' : IpPacket} :
    FilterRule.run ⟨[.iifname bridge, .daddr ip, .dport protocol 53], .accept, comment⟩ p = some p' ↔
      p' = p ∧ p.destination = ip ∧ p.transport = some (protocol, 53) := by
  simp only [FilterRule.run, foldlM_cons, foldlM_nil, FilterTerm.run, hif, if_true,
    bind_eq_bind, bind_some, bind_eq_some_iff, ite_none_right_eq_some]
  constructor
  · rintro ⟨q, ⟨hip, hq⟩, q', ⟨hport, hq'⟩, hp'⟩
    cases hq
    cases hq'
    cases hp'
    exact ⟨rfl, hip, hport⟩
  · rintro ⟨rfl, hip, hport⟩
    exact ⟨_, ⟨hip, rfl⟩, _, ⟨hport, rfl⟩, rfl⟩

lemma evaluate_dns (hif : p.iifname = bridge) :
    evaluate (dnsCarveoutRules bridge policy ++ rest) p =
      open Classical in if p.ToResolver (policy.resolvers.filter isPrivateV4) then (.accept, p)
      else evaluate rest p := by
  rw [evaluate_accepting]
  · congr 1
    simp only [mem_dnsCarveoutRules, IpPacket.ToResolver]
    rw [eq_iff_iff]
    constructor
    · rintro ⟨r, ⟨ip, hip, protocol, rfl⟩, hrun⟩
      obtain ⟨-, rfl, hport⟩ := (run_dns hif).mp hrun
      exact ⟨hip, protocol, hport⟩
    · rintro ⟨hip, protocol, hport⟩
      exact ⟨_, ⟨_, hip, protocol, rfl⟩, (run_dns hif).mpr ⟨rfl, rfl, hport⟩⟩
  · intro r hr
    obtain ⟨ip, -, protocol, rfl⟩ := mem_dnsCarveoutRules.mp hr
    exact ⟨rfl, fun p' hrun => ((run_dns hif).mp hrun).1⟩

lemma evaluate_carveout (hif : p.iifname = bridge) :
    evaluate (egressPolicyCarveoutRule bridge :: rest) p =
      open Classical in if p.Marked then
        (.accept, { p with mark := p.mark &&& egressPolicyMarkClearMask })
      else evaluate rest p := by
  by_cases hmark : p.Marked
  · have hbits : ¬p.mark &&& egressPolicyMark = 0#32 := hmark
    simp [evaluate, egressPolicyCarveoutRule, FilterRule.run, FilterTerm.run, hif, hmark, hbits]
  · have hbits : p.mark &&& egressPolicyMark = 0 := not_not.mp hmark
    simp [evaluate, egressPolicyCarveoutRule, FilterRule.run, FilterTerm.run, hif, hmark, hbits]

lemma clearMask_getLsbD (i : ℕ) : egressPolicyMarkClearMask.getLsbD i = decide (i < 31) := by
  have hlow : ∀ i : Fin 32, egressPolicyMarkClearMask.getLsbD i = decide (i.val < 31) := by decide
  by_cases hi : i < 32
  · exact hlow ⟨i, hi⟩
  · rw [BitVec.getLsbD_of_ge _ _ (not_lt.mp hi)]
    exact (decide_eq_false (by omega)).symm

lemma evaluate_forward (hif : p.iifname = bridge)
    (hnew : p.ctState ≠ .established ∧ p.ctState ≠ .related) :
    evaluate (isolationForwardRules bridge policy ++ [bridgeForwardOut bridge]) p =
      open Classical in if p.Marked then
        (.accept, { p with mark := p.mark &&& egressPolicyMarkClearMask })
      else if p.ToResolver (policy.resolvers.filter isPrivateV4) then (.accept, p)
      else (if isPrivateV4 p.destination then .drop else .accept, p) := by
  have hest : FilterRule.run ⟨[.iifname bridge, .ctEstablishedRelated], .accept,
      "husker:isolation-est"⟩ p = none := by
    simp [FilterRule.run, FilterTerm.run, hif, hnew]
  have hlast : evaluate [⟨[.iifname bridge, .daddrIn privateDestRanges], .drop,
      "husker:isolation-deny-private"⟩, bridgeForwardOut bridge] p =
      (if isPrivateV4 p.destination then .drop else .accept, p) := by
    cases hprivate : isPrivateV4 p.destination <;>
      simp [evaluate, FilterRule.run, FilterTerm.run, bridgeForwardOut, hif, ← isPrivateV4_iff,
        hprivate]
  rw [isolationForwardRules, append_assoc, append_assoc]
  simp only [cons_append, nil_append]
  rw [evaluate, hest]
  simp only
  rw [evaluate_carveout hif, evaluate_dns hif, hlast]

lemma evaluate_input (hif : p.iifname = bridge) : evaluate (isolationInputRules bridge policy) p =
      open Classical in if p.Marked then
        (.accept, { p with mark := p.mark &&& egressPolicyMarkClearMask })
      else if p.ToResolver (policy.resolvers.filter isPrivateV4) then (.accept, p)
      else (.drop, p) := by
  have hlast : evaluate [⟨[.iifname bridge], .drop, "husker:isolation-host-guard"⟩] p = (.drop, p) := by
    simp [evaluate, FilterRule.run, FilterTerm.run, hif]
  rw [isolationInputRules, cons_append, evaluate_carveout hif, evaluate_dns hif, hlast]

def Unmarks (p q : IpPacket) : Prop :=
  q.mark.getLsbD 31 = false ∧ ∀ i, i ≠ 31 → q.mark.getLsbD i = p.mark.getLsbD i

lemma unmarks_clear (p : IpPacket) :
    Unmarks p { p with mark := p.mark &&& egressPolicyMarkClearMask } := by
  constructor
  · change (p.mark &&& egressPolicyMarkClearMask).getLsbD 31 = false
    rw [BitVec.getLsbD_and, clearMask_getLsbD, decide_eq_false (lt_irrefl _), Bool.and_false]
  intro i hi
  simp only [BitVec.getLsbD_and, clearMask_getLsbD]
  by_cases hlow : i < 31
  · simp [hlow]
  · rw [BitVec.getLsbD_of_ge p.mark i (by omega)]
    rfl

/-- A new packet of a guest is forwarded exactly if it does not go to a private range, or it carries
the mark, or it is a question to a configured resolver.  It reaches the host exactly if it carries
the mark or is a question to a private resolver.  A mark does not leave either chain. -/
theorem isolation_filters_new_packets (bridge : String) (policy : IsolationPolicy) (p : IpPacket)
    (hif : p.iifname = bridge) (hnew : p.ctState ≠ .established ∧ p.ctState ≠ .related) :
    ((evaluate (isolationForwardRules bridge policy ++ [bridgeForwardOut bridge]) p).1 = .accept ↔
      (∀ r ∈ privateDestRanges, r.contains p.destination = false) ∨ p.Marked ∨
        p.ToResolver policy.resolvers) ∧
    ((evaluate (isolationInputRules bridge policy) p).1 = .accept ↔
      p.Marked ∨ p.ToResolver (policy.resolvers.filter isPrivateV4)) ∧
    (p.Marked →
      Unmarks p (evaluate (isolationForwardRules bridge policy ++ [bridgeForwardOut bridge]) p).2 ∧
      Unmarks p (evaluate (isolationInputRules bridge policy) p).2) ∧
    (∀ ip, isPrivateV4 ip = true ↔ ∃ r ∈ privateDestRanges, r.contains ip = true) := by
  have hprivate : isPrivateV4 p.destination = false ↔
      ∀ r ∈ privateDestRanges, r.contains p.destination = false := by
    rw [← Bool.not_eq_true, isPrivateV4_iff]
    simp
  refine ⟨?_, ?_, fun hmark => ?_, isPrivateV4_iff⟩
  · rw [evaluate_forward hif hnew, ← hprivate]
    by_cases hmark : p.Marked
    · simp [hmark]
    by_cases hdns : p.ToResolver (policy.resolvers.filter isPrivateV4)
    · have hresolver : p.ToResolver policy.resolvers := ⟨mem_of_mem_filter hdns.1, hdns.2⟩
      simp [hmark, hdns, hresolver]
    cases hdest : isPrivateV4 p.destination with
    | false => simp [hmark, hdns]
    | true =>
      have hresolver : ¬p.ToResolver policy.resolvers := fun h =>
        hdns ⟨mem_filter.mpr ⟨h.1, hdest⟩, h.2⟩
      simp [hmark, hdns, hresolver]
  · rw [evaluate_input hif]
    by_cases hmark : p.Marked
    · simp [hmark]
    by_cases hdns : p.ToResolver (policy.resolvers.filter isPrivateV4)
    · simp [hmark, hdns]
    · simp [hmark, hdns]
  · rw [evaluate_forward hif hnew, evaluate_input hif, if_pos hmark, if_pos hmark]
    exact ⟨unmarks_clear p, unmarks_clear p⟩

/-- The rule that denies private destinations, as it is handed to `nft`. -/
example : FilterRule.words ⟨[.iifname "husker0", .daddrIn privateDestRanges], .drop,
    "husker:isolation-deny-private"⟩ = ["iifname", "husker0", "ip", "daddr",
      "\x7b 10.0.0.0/8, 172.16.0.0/12, 192.168.0.0/16, 100.64.0.0/10 \x7d", "drop", "comment",
      "\"husker:isolation-deny-private\""] := by
  decide +kernel

/-- A packet to a resolver in the local network, and one to its neighbour. -/
def dnsPacket (last : Fin 256) : IpPacket :=
  ⟨"husker0", .new, .ofOctets 192 168 1 last, some (.udp, 53), 5⟩

theorem local_resolver_reached :
    (evaluate (isolationForwardRules "husker0" ⟨[.ofOctets 192 168 1 1]⟩ ++
      [bridgeForwardOut "husker0"]) (dnsPacket 1)).1 = .accept ∧
    (evaluate (isolationForwardRules "husker0" ⟨[.ofOctets 192 168 1 1]⟩ ++
      [bridgeForwardOut "husker0"]) (dnsPacket 2)).1 ≠ .accept := by
  have hiff (last : Fin 256) := (isolation_filters_new_packets "husker0"
    ⟨[.ofOctets 192 168 1 1]⟩ (dnsPacket last) rfl (by simp [dnsPacket])).1
  constructor
  · exact (hiff 1).mpr (.inr (.inr ⟨by decide, .udp, rfl⟩))
  · intro h
    rcases (hiff 2).mp h with hpublic | hmark | hresolver
    · exact absurd (hpublic ⟨.ofOctets 192 168 0 0, 16⟩ (by decide)) (by decide)
    · exact absurd hmark (by simp [IpPacket.Marked, dnsPacket, egressPolicyMark])
    · exact absurd hresolver.1 (by decide)

end Husker.Net
