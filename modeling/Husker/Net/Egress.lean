import Husker.Net.Nft
import Husker.Relational.Machine

/-! # Per-TAP egress policies

One bridge table holds the rules of all TAPs, interleaved.  A policy's allow rules are inserted
in front of everything and its default deny is added behind everything, and both are found again
by the comment that names the TAP.
-/
namespace Husker.Net
open Relational List Option Function

inductive EgressProtocol where
  | tcp | udp
  deriving DecidableEq

def EgressProtocol.nftName : EgressProtocol → String
  | .tcp => "tcp"
  | .udp => "udp"

def EgressProtocol.debug : EgressProtocol → String
  | .tcp => "Tcp"
  | .udp => "Udp"

structure EgressRule where
  destination : Ipv4Addr
  protocol : EgressProtocol
  port : UInt16
  deriving DecidableEq

/-! ## Rules and what they match -/

inductive Term where
  | iifname (tap : String)
  | etherTypeArp
  | etherTypeIp
  | arpRequest
  | arpDaddrIp (ip : Ipv4Addr)
  | ipDaddr (ip : Ipv4Addr)
  | dport (protocol : EgressProtocol) (port : UInt16)
  | setMark

inductive Verdict where
  | accept | drop

structure BridgeRule where
  terms : List Term
  verdict : Verdict

def Term.words : Term → List String
  | .iifname tap => ["iifname", tap]
  | .etherTypeArp => ["ether", "type", "arp"]
  | .etherTypeIp => ["ether", "type", "ip"]
  | .arpRequest => ["arp", "operation", "request"]
  | .arpDaddrIp ip => ["arp", "daddr", "ip", Ipv4Addr.toText ip]
  | .ipDaddr ip => ["ip", "daddr", Ipv4Addr.toText ip]
  | .dport protocol port => [protocol.nftName, "dport", toString port.toNat]
  | .setMark => ["meta", "mark", "set", "meta", "mark", "|", "0x80000000"]

inductive Packet where
  | arp (request : Bool) (target : Ipv4Addr)
  | ipv4 (destination : Ipv4Addr) (transport : Option (EgressProtocol × UInt16))
  | other

structure Frame where
  /-- The interface it came in by, as the kernel knows it. -/
  iifname : String
  packet : Packet

def Term.hits (f : Frame) : Term → Bool
  | .iifname tap => f.iifname = tap
  | .etherTypeArp => match f.packet with
    | .arp _ _ => true
    | _ => false
  | .etherTypeIp => match f.packet with
    | .ipv4 _ _ => true
    | _ => false
  | .arpRequest => match f.packet with
    | .arp request _ => request
    | _ => false
  | .arpDaddrIp ip => match f.packet with
    | .arp _ target => target = ip
    | _ => false
  | .ipDaddr ip => match f.packet with
    | .ipv4 destination _ => destination = ip
    | _ => false
  | .dport protocol port => match f.packet with
    | .ipv4 _ (some transport) => transport = (protocol, port)
    | _ => false
  | .setMark => true

def BridgeRule.hits (r : BridgeRule) (f : Frame) : Bool := r.terms.all (Term.hits f)

/-- The first rule of a chain that matches decides; a chain accepts by default. -/
def verdict (t : NftTable BridgeRule) (chain : String) (f : Frame) : Verdict :=
  match t.rules.find? fun r => r.chain = chain && r.body.hits f with
  | some r => r.body.verdict
  | none => .accept

/-! ## Policies -/

/-- The arguments of one `apply_egress_policy`. -/
structure Policy where
  gateway : Ipv4Addr
  resolvers : List Ipv4Addr
  rules : List EgressRule
  deriving DecidableEq

def egressCommentPrefix (tap : String) : String := "husker-egress:" ++ tap ++ ":"

def allowRules (tap : String) (p : Policy) : List (BridgeRule × String) :=
  (⟨[.iifname tap, .etherTypeArp, .arpRequest, .arpDaddrIp p.gateway], .accept⟩,
      egressCommentPrefix tap ++ "arp-gateway") ::
    p.resolvers.flatMap (fun resolver => [EgressProtocol.udp, .tcp].map fun protocol =>
      (⟨[.iifname tap, .etherTypeIp, .ipDaddr resolver, .dport protocol 53], .accept⟩,
        egressCommentPrefix tap ++ ("dns-" ++ Ipv4Addr.toText resolver ++ "-" ++ protocol.debug))) ++
    p.rules.zipIdx.map fun (rule, index) =>
      (⟨[.iifname tap, .etherTypeIp, .ipDaddr rule.destination, .dport rule.protocol rule.port,
        .setMark], .accept⟩, egressCommentPrefix tap ++ ("allow-" ++ toString index))

def denyRule (tap : String) : BridgeRule × String :=
  (⟨[.iifname tap], .drop⟩, egressCommentPrefix tap ++ "default-deny")

def egressRulesForChain (tap : String) (p : Policy) : List (BridgeRule × String) :=
  allowRules tap p ++ [denyRule tap]

lemma egressRulesForChain_ne_nil (tap : String) (p : Policy) : egressRulesForChain tap p ≠ [] := by
  simp [egressRulesForChain]

def ifnamsizMax : ℕ := 15

def isAsciiAlphanumeric (c : Char) : Bool :=
  ('a' ≤ c && c ≤ 'z') || ('A' ≤ c && c ≤ 'Z') || ('0' ≤ c && c ≤ '9')

def validateInterfaceName (name : String) : Except NetError Unit :=
  if name.isEmpty then .error (.invalidInterfaceName name "name cannot be empty")
  else if ifnamsizMax < name.utf8ByteSize then
    .error (.invalidInterfaceName name s!"exceeds {ifnamsizMax} character limit")
  else if !name.toList.all (fun c => isAsciiAlphanumeric c || c = '_' || c = '-') then
    .error (.invalidInterfaceName name
      "contains invalid characters (only alphanumeric, underscore, hyphen allowed)")
  else .ok ()

inductive Command where
  | delete (chain : String) (handle : ℕ)
  | add (chain : String) (rule : BridgeRule × String)
  | insert (chain : String) (rule : BridgeRule × String)

def ruleIn (chain : String) (rule : BridgeRule × String) : NftRule BridgeRule :=
  ⟨chain, some rule.2, rule.1⟩

def Command.run (t : NftTable BridgeRule) : Command → NftTable BridgeRule
  | .delete _ handle => t.delete handle
  | .add chain rule => t.append (ruleIn chain rule)
  | .insert chain rule => t.prepend (ruleIn chain rule)

def hookChains : List String := ["input", "forward"]

def policyScript (existing : List (String × ℕ)) (allows : List (BridgeRule × String))
    (deny : BridgeRule × String) : List Command :=
  existing.map (fun (chain, handle) => .delete chain handle) ++
    hookChains.flatMap fun chain => .add chain deny :: allows.map (.insert chain)

abbrev Outcome := Except NetError Unit × NftTable BridgeRule

def applyEgressPolicy (nft : NftFates) (bridge tap : String) (p : Policy)
    (t : NftTable BridgeRule) : Outcome :=
  match validateInterfaceName tap with
  | .error e => (.error e, t)
  | .ok () =>
    match validateInterfaceName bridge with
    | .error e => (.error e, t)
    | .ok () =>
      match nft.list with
      | some e => (.error e, t)
      | none =>
        let existing := findRulesByCommentPrefix t (egressCommentPrefix tap)
        let policyRules := egressRulesForChain tap p
        let defaultDeny := policyRules.getLast (egressRulesForChain_ne_nil tap p)
        let script := policyScript existing policyRules.dropLast defaultDeny
        match nft.script with
        | some e => (.error e, t)
        | none => (.ok (), script.foldl Command.run t)

def removeEgressPolicy (nft : NftFates) (bridge tap : String) (t : NftTable BridgeRule) : Outcome :=
  match validateInterfaceName tap with
  | .error e => (.error e, t)
  | .ok () =>
    match validateInterfaceName bridge with
    | .error e => (.error e, t)
    | .ok () =>
      match nft.list with
      | some e => if isMissingNftTableError e then (.ok (), t) else (.error e, t)
      | none =>
        let rules := findRulesByCommentPrefix t (egressCommentPrefix tap)
        let (failures, t) := deleteRules nft (fun _ _ e => e.toText) rules t
        if failures = [] then (.ok (), t)
        else (.error (.commandFailed "nft delete bridge egress rules" ("; ".intercalate failures)), t)

/-! ## Calls -/

inductive EgressCall where
  | apply (tap : String) (p : Policy)
  | remove (tap : String)

def EgressCall.tap : EgressCall → String
  | .apply tap _ => tap
  | .remove tap => tap

def EgressCall.run (bridge : String) (nft : NftFates) (t : NftTable BridgeRule) : EgressCall → Outcome
  | .apply tap p => applyEgressPolicy nft bridge tap p t
  | .remove tap => removeEgressPolicy nft bridge tap t

/-- What the latest call for a TAP left: a failed application leaves what was there, a failed
removal nothing that could be relied on. -/
inductive Status where
  | removed
  | applied (p : Policy)
  | partly
  deriving DecidableEq

def Status.after (s : Status) (call : EgressCall) (result : Except NetError Unit) : Status :=
  match call, result with
  | .apply _ p, .ok () => .applied p
  | .apply _ _, .error _ => s
  | .remove _, .ok () => .removed
  | .remove _, .error _ => .partly

structure Bridge where
  table : NftTable BridgeRule
  status : String → Status

def Bridge.init : Bridge := ⟨.empty, fun _ => .removed⟩

def Bridge.call (bridge : String) (b : Bridge) (x : EgressCall × NftFates) : Bridge where
  table := (x.1.run bridge x.2 b.table).2
  status := Function.update b.status x.1.tap
    ((b.status x.1.tap).after x.1 (x.1.run bridge x.2 b.table).1)

def Bridge.calls (bridge : String) (xs : List (EgressCall × NftFates)) : Bridge :=
  xs.foldl (Bridge.call bridge) .init

/-- The table is there: a listing that fails does not fail for want of it. -/
def Present (nft : NftFates) : Prop := ∀ e, nft.list = some e → isMissingNftTableError e = false

/-! ## Whose rule it is -/

def owns (tap : String) (r : NftRule BridgeRule) : Bool :=
  r.comment.any fun comment => (egressCommentPrefix tap).toList.isPrefixOf comment.toList

structure RuleOf (tap : String) (r : NftRule BridgeRule) : Prop where
  tap_text : ':' ∉ tap.toList
  owned : owns tap r = true
  ingress : ∀ f, r.body.hits f = true → f.iifname = tap
  chain : r.chain ≠ ""

variable {tap tap' : String} {p : Policy} {t t' : NftTable BridgeRule} {f : Frame}
    {r : NftRule BridgeRule}

lemma owns_inj (htap : ':' ∉ tap.toList) (htap' : ':' ∉ tap'.toList)
    (h : owns tap r = true) (h' : owns tap' r = true) : tap' = tap := by
  obtain ⟨comment, hcomment, hpre⟩ := (Option.any_eq_true _ _).mp h
  obtain ⟨comment', hcomment', hpre'⟩ := (Option.any_eq_true _ _).mp h'
  obtain rfl : comment = comment' := some.inj (hcomment.symm.trans hcomment')
  obtain ⟨rest, hrest⟩ := isPrefixOf_iff_prefix.mp hpre
  obtain ⟨rest', hrest'⟩ := isPrefixOf_iff_prefix.mp hpre'
  rw [← hrest] at hrest'
  simp only [egressCommentPrefix, String.toList_append, append_assoc,
    append_cancel_left_eq] at hrest'
  exact String.toList_inj.mp (append_separator_inj htap' htap hrest').1

lemma not_owns_of_owns (htap : ':' ∉ tap.toList) (htap' : ':' ∉ tap'.toList)
    (hne : tap' ≠ tap) (h : owns tap' r = true) : owns tap r = false :=
  Bool.eq_false_iff.mpr fun howns => hne (owns_inj htap htap' howns h)

variable {chain bridge : String} {nft : NftFates} {b : Bridge} {x : EgressCall × NftFates}

lemma owns_comment {suffix : String} {body : BridgeRule} :
    owns tap ⟨chain, some (egressCommentPrefix tap ++ suffix), body⟩ = true := by
  simp only [owns, any_some, String.toList_append, isPrefixOf_iff_prefix]
  exact prefix_append _ _

lemma hits_iifname {terms : List Term} {verdict : Verdict}
    (h : BridgeRule.hits ⟨.iifname tap :: terms, verdict⟩ f = true) : f.iifname = tap := by
  simp only [BridgeRule.hits, all_cons, Bool.and_eq_true] at h
  exact of_decide_eq_true h.1

lemma ruleOf_deny (htap : ':' ∉ tap.toList) (hchain : chain ≠ "") :
    RuleOf tap (ruleIn chain (denyRule tap)) :=
  ⟨htap, owns_comment, fun _ h => hits_iifname h, hchain⟩

variable {rule : BridgeRule × String}

lemma ruleOf_allow (htap : ':' ∉ tap.toList) (hchain : chain ≠ "")
    (hrule : rule ∈ allowRules tap p) : RuleOf tap (ruleIn chain rule) := by
  simp only [allowRules, cons_append, mem_cons, mem_append, mem_flatMap, List.mem_map] at hrule
  rcases hrule with rfl | ⟨resolver, -, protocol, -, rfl⟩ | ⟨x, -, rfl⟩
  · exact ⟨htap, owns_comment, fun _ h => hits_iifname h, hchain⟩
  · exact ⟨htap, owns_comment, fun _ h => hits_iifname h, hchain⟩
  · exact ⟨htap, owns_comment, fun _ h => hits_iifname h, hchain⟩

/-! ## What the script leaves -/

lemma foldl_insert (chain : String) (allows : List (BridgeRule × String)) (t : NftTable BridgeRule) :
    ((allows.map (Command.insert chain)).foldl Command.run t).rules =
      (allows.map (ruleIn chain)).reverse ++ t.rules := by
  induction allows generalizing t with
  | nil => rfl
  | cons rule allows ih => simp [ih, Command.run]

lemma foldl_delete (existing : List (String × ℕ)) (t : NftTable BridgeRule) :
    (existing.map fun (chain, handle) => Command.delete chain handle).foldl Command.run t =
      (existing.map Prod.snd).foldl Ruleset.delete t := by
  induction existing generalizing t with
  | nil => rfl
  | cons x existing ih => exact ih _

def front (tap : String) (p : Policy) : List (NftRule BridgeRule) :=
  ((allowRules tap p).map (ruleIn "forward")).reverse ++ ((allowRules tap p).map (ruleIn "input")).reverse

def back (tap : String) : List (NftRule BridgeRule) :=
  [ruleIn "input" (denyRule tap), ruleIn "forward" (denyRule tap)]

lemma policyScript_rules (hrules : ∀ r ∈ t.rules, ∃ tap, RuleOf tap r) :
    ((policyScript (findRulesByCommentPrefix t (egressCommentPrefix tap)) (allowRules tap p)
      (denyRule tap)).foldl Command.run t).rules =
      front tap p ++ t.rules.filter (fun r => !owns tap r) ++ back tap := by
  have hkept : (((findRulesByCommentPrefix t (egressCommentPrefix tap)).map Prod.snd).foldl
      Ruleset.delete t).rules = t.rules.filter fun r => !owns tap r := by
    refine Ruleset.rules_foldl_delete fun e he => ?_
    rw [findRulesByCommentPrefix, mem_findRules he]
    obtain ⟨owner, howner⟩ := hrules e.rule (List.mem_map_of_mem he)
    exact and_iff_left howner.chain
  simp only [policyScript, hookChains, flatMap_cons, flatMap_nil, append_nil,
    foldl_append, foldl_cons, foldl_insert, foldl_delete, Command.run,
    Ruleset.rules_append, hkept, front, back, append_assoc, cons_append, nil_append]

lemma front_ruleOf (htap : ':' ∉ tap.toList) : ∀ r ∈ front tap p, RuleOf tap r := by
  intro r hr
  simp only [front, mem_append, mem_reverse, List.mem_map] at hr
  rcases hr with ⟨rule, hrule, rfl⟩ | ⟨rule, hrule, rfl⟩
  · exact ruleOf_allow htap (by simp) hrule
  · exact ruleOf_allow htap (by simp) hrule

lemma back_ruleOf (htap : ':' ∉ tap.toList) : ∀ r ∈ back tap, RuleOf tap r := by
  intro r hr
  simp only [back, mem_cons, not_mem_nil, or_false] at hr
  rcases hr with rfl | rfl
  · exact ruleOf_deny htap (by simp)
  · exact ruleOf_deny htap (by simp)

/-! ## One call -/

structure Replaced (tap : String) (t t' : NftTable BridgeRule) : Prop where
  rules : ∀ r ∈ t'.rules, r ∈ t.rules ∨ RuleOf tap r
  frame : ∀ tap', ':' ∉ tap'.toList → tap' ≠ tap →
    t'.rules.filter (owns tap') = t.rules.filter (owns tap')

lemma Replaced.refl (t : NftTable BridgeRule) : Replaced tap t t :=
  ⟨fun _ hr => .inl hr, fun _ _ _ => rfl⟩

lemma validate_tap_text (h : validateInterfaceName tap = .ok ()) : ':' ∉ tap.toList := by
  intro hmem
  simp only [validateInterfaceName] at h
  split_ifs at h with hempty hlong hall
  simp only [Bool.not_eq_true', Bool.not_eq_false, List.all_eq_true] at hall
  exact absurd (hall ':' hmem) (by decide)

variable {l : List (NftRule BridgeRule)}

lemma filter_owns_eq_nil (hl : ∀ r ∈ l, RuleOf tap r)
    (htap' : ':' ∉ tap'.toList) (hne : tap' ≠ tap) : l.filter (owns tap') = [] :=
  filter_eq_nil_iff.mpr fun r hr howns =>
    hne (owns_inj (hl r hr).tap_text htap' (hl r hr).owned howns)

lemma filter_owns_eq_self (hl : ∀ r ∈ l, RuleOf tap r) :
    l.filter (owns tap) = l := filter_eq_self.mpr fun r hr => (hl r hr).owned

/-- A policy that was applied: its rules surround what is left of the table. -/
lemma apply_ok (hrules : ∀ r ∈ t.rules, ∃ tap, RuleOf tap r)
    (h : (applyEgressPolicy nft bridge tap p t).1 = .ok ()) :
    ':' ∉ tap.toList ∧ (applyEgressPolicy nft bridge tap p t).2.rules =
      front tap p ++ t.rules.filter (fun r => !owns tap r) ++ back tap := by
  unfold applyEgressPolicy at h ⊢
  cases hvalid : validateInterfaceName tap with
  | error e => simp [hvalid] at h
  | ok _ =>
  simp only [hvalid] at h ⊢
  cases hbridge : validateInterfaceName bridge with
  | error e => simp [hbridge] at h
  | ok _ =>
  simp only [hbridge] at h ⊢
  cases hlist : nft.list with
  | some e => simp [hlist] at h
  | none =>
  simp only [hlist] at h ⊢
  cases hscript : nft.script with
  | some e => simp [hscript] at h
  | none =>
  refine ⟨validate_tap_text hvalid, ?_⟩
  have hlast : (egressRulesForChain tap p).dropLast = allowRules tap p ∧
      (egressRulesForChain tap p).getLast (egressRulesForChain_ne_nil tap p) =
        denyRule tap := by
    simp [egressRulesForChain]
  rw [hlast.1, hlast.2]
  exact policyScript_rules hrules

lemma apply_error {e : NetError} (h : (applyEgressPolicy nft bridge tap p t).1 = .error e) :
    (applyEgressPolicy nft bridge tap p t).2 = t := by
  unfold applyEgressPolicy at h ⊢
  split
  · rfl
  split
  · rfl
  · split
    · rfl
    · simp only
      split
      · rfl
      · simp_all

lemma apply_replaced (nft : NftFates) (bridge : String)
    (hrules : ∀ r ∈ t.rules, ∃ tap, RuleOf tap r) :
    Replaced tap t (applyEgressPolicy nft bridge tap p t).2 := by
  cases hresult : (applyEgressPolicy nft bridge tap p t).1 with
  | error e =>
    rw [apply_error hresult]
    exact .refl t
  | ok _ =>
  obtain ⟨htap, heq⟩ := apply_ok hrules hresult
  refine ⟨fun r hr => ?_, fun tap' htap' hne => ?_⟩
  · rw [heq, mem_append, mem_append] at hr
    rcases hr with (hr | hr) | hr
    · exact .inr (front_ruleOf htap r hr)
    · exact .inl (mem_of_mem_filter hr)
    · exact .inr (back_ruleOf htap r hr)
  rw [heq, filter_append, filter_append, List.filter_filter,
    filter_owns_eq_nil (front_ruleOf htap) htap' hne,
    filter_owns_eq_nil (back_ruleOf htap) htap' hne, nil_append, append_nil]
  refine filter_congr fun r _ => ?_
  by_cases howns : owns tap' r = true
  · simp [howns, not_owns_of_owns htap htap' hne howns]
  · simp [howns]

lemma remove_spec (tap : String) (nft : NftFates) (bridge : String) (hpresent : Present nft)
    (hrules : ∀ r ∈ t.rules, ∃ tap, RuleOf tap r) :
    Replaced tap t (removeEgressPolicy nft bridge tap t).2 ∧
    ((removeEgressPolicy nft bridge tap t).1 = .ok () → ':' ∉ tap.toList ∧
      (removeEgressPolicy nft bridge tap t).2.rules = t.rules.filter fun r => !owns tap r) := by
  unfold removeEgressPolicy
  cases hvalid : validateInterfaceName tap with
  | error e => exact ⟨.refl t, by simp⟩
  | ok _ =>
  cases hbridge : validateInterfaceName bridge with
  | error e => exact ⟨.refl t, by simp⟩
  | ok _ =>
  cases hlist : nft.list with
  | some e =>
    simp only [hpresent e hlist, Bool.false_eq_true, if_false]
    exact ⟨.refl t, by simp⟩
  | none =>
  have htap := validate_tap_text hvalid
  have hreplaced : Replaced tap t (deleteRules nft (fun _ _ e => e.toText)
      (findRulesByCommentPrefix t (egressCommentPrefix tap)) t).2 :=
    ⟨fun r hr => .inl (mem_of_deleteRules hr), fun tap' htap' hne =>
      deleteRules_frame nft _ fun r hr => not_owns_of_owns htap htap' hne hr⟩
  simp only
  split_ifs with hfailures
  · refine ⟨hreplaced, fun _ => ⟨htap, deleteRules_all (fun r hr => ?_) hfailures⟩⟩
    obtain ⟨owner, howner⟩ := hrules r hr
    exact howner.chain
  · exact ⟨hreplaced, by simp⟩

/-! ## All calls -/

def rulesOf (t : NftTable BridgeRule) (chain tap : String) : List (NftRule BridgeRule) :=
  (t.rules.filter (owns tap)).filter fun r => r.chain = chain

structure Enforced (b : Bridge) : Prop where
  rules : ∀ r ∈ b.table.rules, ∃ tap, RuleOf tap r
  applied : ∀ tap p, b.status tap = .applied p → ':' ∉ tap.toList ∧ ∀ chain ∈ hookChains,
    rulesOf b.table chain tap =
      ((allowRules tap p).map (ruleIn chain)).reverse ++ [ruleIn chain (denyRule tap)]
  removed : ∀ tap, ':' ∉ tap.toList → b.status tap = .removed → b.table.rules.filter (owns tap) = []

lemma Bridge.call_replaced (h : Enforced b) (bridge : String) (hpresent : Present x.2) :
    Replaced x.1.tap b.table (b.call bridge x).table := by
  obtain ⟨call, nft⟩ := x
  cases call with
  | apply tap p => exact apply_replaced nft bridge h.rules
  | remove tap => exact (remove_spec tap nft bridge hpresent h.rules).1

lemma rulesOf_apply (hrules : ∀ r ∈ t.rules, ∃ tap, RuleOf tap r)
    (h : (applyEgressPolicy nft bridge tap p t).1 = .ok ()) (hchain : chain ∈ hookChains) :
    rulesOf (applyEgressPolicy nft bridge tap p t).2 chain tap =
      ((allowRules tap p).map (ruleIn chain)).reverse ++ [ruleIn chain (denyRule tap)] := by
  obtain ⟨htap, heq⟩ := apply_ok hrules h
  have howned : (applyEgressPolicy nft bridge tap p t).2.rules.filter (owns tap) =
      front tap p ++ back tap := by
    have hkept : (t.rules.filter fun r => !owns tap r).filter (owns tap) = [] := by
      rw [List.filter_filter, filter_eq_nil_iff]
      simp
    rw [heq, filter_append, filter_append, hkept, append_nil,
      filter_owns_eq_self (front_ruleOf htap), filter_owns_eq_self (back_ruleOf htap)]
  have hin (c : String) (l : List (BridgeRule × String)) :
      (l.map (ruleIn c)).filter (fun r => r.chain = chain) =
        if c = chain then l.map (ruleIn c) else [] := by
    split_ifs with hc
    · refine filter_eq_self.mpr fun r hr => ?_
      obtain ⟨rule, -, rfl⟩ := List.mem_map.mp hr
      exact decide_eq_true hc
    · refine filter_eq_nil_iff.mpr fun r hr hrc => hc ?_
      obtain ⟨rule, -, rfl⟩ := List.mem_map.mp hr
      exact of_decide_eq_true hrc
  rw [rulesOf, howned, front]
  simp only [hookChains, mem_cons, not_mem_nil, or_false] at hchain
  rcases hchain with rfl | rfl
  · simp [filter_append, filter_reverse, hin, back, ruleIn]
  · simp [filter_append, filter_reverse, hin, back, ruleIn]

lemma call_own_tap (h : Enforced b) (bridge : String) (hpresent : Present x.2) :
    (∀ p, (b.call bridge x).status x.1.tap = .applied p → ':' ∉ x.1.tap.toList ∧
      ∀ chain ∈ hookChains, rulesOf (b.call bridge x).table chain x.1.tap =
        ((allowRules x.1.tap p).map (ruleIn chain)).reverse ++ [ruleIn chain (denyRule x.1.tap)]) ∧
    (':' ∉ x.1.tap.toList → (b.call bridge x).status x.1.tap = .removed →
      (b.call bridge x).table.rules.filter (owns x.1.tap) = []) := by
  obtain ⟨call, nft⟩ := x
  rw [show (b.call bridge (call, nft)).status call.tap = (b.status call.tap).after call
    (call.run bridge nft b.table).1 from update_self _ _ _]
  cases call with
  | apply tap p =>
    cases hresult : (applyEgressPolicy nft bridge tap p b.table).1 with
    | error e =>
      -- the table and what is known of the TAP stay as they were
      simp only [EgressCall.run, Bridge.call, hresult, apply_error hresult, Status.after]
      exact ⟨fun p hp => h.applied tap p hp, h.removed tap⟩
    | ok _ =>
    simp only [EgressCall.run, Bridge.call, hresult, Status.after, EgressCall.tap]
    refine ⟨fun p' hp' => ?_, by simp⟩
    obtain rfl := Status.applied.inj hp'
    exact ⟨(apply_ok h.rules hresult).1, fun chain hchain => rulesOf_apply h.rules hresult hchain⟩
  | remove tap =>
  obtain ⟨-, hok⟩ := remove_spec tap nft bridge hpresent h.rules
  cases hresult : (removeEgressPolicy nft bridge tap b.table).1 with
  | error e =>
    simp only [EgressCall.run, hresult, Status.after]
    exact ⟨by simp, by simp⟩
  | ok _ =>
  simp only [EgressCall.run, Bridge.call, hresult, Status.after, EgressCall.tap]
  refine ⟨by simp, fun _ _ => ?_⟩
  rw [(hok hresult).2, List.filter_filter, filter_eq_nil_iff]
  simp

lemma Enforced.call (h : Enforced b) (bridge : String) (hpresent : Present x.2) :
    Enforced (b.call bridge x) := by
  have hreplaced := b.call_replaced h bridge hpresent
  have hrules : ∀ r ∈ (b.call bridge x).table.rules, ∃ tap, RuleOf tap r := by
    intro r hr
    rcases hreplaced.rules r hr with hr | hr
    · exact h.rules r hr
    · exact ⟨_, hr⟩
  have hstatus {tap : String} (hne : tap ≠ x.1.tap) : (b.call bridge x).status tap = b.status tap :=
    update_of_ne hne _ _
  obtain ⟨happlied, hremoved⟩ := call_own_tap h bridge hpresent
  refine ⟨hrules, fun tap p hp => ?_, fun tap htap hgone => ?_⟩
  · by_cases hne : tap = x.1.tap
    · subst hne
      exact happlied p hp
    · rw [hstatus hne] at hp
      obtain ⟨htap, hold⟩ := h.applied tap p hp
      refine ⟨htap, fun chain hchain => ?_⟩
      rw [rulesOf, hreplaced.frame tap htap hne]
      exact hold chain hchain
  · by_cases hne : tap = x.1.tap
    · subst hne
      exact hremoved htap hgone
    · rw [hreplaced.frame tap htap hne]
      exact h.removed tap htap (hstatus hne ▸ hgone)

lemma enforced_init : Enforced .init :=
  ⟨by simp [Bridge.init, Ruleset.rules_empty], by simp [Bridge.init],
    fun _ _ _ => by simp [Bridge.init, Ruleset.rules_empty]⟩

lemma enforced_calls (bridge : String) {xs : List (EgressCall × NftFates)}
    (hpresent : ∀ x ∈ xs, Present x.2) : Enforced (.calls bridge xs) := by
  induction xs using List.reverseRecOn with
  | nil => exact enforced_init
  | append_singleton xs x ih =>
    rw [forall_mem_append, forall_mem_singleton] at hpresent
    rw [Bridge.calls, foldl_append]
    exact (ih hpresent.1).call bridge hpresent.2

/-! ## Verdicts -/

def Policy.Admits (p : Policy) (f : Frame) : Prop :=
  match f.packet with
  | .arp request target => request = true ∧ target = p.gateway
  | .ipv4 destination (some (protocol, port)) =>
    destination ∈ p.resolvers ∧ port = 53 ∨ ⟨destination, protocol, port⟩ ∈ p.rules
  | _ => False

lemma allowRules_accept (h : rule ∈ allowRules tap p) : rule.1.verdict = .accept := by
  simp only [allowRules, cons_append, mem_cons, mem_append, mem_flatMap, List.mem_map] at h
  rcases h with rfl | ⟨resolver, -, protocol, -, rfl⟩ | ⟨x, -, rfl⟩
  · rfl
  · rfl
  · rfl

variable {ip : Ipv4Addr} {v : Verdict}

lemma hits_arp (hf : f.iifname = tap) :
    BridgeRule.hits ⟨[.iifname tap, .etherTypeArp, .arpRequest, .arpDaddrIp ip], v⟩ f = true ↔
      f.packet = .arp true ip := by
  obtain ⟨iif, packet⟩ := f
  obtain rfl : iif = tap := hf
  cases packet <;> simp [BridgeRule.hits, Term.hits]

lemma hits_port (hf : f.iifname = tap) {protocol : EgressProtocol} {port : UInt16}
    {rest : List Term} (hrest : rest.all (Term.hits f) = true) :
    BridgeRule.hits ⟨.iifname tap :: .etherTypeIp :: .ipDaddr ip :: .dport protocol port :: rest, v⟩ f
      = true ↔ f.packet = .ipv4 ip (some (protocol, port)) := by
  obtain ⟨iif, packet⟩ := f
  obtain rfl : iif = tap := hf
  simp only [BridgeRule.hits, all_cons, hrest, Bool.and_true]
  rcases packet with ⟨_, _⟩ | ⟨_, transport⟩ | _
  · simp [Term.hits]
  · cases transport <;> simp [Term.hits]
  · simp [Term.hits]

lemma allowRules_hit (hf : f.iifname = tap) :
    (∃ rule ∈ allowRules tap p, rule.1.hits f = true) ↔ p.Admits f := by
  constructor
  · rintro ⟨rule, hrule, hhit⟩
    simp only [allowRules, cons_append, mem_cons, mem_append, mem_flatMap, List.mem_map] at hrule
    rcases hrule with rfl | ⟨resolver, hresolver, protocol, -, rfl⟩ | ⟨⟨rule, index⟩, hindex, rfl⟩
    · simp [Policy.Admits, (hits_arp hf).mp hhit]
    · simp [Policy.Admits, (hits_port hf rfl).mp hhit, hresolver]
    · have hmem : rule ∈ p.rules := by
        rw [← zipIdx_map_fst 0 p.rules]
        exact List.mem_map_of_mem hindex
      simp [Policy.Admits, (hits_port hf rfl).mp hhit, hmem]
  · intro hadmits
    simp only [allowRules, cons_append, mem_cons, mem_append, mem_flatMap, List.mem_map]
    cases hpacket : f.packet with
    | arp request target =>
      obtain ⟨rfl, rfl⟩ : request = true ∧ target = p.gateway := by
        simpa only [Policy.Admits, hpacket] using hadmits
      exact ⟨_, .inl rfl, (hits_arp hf).mpr hpacket⟩
    | ipv4 destination transport =>
      cases transport with
      | none => simp [Policy.Admits, hpacket] at hadmits
      | some transport =>
      obtain ⟨protocol, port⟩ := transport
      simp only [Policy.Admits, hpacket] at hadmits
      rcases hadmits with ⟨hresolver, rfl⟩ | hrule
      · refine ⟨_, .inr (.inl ⟨destination, hresolver, protocol, ?_, rfl⟩),
          (hits_port hf rfl).mpr hpacket⟩
        cases protocol <;> simp
      · rw [← zipIdx_map_fst 0 p.rules, List.mem_map] at hrule
        obtain ⟨x, hx, hxrule⟩ := hrule
        refine ⟨_, .inr (.inr ⟨x, hx, rfl⟩), (hits_port hf rfl).mpr ?_⟩
        rw [hxrule]
        exact hpacket
    | other => simp [Policy.Admits, hpacket] at hadmits

lemma verdict_rulesOf (hrules : ∀ r ∈ t.rules, ∃ tap, RuleOf tap r) (htap : ':' ∉ tap.toList)
    (hf : f.iifname = tap) (chain : String) :
    verdict t chain f = match (rulesOf t chain tap).find? fun r => r.body.hits f with
      | some r => r.body.verdict
      | none => .accept := by
  have hfind : (rulesOf t chain tap).find? (fun r => r.body.hits f) =
      t.rules.find? fun r => r.chain = chain && r.body.hits f := by
    rw [rulesOf, find?_filter, find?_filter]
    refine find?_congr fun r hr => ?_
    obtain ⟨owner, howner⟩ := hrules r hr
    by_cases hhit : r.body.hits f = true
    · obtain rfl : owner = tap := (howner.ingress f hhit).symm.trans hf
      simp [hhit, howner.owned]
    · simp [hhit]
  rw [verdict, hfind]

lemma verdict_applied (h : Enforced b) (hp : b.status tap = .applied p)
    (hf : f.iifname = tap) (hchain : chain ∈ hookChains) :
    (p.Admits f → verdict b.table chain f = .accept) ∧
      (¬p.Admits f → verdict b.table chain f = .drop) := by
  obtain ⟨htap, hsection⟩ := h.applied tap p hp
  have hdeny : (ruleIn chain (denyRule tap)).body.hits f = true := by
    simp [ruleIn, denyRule, BridgeRule.hits, Term.hits, hf]
  rw [verdict_rulesOf h.rules htap hf, hsection chain hchain, find?_append]
  cases hfind : ((allowRules tap p).map (ruleIn chain)).reverse.find? fun r => r.body.hits f with
  | some r =>
    have hmem := mem_of_find?_eq_some hfind
    obtain ⟨rule, hrule, rfl⟩ := List.mem_map.mp (mem_reverse.mp hmem)
    have hhit : (ruleIn chain rule).body.hits f = true := by
      have hsome := find?_some hfind
      exact hsome
    have hadmits : p.Admits f := (allowRules_hit hf).mp ⟨rule, hrule, hhit⟩
    exact ⟨fun _ => allowRules_accept hrule, fun hnot => absurd hadmits hnot⟩
  | none =>
  have hnone : ¬p.Admits f := by
    rw [← allowRules_hit hf]
    rintro ⟨rule, hrule, hhit⟩
    exact find?_eq_none.mp hfind (ruleIn chain rule)
      (mem_reverse.mpr (List.mem_map_of_mem hrule)) hhit
  refine ⟨fun hadmits => absurd hadmits hnone, fun _ => ?_⟩
  rw [find?_singleton, if_pos hdeny]
  rfl

lemma no_hit_of_removed (h : Enforced b) (hgone : b.status tap = .removed)
    (hf : f.iifname = tap) : ∀ r ∈ b.table.rules, r.body.hits f = false := by
  intro r hr
  rw [Bool.eq_false_iff]
  intro hhit
  obtain ⟨owner, howner⟩ := h.rules r hr
  obtain rfl : owner = tap := (howner.ingress f hhit).symm.trans hf
  exact filter_eq_nil_iff.mp (h.removed owner howner.tap_text hgone) r hr howner.owned

lemma verdict_frame (h : Enforced b) (bridge : String) (hpresent : Present x.2)
    (hne : f.iifname ≠ x.1.tap) (chain : String) :
    verdict (b.call bridge x).table chain f = verdict b.table chain f := by
  have h' := h.call bridge hpresent
  by_cases htap : ':' ∈ f.iifname.toList
  · -- no TAP has such a name, so no rule matches
    have hmiss {b : Bridge} (h : Enforced b) :
        b.table.rules.find? (fun r => r.chain = chain && r.body.hits f) = none := by
      rw [find?_eq_none]
      intro r hr hhit
      obtain ⟨owner, howner⟩ := h.rules r hr
      rw [howner.ingress f (Bool.and_eq_true_iff.mp hhit).2] at htap
      exact howner.tap_text htap
    rw [verdict, verdict, hmiss h, hmiss h']
  · rw [verdict_rulesOf h.rules htap rfl, verdict_rulesOf h'.rules htap rfl, rulesOf, rulesOf,
      (b.call_replaced h bridge hpresent).frame _ htap hne]

/-- Whatever calls were made: frames of a TAP with a policy pass exactly as the policy says, no
rule matches frames of a TAP without one, and a call never changes the verdict on the frames of
another TAP. -/
theorem egress_policy_is_enforced (bridge : String) (calls : List (EgressCall × NftFates))
    (hpresent : ∀ x ∈ calls, Present x.2) (tap : String) :
    (∀ p, (Bridge.calls bridge calls).status tap = .applied p → ∀ f : Frame, f.iifname = tap →
      ∀ chain ∈ hookChains,
        (p.Admits f → verdict (Bridge.calls bridge calls).table chain f = .accept) ∧
        (¬p.Admits f → verdict (Bridge.calls bridge calls).table chain f = .drop)) ∧
    ((Bridge.calls bridge calls).status tap = .removed → ∀ f : Frame, f.iifname = tap →
      ∀ r ∈ (Bridge.calls bridge calls).table.rules, r.body.hits f = false) ∧
    ∀ x : EgressCall × NftFates, Present x.2 → x.1.tap ≠ tap → ∀ f : Frame, f.iifname = tap →
      ∀ chain, verdict ((Bridge.calls bridge calls).call bridge x).table chain f =
        verdict (Bridge.calls bridge calls).table chain f := by
  have henforced := enforced_calls bridge hpresent
  refine ⟨fun p hp f hf chain hchain => verdict_applied henforced hp hf hchain,
    fun hgone f hf => no_hit_of_removed henforced hgone hf, fun x hx hne f hf chain => ?_⟩
  exact verdict_frame henforced bridge hx (fun heq => hne (heq.symm.trans hf)) chain

def webPolicy : Policy := ⟨0x0a000001, [0x01010101], [⟨0x5db8d822, .tcp, 443⟩]⟩

def webCalls : List (EgressCall × NftFates) :=
  [(.apply "husker3" webPolicy, .smooth), (.apply "husker4" webPolicy, .smooth),
    (.remove "husker4", .smooth)]

/-- The web server is reached by the TAP that still has the policy, another host is not, and the
other TAP is free again. -/
theorem web_policy_enforced : verdict (Bridge.calls "husker0" webCalls).table "forward"
      ⟨"husker3", .ipv4 0x5db8d822 (some (.tcp, 443))⟩ = .accept ∧
    verdict (Bridge.calls "husker0" webCalls).table "forward"
      ⟨"husker3", .ipv4 0x0a000002 (some (.tcp, 443))⟩ = .drop ∧
    ∀ r ∈ (Bridge.calls "husker0" webCalls).table.rules, r.body.hits ⟨"husker4", .other⟩ = false := by
  have hpresent : ∀ x ∈ webCalls, Present x.2 := by
    simp [webCalls, Present, NftFates.smooth]
  have hstatus : (Bridge.calls "husker0" webCalls).status "husker3" = .applied webPolicy := by
    decide +kernel
  have hother : (Bridge.calls "husker0" webCalls).status "husker4" = .removed := by
    decide +kernel
  have henforced := egress_policy_is_enforced "husker0" webCalls hpresent
  refine ⟨((henforced "husker3").1 webPolicy hstatus _ rfl "forward" (by decide)).1 ?_,
    ((henforced "husker3").1 webPolicy hstatus _ rfl "forward" (by decide)).2 ?_,
    (henforced "husker4").2.1 hother _ rfl⟩
  · simp [Policy.Admits, webPolicy]
  · simp [Policy.Admits, webPolicy]

end Husker.Net
