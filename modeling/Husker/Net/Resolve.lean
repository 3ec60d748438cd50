import Husker.Mount.Spec
import Husker.Net.Egress
import Husker.Relational.JsonValue
import Husker.Store.Schema

/-! # Requested and persisted egress rules

A request names hosts; what they resolve to is kept with the VM as JSON and read again whenever the
rules of the VM are installed.
-/
namespace Husker.Net
open Relational Mount

structure EgressRuleRequest where
  host : Text
  protocol : Text
  port : UInt16

structure ResolvedEgressRule where
  host : Option Text
  destination : Ipv4Addr
  protocol : Text
  port : UInt16
  deriving DecidableEq

inductive IpAddr where
  | v4 (ip : Ipv4Addr)
  | v6 (ip : Fin (2 ^ 128))

inductive EgressError where
  | invalidArgument (text : Text)
  | corruptData (column message : Text)
  deriving DecidableEq

/-- The standard library's parser, and what the resolver answers to each request. -/
structure Resolver where
  parseIp : Text → Option IpAddr
  lookupHost : ℕ → Text → UInt16 → Except Text (List IpAddr)

def maxRequestedEgressRules : ℕ := 32

def maxResolvedEgressRules : ℕ := 128

/-! ## Hosts -/

def toAsciiLowercase (text : Text) : Text := text.map Char.toLower

def trim (text : Text) : Text :=
  ((text.dropWhile isWhitespace).reverse.dropWhile isWhitespace).reverse

def trimEndMatches (c : Char) (text : Text) : Text := (text.reverse.dropWhile (· = c)).reverse

def containsText (text part : Text) : Bool := text.tails.any fun rest => part.isPrefixOf rest

def validLabel (label : Text) : Bool :=
  label ≠ [] && Json.size label ≤ 63 && label.head? ≠ some '-' && label.getLast? ≠ some '-' &&
    label.all fun c => isAsciiAlphanumeric c || c = '-'

def validateHost (std : Resolver) (value : Text) : Except String Text :=
  let value := trimEndMatches '.' (trim value)
  if value = [] then .error "is required"
  else if 253 < Json.size value then .error "must be at most 253 bytes"
  else if containsText value "://".toList || '/' ∈ value || '*' ∈ value then
    .error "must be a hostname or IP address without a scheme, path, or wildcard"
  else if value.any fun c => Store.isControl c || isWhitespace c || !(c.toNat < 128) then
    .error "must contain only printable ASCII hostname characters"
  else if (std.parseIp value).isSome then .ok value
  else if (value.splitOnP (· = '.')).any fun label => !validLabel label then
    .error "is not a valid DNS hostname"
  else .ok (toAsciiLowercase value)

/-! ## Destinations -/

def isUnspecified (ip : Ipv4Addr) : Bool := ip.val = 0

def isMulticast (ip : Ipv4Addr) : Bool := 224 ≤ ip.val / 2 ^ 24 && ip.val / 2 ^ 24 ≤ 239

def isBroadcast (ip : Ipv4Addr) : Bool := ip.val = 2 ^ 32 - 1

def unicast (ip : Ipv4Addr) : Bool := !(isUnspecified ip || isMulticast ip || isBroadcast ip)

def orderedAddresses (answer : List IpAddr) : List Ipv4Addr :=
  (answer.filterMap fun
    | .v4 ip => some ip
    | .v6 _ => none).dedup.insertionSort (· ≤ ·)

def field (index : ℕ) (name : String) : Text :=
  "egress[".toList ++ Nat.toDigits 10 index ++ "].".toList ++ name.toList

def invalid (index : ℕ) (name message : String) : EgressError :=
  .invalidArgument (field index name ++ " ".toList ++ message.toList)

def addressesOf (std : Resolver) (index : ℕ) (host : Text) (port : UInt16) :
    Except EgressError (List Ipv4Addr × Option Text) :=
  match std.parseIp host with
  | some (.v4 ip) => .ok ([ip], none)
  | some (.v6 _) =>
    .error (invalid index "host" "must resolve to IPv4; IPv6 egress is not supported")
  | none =>
    match std.lookupHost index host port with
    | .error error => .error (.invalidArgument
        (field index "host" ++ " could not be resolved: ".toList ++ error))
    | .ok answer => .ok (orderedAddresses answer, some host)

/-- What a request stands for: the rules of its destinations, not yet checked. -/
def resolveRequest (std : Resolver) (index : ℕ) (rule : EgressRuleRequest) :
    Except EgressError (List ResolvedEgressRule) := do
  let host ← (validateHost std rule.host).mapError (invalid index "host")
  ensure (rule.port ≠ 0) (invalid index "port" "must be between 1 and 65535")
  let protocol := toAsciiLowercase rule.protocol
  ensure (protocol = "tcp".toList ∨ protocol = "udp".toList)
    (invalid index "protocol" "must be tcp or udp")
  let (addresses, hostname) ← addressesOf std index host rule.port
  ensure (addresses ≠ []) (invalid index "host" "resolved to no IPv4 addresses")
  return addresses.map fun destination => ⟨hostname, destination, protocol, rule.port⟩

def ruleLe (a b : ResolvedEgressRule) : Bool :=
  ((((compare a.host b.host).then (compare a.destination b.destination)).then
    (compare a.protocol b.protocol)).then (compare a.port b.port)).isLE

def insertRule (resolved : List ResolvedEgressRule) (rule : ResolvedEgressRule) :
    List ResolvedEgressRule :=
  if rule ∈ resolved then resolved else resolved.orderedInsert (fun a b => ruleLe a b) rule

def addDestination (index : ℕ) (resolved : List ResolvedEgressRule) (rule : ResolvedEgressRule) :
    Except EgressError (List ResolvedEgressRule) := do
  ensure (unicast rule.destination = true) (.invalidArgument
    (field index "host" ++ " resolved to non-unicast address ".toList ++ dotted rule.destination))
  ensure ((insertRule resolved rule).length ≤ maxResolvedEgressRules) (.invalidArgument
    "egress resolves to more than 128 concrete destinations".toList)
  return insertRule resolved rule

def addRequest (std : Resolver) (resolved : List ResolvedEgressRule)
    (request : EgressRuleRequest × ℕ) : Except EgressError (List ResolvedEgressRule) := do
  let rules ← resolveRequest std request.2 request.1
  rules.foldlM (addDestination request.2) resolved

def resolveEgressRules (std : Resolver) (requested : List EgressRuleRequest) :
    Except EgressError (List ResolvedEgressRule) := do
  ensure (requested.length ≤ maxRequestedEgressRules)
    (.invalidArgument "egress accepts at most 32 destination rules".toList)
  requested.zipIdx.foldlM (addRequest std) []

/-! ## Persisted rules -/

/-- `serde_json` on lists of rules. -/
structure RuleCodec where
  toJson : List ResolvedEgressRule → Text
  fromJson : Text → Except Text (List ResolvedEgressRule)

def persistable (rule : ResolvedEgressRule) : Bool :=
  (rule.protocol = "tcp".toList || rule.protocol = "udp".toList) && rule.port ≠ 0 &&
    unicast rule.destination

def corrupt (message : Text) : EgressError := .corruptData "vms.egress_policy".toList message

def parsePersistedRules (json : RuleCodec) (value : Text) :
    Except EgressError (List ResolvedEgressRule) := do
  let rules ← (json.fromJson value).mapError corrupt
  ensure (rules.length ≤ 128 ∧ ∀ rule ∈ rules, persistable rule = true)
    (corrupt "invalid persisted egress rule".toList)
  return rules

def netRule (rule : ResolvedEgressRule) : EgressRule where
  destination := rule.destination
  protocol := if rule.protocol = "tcp".toList then .tcp else .udp
  port := rule.port

def netRules (rules : List ResolvedEgressRule) : List EgressRule := rules.map netRule

/-! ## What a resolved rule comes from -/

variable {std : Resolver} {requested : List EgressRuleRequest} {rules : List ResolvedEgressRule}

/-- The rule is one of those a request stands for, and can be installed again. -/
structure Origin (std : Resolver) (index : ℕ) (request : EgressRuleRequest)
    (rule : ResolvedEgressRule) : Prop where
  resolved : ∃ rules, resolveRequest std index request = .ok rules ∧ rule ∈ rules
  port : rule.port = request.port ∧ request.port ≠ 0
  protocol : rule.protocol = toAsciiLowercase request.protocol ∧
    (rule.protocol = "tcp".toList ∨ rule.protocol = "udp".toList)
  destination : unicast rule.destination = true

variable {index : ℕ} {request : EgressRuleRequest} {rule : ResolvedEgressRule}

lemma resolveRequest_eq_ok (h : resolveRequest std index request = .ok rules) : ∀ rule ∈ rules,
      (rule.port = request.port ∧ request.port ≠ 0) ∧
      rule.protocol = toAsciiLowercase request.protocol ∧
      (rule.protocol = "tcp".toList ∨ rule.protocol = "udp".toList) := by
  simp only [resolveRequest, eq_ok] at h
  obtain ⟨host, -, -, hport, -, hprotocol, ⟨addresses, hostname⟩, -, -, -, rfl⟩ := h
  intro rule hrule
  obtain ⟨destination, -, rfl⟩ := List.mem_map.mp hrule
  exact ⟨⟨rfl, hport⟩, rfl, hprotocol⟩

lemma mem_insertRule {r : ResolvedEgressRule} :
    r ∈ insertRule rules rule ↔ r = rule ∨ r ∈ rules := by
  unfold insertRule
  split_ifs with hmem
  · constructor
    · exact .inr
    · rintro (rfl | hr)
      · exact hmem
      · exact hr
  · exact List.mem_orderedInsert _

variable {rules' : List ResolvedEgressRule}

lemma addDestination_eq_ok :
    addDestination index rules rule = .ok rules' ↔ unicast rule.destination = true ∧
      (insertRule rules rule).length ≤ maxResolvedEgressRules ∧ insertRule rules rule = rules' := by
  simp [addDestination, bind_eq_ok, ensure_eq_ok, pure_eq_ok]

structure Sourced (std : Resolver) (requested : List EgressRuleRequest)
    (rules : List ResolvedEgressRule) : Prop where
  length : rules.length ≤ maxResolvedEgressRules
  origin : ∀ rule ∈ rules, ∃ request ∈ requested.zipIdx, Origin std request.2 request.1 rule

lemma Sourced.addRequest (h : Sourced std requested rules) {request : EgressRuleRequest × ℕ}
    (hrequest : request ∈ requested.zipIdx) (hadd : addRequest std rules request = .ok rules') : Sourced std requested rules' := by
  simp only [Net.addRequest, eq_ok] at hadd
  obtain ⟨candidates, hresolve, hloop⟩ := hadd
  refine foldlM_invariant (I := Sourced std requested) hloop h ?_
  intro rules rule rules' hrule h hturn
  obtain ⟨hunicast, hlength, rfl⟩ := addDestination_eq_ok.mp hturn
  refine ⟨hlength, fun r hr => ?_⟩
  rcases mem_insertRule.mp hr with rfl | hr
  · obtain ⟨hport, hprotocol⟩ := resolveRequest_eq_ok hresolve r hrule
    exact ⟨request, hrequest, ⟨candidates, hresolve, hrule⟩, hport, hprotocol, hunicast⟩
  · exact h.origin r hr

lemma resolveEgressRules_sourced (h : resolveEgressRules std requested = .ok rules) :
    Sourced std requested rules := by
  simp only [resolveEgressRules, eq_ok] at h
  obtain ⟨-, -, hloop⟩ := h
  refine foldlM_invariant (I := Sourced std requested) hloop ⟨by simp, by simp⟩ ?_
  exact fun rules request rules' hrequest h hturn => h.addRequest hrequest hturn

lemma Origin.persistable (h : Origin std index request rule) : persistable rule = true := by
  have hport : rule.port ≠ 0 := h.port.1 ▸ h.port.2
  rcases h.protocol.2 with hprotocol | hprotocol <;>
    simp [Net.persistable, hprotocol, hport, h.destination]

lemma Origin.netRule_protocol (h : Origin std index request rule) :
    toAsciiLowercase request.protocol = (netRule rule).protocol.nftName.toList := by
  rw [← h.protocol.1]
  rcases h.protocol.2 with hprotocol | hprotocol
  · rw [netRule, hprotocol]
    rfl
  · have hne : "udp".toList ≠ "tcp".toList := by decide
    rw [netRule, hprotocol, if_neg hne]
    rfl

/-- What was resolved survives being stored and read back, and is installed as it was asked for. -/
theorem persisted_rules_round_trip (json : RuleCodec) (std : Resolver)
    (requested : List EgressRuleRequest) {rules : List ResolvedEgressRule}
    (h : resolveEgressRules std requested = .ok rules)
    (hjson : json.fromJson (json.toJson rules) = .ok rules) :
    parsePersistedRules json (json.toJson rules) = .ok rules ∧
    (∀ rules', parsePersistedRules json (json.toJson rules) = .ok rules' →
      netRules rules' = netRules rules) ∧
    ∀ rule ∈ rules, (netRule rule).destination = rule.destination ∧
      (netRule rule).port = rule.port ∧
      ∃ request ∈ requested.zipIdx,
        (∃ candidates, resolveRequest std request.2 request.1 = .ok candidates ∧
          rule ∈ candidates) ∧
        request.1.port = rule.port ∧
        toAsciiLowercase request.1.protocol = (netRule rule).protocol.nftName.toList := by
  have hsourced := resolveEgressRules_sourced h
  have hparse : parsePersistedRules json (json.toJson rules) = .ok rules := by
    have hvalid : rules.length ≤ 128 ∧ ∀ rule ∈ rules, persistable rule = true := by
      refine ⟨hsourced.length, fun rule hrule => ?_⟩
      obtain ⟨request, -, horigin⟩ := hsourced.origin rule hrule
      exact horigin.persistable
    rw [parsePersistedRules, hjson]
    simp [Except.mapError, ok_bind, ensure_of_true _ hvalid, pure_eq_ok]
  refine ⟨hparse, fun rules' hrules' => ?_, fun rule hrule => ⟨rfl, rfl, ?_⟩⟩
  · rw [hparse, Except.ok.injEq] at hrules'
    rw [hrules']
  · obtain ⟨request, hrequest, horigin⟩ := hsourced.origin rule hrule
    exact ⟨request, hrequest, horigin.resolved, horigin.port.1.symm, horigin.netRule_protocol⟩

def apiServer : Ipv4Addr := 3405803784

def literalResolver : Resolver where
  parseIp text := if text = "203.0.113.8".toList then some (.v4 apiServer) else none
  lookupHost _ _ _ := .error "no such host".toList

def storedRule : ResolvedEgressRule := ⟨none, apiServer, "tcp".toList, 443⟩

def storedText : Text :=
  "[\x7b\"destination\":\"203.0.113.8\",\"protocol\":\"tcp\",\"port\":443\x7d]".toList

/-- `serde_json` on one list. -/
def RuleCodec.single (rules : List ResolvedEgressRule) (text : Text) : RuleCodec where
  toJson rules' := if rules' = rules then text else []
  fromJson text' := if text' = text then .ok rules else .error "unexpected end".toList

open RuleCodec

lemma RuleCodec.single_toJson (rules : List ResolvedEgressRule) (text : Text) :
    (single rules text).toJson rules = text := if_pos rfl

lemma RuleCodec.single_fromJson (rules : List ResolvedEgressRule) (text : Text) :
    (single rules text).fromJson text = .ok rules := if_pos rfl

theorem literal_rule_round_trip :
    resolveEgressRules literalResolver [⟨" 203.0.113.8".toList, "TCP".toList, 443⟩] =
      .ok [storedRule] ∧
    parsePersistedRules (.single [storedRule] storedText) storedText = .ok [storedRule] := by
  have h : resolveEgressRules literalResolver [⟨" 203.0.113.8".toList, "TCP".toList, 443⟩] =
      .ok [storedRule] := by decide +kernel
  have htext := single_toJson [storedRule] storedText
  have htrip := (persisted_rules_round_trip (.single [storedRule] storedText) literalResolver _ h
    (htext.symm ▸ single_fromJson [storedRule] storedText)).1
  exact ⟨h, htext ▸ htrip⟩

end Husker.Net
