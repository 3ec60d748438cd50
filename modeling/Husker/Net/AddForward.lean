import Husker.Net.Nft
import Husker.Store.Schema

/-! # Adding a port forward

The rule goes into the packet filter before the row goes into the store.  When the store refuses
the row, the rules with the comment of the new one are deleted again.
-/
namespace Husker.Net
open Relational Store List Option

/-! ## Removing a port forward

A forward lives in three places: a row of the state store, a translation rule of the packet
filter and a counter baseline of the idle policy.  Rule and baseline are keyed by TAP and port,
the row by the port alone.
-/

section

structure Vm where
  id : Uuid
  name : String
  tapDevice : Option String
  deriving DecidableEq

structure PortForward where
  vmId : Uuid
  hostPort : UInt16
  guestPort : UInt16
  deriving DecidableEq

structure Dnat where
  hostPort : UInt16
  guestIp : Ipv4Addr
  guestPort : UInt16
  deriving DecidableEq

def forwardTag (tap : String) (hostPort : UInt16) : String :=
  "husker-pf:" ++ tap ++ ":" ++ toString hostPort.toNat

structure Host where
  vms : List Vm
  forwards : List PortForward
  nft : NftTable Dnat
  counters : String → Option (ℕ × ℕ)
  ids : (vms.map Vm.id).Nodup
  names : (vms.map Vm.name).Nodup
  taps : ∀ vm ∈ vms, ∀ vm' ∈ vms, ∀ tap, vm.tapDevice = some tap → vm'.tapDevice = some tap → vm = vm'
  tap_text : ∀ vm ∈ vms, ∀ tap, vm.tapDevice = some tap → ':' ∉ tap.toList
  owned : ∀ f ∈ forwards, ∃ vm ∈ vms, vm.id = f.vmId

inductive CoreError where
  | vmNotFound (text : String)
  | net (e : NetError)
  | state (message : String)
  deriving DecidableEq

def removeForwardRules (nft : NftFates) (hostPort : UInt16) (tap : String) (t : NftTable Dnat) :
    Except NetError Unit × NftTable Dnat :=
  match nft.list with
  | some e => if isMissingNftTableError e then (.ok (), t) else (.error e, t)
  | none =>
    let rules := findRulesByComment t (forwardTag tap hostPort)
    let (failures, t) := deleteRules nft
      (fun chain handle e =>
        let text := e.toText
        s!"{chain} handle {handle}: {text}") rules t
    if failures = [] then (.ok (), t)
    else (.error (.commandFailed "nft delete rule" ("; ".intercalate failures)), t)

structure Fates where
  nft : NftFates
  /-- The store's error, if it refuses to delete a row. -/
  store : Option String

namespace Host

variable (host : Host)

def deletePortForward (hostPort : UInt16) : Host where
  __ := host
  forwards := host.forwards.filter fun f => f.hostPort ≠ hostPort
  owned f hf := host.owned f (List.mem_of_mem_filter hf)

def withNft (t : NftTable Dnat) : Host := { host with nft := t }

def dropCounter (key : String) : Host :=
  { host with counters := fun k => if k = key then none else host.counters k }

def removePortForward (fates : Fates) (name : String) (hostPort : UInt16) :
    Except CoreError Unit × Host :=
  match host.vms.find? (·.name = name) with
  | none => (.error (.vmNotFound name), host)
  | some record =>
    match record.tapDevice with
    | none => (.error (.vmNotFound s!"{name}: no TAP device"), host)
    | some tap =>
      match removeForwardRules fates.nft hostPort tap host.nft with
      | (.error e, t) => (.error (.net e), host.withNft t)
      | (.ok (), t) =>
        match fates.store with
        | some e => (.error (.state e), host.withNft t)
        | none =>
          (.ok (), ((host.withNft t).deletePortForward hostPort).dropCounter (forwardTag tap hostPort))

end Host

/-! ## Whose forward it is -/

def Host.rows (host : Host) (vm : Vm) : List PortForward :=
  host.forwards.filter fun f => f.vmId = vm.id

def ruleOf (vm : Vm) (r : NftRule Dnat) : Bool :=
  vm.tapDevice.any fun tap => r.comment.any fun comment =>
    ("husker-pf:" ++ tap ++ ":").toList.isPrefixOf comment.toList

structure Untouched (vm : Vm) (host host' : Host) : Prop where
  rows : host'.rows vm = host.rows vm
  rules : host'.nft.rules.filter (ruleOf vm) = host.nft.rules.filter (ruleOf vm)
  counters : ∀ tap, vm.tapDevice = some tap → ∀ port,
    host'.counters (forwardTag tap port) = host.counters (forwardTag tap port)

variable {tap : String}

lemma tap_of_tag {tap' : String} {port : UInt16} (htap : ':' ∉ tap.toList)
    (htap' : ':' ∉ tap'.toList)
    (h : ("husker-pf:" ++ tap ++ ":").toList <+: (forwardTag tap' port).toList) : tap = tap' := by
  obtain ⟨rest, hrest⟩ := h
  simp only [forwardTag, String.toList_append, append_assoc, append_cancel_left_eq] at hrest
  exact String.toList_inj.mp (append_separator_inj htap htap' hrest).1

lemma removeForwardRules_frame (nft : NftFates) (port : UInt16) (tap : String) (t : NftTable Dnat)
    {o : NftRule Dnat → Bool} (ho : ∀ r, o r = true → r.comment ≠ some (forwardTag tap port)) :
    (removeForwardRules nft port tap t).2.rules.filter o = t.rules.filter o := by
  unfold removeForwardRules
  cases nft.list with
  | some e =>
    simp only
    split_ifs <;> rfl
  | none =>
  have hframe := deleteRules_frame (t := t) (p := (· = forwardTag tap port)) nft
    (fun chain handle e =>
      let text := e.toText
      s!"{chain} handle {handle}: {text}") (o := o) fun r hr => by
      rw [Bool.eq_false_iff, ne_eq, Option.any_eq_true]
      rintro ⟨comment, hcomment, heq⟩
      exact ho r hr (hcomment.trans (congrArg some (of_decide_eq_true heq)))
  simp only
  split_ifs
  · exact hframe
  · exact hframe

namespace Host

variable {host : Host} {vm other : Vm}

section
variable (hvm : vm ∈ host.vms)
include hvm

lemma find_name : host.vms.find? (·.name = vm.name) = some vm := by
  obtain ⟨found, hfound⟩ : ∃ found, host.vms.find? (·.name = vm.name) = some found := by
    rw [← isSome_iff_exists, find?_isSome]
    exact ⟨vm, hvm, by simp⟩
  have hname : found.name = vm.name := by simpa using find?_some hfound
  rw [hfound, inj_on_of_nodup_map host.names (mem_of_find?_eq_some hfound) hvm hname]

section
variable (hother : other ∈ host.vms)
include hother

lemma eq_of_id (h : vm.id = other.id) : vm = other := inj_on_of_nodup_map host.ids hvm hother h

lemma tag_of_other (hne : other ≠ vm)
    {tap' : String} (htap : vm.tapDevice = some tap) (htap' : other.tapDevice = some tap')
    (port : UInt16) : ¬("husker-pf:" ++ tap' ++ ":").toList <+: (forwardTag tap port).toList := by
  intro hpre
  have heq := tap_of_tag (host.tap_text other hother tap' htap') (host.tap_text vm hvm tap htap) hpre
  exact hne (host.taps other hother vm hvm tap (heq ▸ htap') htap)

lemma rules_of_other (hne : other ≠ vm)
    (htap : vm.tapDevice = some tap) (nft : NftFates) (port : UInt16) :
    (removeForwardRules nft port tap host.nft).2.rules.filter (ruleOf other) =
      host.nft.rules.filter (ruleOf other) := by
  refine removeForwardRules_frame nft port tap host.nft fun r hr hcomment => ?_
  obtain ⟨tap', htap', hrule⟩ := (Option.any_eq_true _ _).mp hr
  obtain ⟨comment, hsome, hpre⟩ := (Option.any_eq_true _ _).mp hrule
  rw [hcomment] at hsome
  rw [← some.inj hsome, isPrefixOf_iff_prefix] at hpre
  exact tag_of_other hvm hother hne htap htap' port hpre

lemma counter_of_other (hne : other ≠ vm)
    {tap' : String} (htap : vm.tapDevice = some tap) (htap' : other.tapDevice = some tap')
    (port port' : UInt16) : forwardTag tap' port' ≠ forwardTag tap port := by
  intro heq
  apply tag_of_other hvm hother hne htap htap' port
  rw [← heq]
  simp only [forwardTag, String.toList_append]
  exact prefix_append _ _

end

end

lemma rows_deletePortForward (port : UInt16) :
    (host.deletePortForward port).rows other = host.rows other ↔
      ∀ f ∈ host.forwards, f.hostPort = port → f.vmId ≠ other.id := by
  simp only [rows, deletePortForward, List.filter_filter]
  constructor
  · intro h f hf hport hid
    have hmem : f ∈ host.forwards.filter fun f => f.vmId = other.id :=
      mem_filter.mpr ⟨hf, decide_eq_true hid⟩
    rw [← h] at hmem
    simp [hport] at hmem
  · intro h
    refine filter_congr fun f hf => ?_
    by_cases hport : f.hostPort = port
    · simp [hport, h f hf hport]
    · simp [hport]

end Host

/-- Removing a forward leaves all other VMs alone exactly when it fails or the port is not that
of another VM. -/
theorem remove_port_forward_scoped_iff (host : Host) (fates : Fates) (port : UInt16) {vm : Vm}
    (hvm : vm ∈ host.vms) : (∀ other ∈ host.vms, other ≠ vm →
      Untouched other host (host.removePortForward fates vm.name port).2) ↔
    ((host.removePortForward fates vm.name port).1 = .ok () →
      ∀ f ∈ host.forwards, f.hostPort = port → f.vmId = vm.id) := by
  simp only [Host.removePortForward, Host.find_name hvm]
  cases htap : vm.tapDevice with
  | none => exact ⟨fun _ h => absurd h (by simp), fun _ _ _ _ => ⟨rfl, rfl, fun _ _ _ => rfl⟩⟩
  | some tap =>
  have hrules : ∀ other ∈ host.vms, other ≠ vm →
      (removeForwardRules fates.nft port tap host.nft).2.rules.filter (ruleOf other) =
        host.nft.rules.filter (ruleOf other) :=
    fun _ hother hne => Host.rules_of_other hvm hother hne htap fates.nft port
  rcases hremove : removeForwardRules fates.nft port tap host.nft with ⟨result, t⟩
  simp only [hremove] at hrules
  cases result with
  | error e =>
    simp only [hremove]
    exact ⟨fun _ h => absurd h (by simp), fun _ other hother hne =>
      ⟨rfl, hrules other hother hne, fun _ _ _ => rfl⟩⟩
  | ok =>
  cases hstore : fates.store with
  | some e =>
    simp only [hremove]
    exact ⟨fun _ h => absurd h (by simp), fun _ other hother hne =>
      ⟨rfl, hrules other hother hne, fun _ _ _ => rfl⟩⟩
  | none =>
  simp only [hremove]
  constructor
  · intro h _ f hf hport
    obtain ⟨owner, howner, hid⟩ := host.owned f hf
    by_cases hne : owner = vm
    · rw [← hid, hne]
    · exact absurd hid.symm
        ((Host.rows_deletePortForward port).mp (h owner howner hne).rows f hf hport)
  · intro h other hother hne
    refine ⟨(Host.rows_deletePortForward port).mpr fun f hf hport hid => ?_,
      hrules other hother hne, fun tap' htap' port' => ?_⟩
    · exact hne (Host.eq_of_id hother hvm (hid.symm.trans (h trivial f hf hport)))
    · exact if_neg (Host.counter_of_other hvm hother hne htap htap' port port')

def secondVm : Vm := ⟨.ofNat 2, "b", some "husker4"⟩

def twoVms : Host where
  vms := [⟨.ofNat 1, "a", some "husker3"⟩, secondVm]
  forwards := [⟨secondVm.id, 8080, 80⟩]
  nft := Ruleset.empty.append ⟨"prerouting", some (forwardTag "husker4" 8080), 8080, 0, 80⟩
  counters key := if key = forwardTag "husker4" 8080 then some (1, 60) else none
  ids := by decide
  names := by decide
  taps := by decide
  tap_text := by decide
  owned := by decide

/-- The owner's removal takes the forward and nothing else. -/
theorem owner_removes_forward :
    (twoVms.removePortForward ⟨.smooth, none⟩ secondVm.name 8080).1 = .ok () ∧
    ∀ other ∈ twoVms.vms, other ≠ secondVm →
      Untouched other twoVms (twoVms.removePortForward ⟨.smooth, none⟩ secondVm.name 8080).2 := by
  have hsecond : secondVm ∈ twoVms.vms := by decide
  exact ⟨by decide +kernel,
    (remove_port_forward_scoped_iff twoVms ⟨.smooth, none⟩ 8080 hsecond).mpr fun _ => by decide⟩

/-- Asked for a port of the second VM, the first one's removal deletes the second one's row;
its rule stays. -/
theorem removal_takes_another_forward :
    (twoVms.removePortForward ⟨.smooth, none⟩ "a" 8080).1 = .ok () ∧
    twoVms.rows secondVm = [⟨secondVm.id, 8080, 80⟩] ∧
    (twoVms.removePortForward ⟨.smooth, none⟩ "a" 8080).2.rows secondVm = [] ∧
    (twoVms.removePortForward ⟨.smooth, none⟩ "a" 8080).2.nft.rules = twoVms.nft.rules := by
  refine ⟨?_, ?_, ?_, ?_⟩ <;> decide +kernel

end

inductive NetworkMode where
  | nat
  | bridged
  | isolated
  deriving DecidableEq

def NetworkMode.asStr : NetworkMode → String
  | .nat => "nat"
  | .bridged => "bridged"
  | .isolated => "none"

structure VmNet where
  network : NetworkMode
  guestIp : Option String

structure BindAddr where
  text : String
  unspecified : Bool

inductive AddError where
  | vmNotFound (text : String)
  | invalidArgument (text : String)
  | net (e : NetError)
  | portForwardConflict (port : UInt16)
  | state (message : String)
  deriving DecidableEq

structure AddFates where
  nft : NftFates
  /-- The error of `nft add rule`. -/
  add : Option NetError
  listed : Bool
  /-- The store's error, if it refuses a row that violates no constraint. -/
  store : Option String

structure AddFates.NftWorks (fates : AddFates) : Prop where
  list : fates.nft.list = none
  delete : ∀ chain handle, fates.nft.delete chain handle = none
  add : fates.add = none

/-- The rule in the prerouting chain; what it guards against is left out, where it leads is not. -/
def portForwardRule (hostPort : UInt16) (guestIp : Ipv4Addr) (guestPort : UInt16) (tap : String) :
    NftRule Dnat :=
  ⟨"prerouting", some (forwardTag tap hostPort), hostPort, guestIp, guestPort⟩

namespace Host

variable (host : Host)

def listPortForwardsForVm (vm : Vm) : List PortForward := host.forwards.filter fun f => f.vmId = vm.id

def pushForward (f : PortForward) (h : ∃ vm ∈ host.vms, vm.id = f.vmId) : Host where
  __ := host
  forwards := host.forwards ++ [f]
  owned g hg := by
    rcases List.mem_append.mp hg with hg | hg
    · exact host.owned g hg
    · rw [List.mem_singleton.mp hg]
      exact h

/-- `INSERT INTO port_forwards`: host ports are unique and the VM has to exist. -/
def insertPortForward (store : Option String) (f : PortForward) : Except AddError Host :=
  if host.forwards.any fun g => g.hostPort = f.hostPort then .error (.portForwardConflict f.hostPort)
  else if h : ∃ vm ∈ host.vms, vm.id = f.vmId then
    match store with
    | some message => .error (.state message)
    | none => .ok (host.pushForward f h)
  else .error (.portForwardConflict f.hostPort)

/-- The part of `add_port_forward` that changes something. -/
def installForward (fates : AddFates) (f : PortForward) (guestIp : Ipv4Addr) (tap : String) :
    Except AddError PortForward × Host :=
  match fates.add with
  | some e => (.error (.net e), host)
  | none =>
    let added := host.withNft (host.nft.append (portForwardRule f.hostPort guestIp f.guestPort tap))
    match added.insertPortForward fates.store f with
    | .ok stored => (.ok f, stored)
    | .error e => (.error e, added.withNft (removeForwardRules fates.nft f.hostPort tap added.nft).2)

/-- The VM, its address and its TAP, if the request can be served at all. -/
def forwardTarget (std : Parsers) (net : Uuid → VmNet) (name : String) (bind : Option BindAddr) :
    Except AddError (Vm × Ipv4Addr × String) :=
  match host.vms.find? (·.name = name) with
  | none => .error (.vmNotFound name)
  | some record =>
    let mode := (net record.id).network.asStr
    if (net record.id).network ≠ .nat then
      .error (.invalidArgument
        s!"VM '{name}' uses {mode} networking; port forwards apply to NAT VMs only")
    else
      match bind.filter (!·.unspecified) with
      | some addr =>
        .error (.invalidArgument ("--bind " ++ addr.text ++
          " is not supported on the Linux nftables backend; " ++
          "forwards are reachable on all host interfaces"))
      | none =>
        match (net record.id).guestIp with
        | none => .error (.vmNotFound s!"{name}: no guest IP")
        | some text =>
          match std.ipv4 text with
          | none => .error (.vmNotFound s!"{name}: invalid guest IP")
          | some guestIp =>
            match record.tapDevice with
            | none => .error (.vmNotFound s!"{name}: no TAP device")
            | some tap => .ok (record, guestIp, tap)

def addPortForward (std : Parsers) (net : Uuid → VmNet) (fates : AddFates) (name : String)
    (hostPort guestPort : UInt16) (bind : Option BindAddr) : Except AddError PortForward × Host :=
  match host.forwardTarget std net name bind with
  | .error e => (.error e, host)
  | .ok (record, guestIp, tap) =>
    match (if fates.listed then host.listPortForwardsForVm record else []).find? fun f =>
        f.hostPort = hostPort && f.guestPort = guestPort with
    | some found => (.ok found, host)
    | none => host.installForward fates ⟨record.id, hostPort, guestPort⟩ guestIp tap

end Host

/-! ## What a refused forward leaves -/

/-- The forwards of a host: the rules in the kernel and the rows in the store. -/
def SameForwards (host host' : Host) : Prop :=
  host'.nft.rules = host.nft.rules ∧ host'.forwards = host.forwards

def Host.Tagged (host : Host) (tap : String) (port : UInt16) : Prop :=
  ∃ r ∈ host.nft.rules, r.comment = some (forwardTag tap port)

variable {nft : NftFates}

lemma deleteRules_smooth {β : Type} (describe : String → ℕ → NetError → String)
    (hdelete : ∀ chain handle, nft.delete chain handle = none) (rules : List (String × ℕ))
    (t : NftTable β) : (deleteRules nft describe rules t).1 = [] := by
  induction rules generalizing t with
  | nil => rfl
  | cons x rules ih =>
    obtain ⟨chain, handle⟩ := x
    rw [deleteRules, hdelete]
    exact ih (t.delete handle)

variable {tap : String}

lemma removeForwardRules_works {port : UInt16} {t : NftTable Dnat}
    (hlist : nft.list = none) (hdelete : ∀ chain handle, nft.delete chain handle = none)
    (hchains : ∀ r ∈ t.rules, r.chain ≠ "") : (removeForwardRules nft port tap t).2.rules =
      t.rules.filter fun r => !r.comment.any (· = forwardTag tap port) := by
  unfold removeForwardRules
  simp only [hlist, findRulesByComment, deleteRules_smooth _ hdelete, if_true]
  exact deleteRules_all hchains (deleteRules_smooth _ hdelete _ _)

lemma installForward_error {host : Host} {fates : AddFates} {f : PortForward} {guestIp : Ipv4Addr}
    {e : AddError} (hworks : fates.NftWorks) (hchains : ∀ r ∈ host.nft.rules, r.chain ≠ "")
    (h : (host.installForward fates f guestIp tap).1 = .error e) :
    (host.installForward fates f guestIp tap).2.nft.rules =
        host.nft.rules.filter (fun r => !r.comment.any (· = forwardTag tap f.hostPort)) ∧
      (host.installForward fates f guestIp tap).2.forwards = host.forwards := by
  unfold Host.installForward at h ⊢
  simp only [hworks.add] at h ⊢
  split at h
  · cases h
  rename_i e' herr
  refine ⟨?_, rfl⟩
  change (removeForwardRules fates.nft f.hostPort tap _).2.rules = _
  rw [removeForwardRules_works hworks.list hworks.delete]
  · change ((host.nft.append _).rules).filter _ = _
    rw [Ruleset.rules_append, filter_append]
    simp [portForwardRule]
  intro r hr
  change r ∈ (host.nft.append _).rules at hr
  rw [Ruleset.rules_append] at hr
  rcases mem_append.mp hr with hr | hr
  · exact hchains r hr
  · have hchain : "prerouting" ≠ "" := by decide
    rw [mem_singleton.mp hr]
    exact hchain

lemma filter_untagged_iff (host : Host) (tap : String) (port : UInt16) :
    host.nft.rules.filter (fun r => !r.comment.any (· = forwardTag tap port)) = host.nft.rules ↔
      ¬host.Tagged tap port := by
  rw [filter_eq_self, Host.Tagged]
  constructor
  · rintro h ⟨r, hr, hcomment⟩
    have hkept := h r hr
    simp [hcomment] at hkept
  · intro h r hr
    rw [Bool.not_eq_true', Bool.eq_false_iff, ne_eq, Option.any_eq_true]
    rintro ⟨comment, hcomment, heq⟩
    exact h ⟨r, hr, hcomment.trans (congrArg some (of_decide_eq_true heq))⟩

/-- A request for a forward that fails while the packet filter works leaves all rules and rows as
they were exactly if the filter had no rule for that port on that TAP. -/
theorem failed_add_leaves_forwards_iff (host : Host) (std : Parsers) (net : Uuid → VmNet)
    (fates : AddFates) (name : String) (hostPort guestPort : UInt16) (bind : Option BindAddr)
    (hworks : fates.NftWorks) (hchains : ∀ r ∈ host.nft.rules, r.chain ≠ "") {e : AddError}
    (herr : (host.addPortForward std net fates name hostPort guestPort bind).1 = .error e) :
    SameForwards host (host.addPortForward std net fates name hostPort guestPort bind).2 ↔
      ∀ record guestIp tap, host.forwardTarget std net name bind = .ok (record, guestIp, tap) →
        ¬host.Tagged tap hostPort := by
  unfold Host.addPortForward at herr ⊢
  cases htarget : host.forwardTarget std net name bind with
  | error e => simp [SameForwards]
  | ok target =>
  obtain ⟨record, guestIp, tap⟩ := target
  simp only [htarget] at herr ⊢
  cases hfind : (if fates.listed then host.listPortForwardsForVm record else []).find? fun f =>
      f.hostPort = hostPort && f.guestPort = guestPort with
  | some found => simp [hfind] at herr
  | none =>
    simp only [hfind] at herr ⊢
    obtain ⟨hrules, hrows⟩ := installForward_error hworks hchains herr
    rw [SameForwards, hrules, hrows, filter_untagged_iff]
    simp

/-! ## Two forwards of one port -/

def natVms (_ : Uuid) : VmNet := ⟨.nat, some "10.20.30.4"⟩

def guestParsers : Parsers := ⟨fun text => if text = "10.20.30.4" then some 169090564 else none,
  fun _ => none⟩

def AddFates.smooth : AddFates := ⟨.smooth, none, true, none⟩

def noForwards : Host where
  vms := twoVms.vms
  forwards := []
  nft := Ruleset.empty
  counters _ := none
  ids := by decide
  names := by decide
  taps := by decide
  tap_text := by decide
  owned := by simp

def oneForward : Host :=
  (noForwards.addPortForward guestParsers natVms .smooth "a" 8080 80 none).2

lemma AddFates.smooth_works : AddFates.smooth.NftWorks := ⟨rfl, fun _ _ => rfl, rfl⟩

lemma oneForward_chains : ∀ r ∈ oneForward.nft.rules, r.chain ≠ "" := by decide +kernel

/-- The port of another VM is refused and both sides stay as they were. -/
theorem other_vm_keeps_forward :
    (oneForward.addPortForward guestParsers natVms .smooth "b" 8080 81 none).1 =
      .error (.portForwardConflict 8080) ∧
    SameForwards oneForward
      (oneForward.addPortForward guestParsers natVms .smooth "b" 8080 81 none).2 := by
  have herr : (oneForward.addPortForward guestParsers natVms .smooth "b" 8080 81 none).1 =
      .error (.portForwardConflict 8080) := by decide +kernel
  refine ⟨herr, (failed_add_leaves_forwards_iff oneForward guestParsers natVms .smooth "b" 8080 81
    none AddFates.smooth_works oneForward_chains herr).mpr fun record guestIp tap htarget => ?_⟩
  have hb : oneForward.forwardTarget guestParsers natVms "b" none =
      .ok (secondVm, 169090564, "husker4") := by decide +kernel
  rw [hb] at htarget
  cases htarget
  rintro ⟨r, hr, hcomment⟩
  revert r
  decide +kernel

/-- Asked for its own port with another guest port, the VM loses the rule of the forward it has;
the row stays. -/
theorem refused_forward_takes_working_rule :
    (noForwards.addPortForward guestParsers natVms .smooth "a" 8080 80 none).1 =
      .ok ⟨.ofNat 1, 8080, 80⟩ ∧
    (oneForward.addPortForward guestParsers natVms .smooth "a" 8080 81 none).1 =
      .error (.portForwardConflict 8080) ∧
    oneForward.nft.rules = [portForwardRule 8080 169090564 80 "husker3"] ∧
    (oneForward.addPortForward guestParsers natVms .smooth "a" 8080 81 none).2.nft.rules = [] ∧
    (oneForward.addPortForward guestParsers natVms .smooth "a" 8080 81 none).2.forwards =
      [⟨.ofNat 1, 8080, 80⟩] := by
  refine ⟨?_, ?_, ?_, ?_, ?_⟩ <;> decide +kernel

end Husker.Net
