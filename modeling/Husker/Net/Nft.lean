import Husker.Net.Address
import Husker.Relational.Ruleset

/-! # Tables of the packet filter

The daemon finds its rules by their comments and deletes them by chain and handle.  Whatever a
command does, it may also be refused.
-/
namespace Husker.Net
open Relational List Ruleset

/-- A rule of some chain; `β` is what it matches and does. -/
structure NftRule (β : Type) where
  chain : String
  comment : Option String
  body : β
  deriving DecidableEq

/-- The rules of all chains of a table; only the order within a chain matters. -/
abbrev NftTable (β : Type) := Ruleset (NftRule β)

/-- How the commands of one call went: an error for each that was refused. -/
structure NftFates where
  list : Option NetError
  delete : String → ℕ → Option NetError
  script : Option NetError

def NftFates.smooth : NftFates := ⟨none, fun _ _ => none, none⟩

def contains (text part : String) : Bool :=
  text.toList.tails.any fun rest => part.toList.isPrefixOf rest

def isMissingNftTableError : NetError → Bool
  | .commandFailed _ message => contains message "No such file or directory"
  | _ => false

def NetError.toText : NetError → String
  | .poolExhausted => "no addresses available in pool"
  | .notAllocated ip =>
    let text := Ipv4Addr.toText ip
    s!"address not owned by this allocator: {text}"
  | .commandFailed cmd message => s!"command failed: {cmd}: {message}"
  | .io message => s!"IO error: {message}"
  | .invalidInterfaceName name reason => s!"invalid interface name '{name}': {reason}"

variable {β : Type}

def findRules (t : NftTable β) (p : String → Bool) : List (String × ℕ) :=
  t.entries.filterMap fun e =>
    if e.rule.comment.any p ∧ e.rule.chain ≠ "" ∧ 0 < e.handle then some (e.rule.chain, e.handle)
    else none

def findRulesByComment (t : NftTable β) (commentTag : String) : List (String × ℕ) :=
  findRules t (· = commentTag)

def findRulesByCommentPrefix (t : NftTable β) (pre : String) : List (String × ℕ) :=
  findRules t fun comment => pre.toList.isPrefixOf comment.toList

def deleteRules (nft : NftFates) (describe : String → ℕ → NetError → String) :
    List (String × ℕ) → NftTable β → List String × NftTable β
  | [], t => ([], t)
  | (chain, handle) :: rules, t =>
    match nft.delete chain handle with
    | none => deleteRules nft describe rules (t.delete handle)
    | some e =>
      let (failures, t) := deleteRules nft describe rules t
      (describe chain handle e :: failures, t)

/-! ## What a deletion leaves -/

variable {t : NftTable β} {p : String → Bool}

lemma mem_findRules {e : Entry (NftRule β)} (he : e ∈ t.entries) :
    e.handle ∈ (findRules t p).map Prod.snd ↔ e.rule.comment.any p = true ∧ e.rule.chain ≠ "" := by
  simp only [findRules, mem_map, mem_filterMap]
  constructor
  · rintro ⟨x, ⟨e', he', hx⟩, hhandle⟩
    split_ifs at hx with hfound
    rw [← Option.some.inj hx] at hhandle
    obtain rfl := handle_inj he' he hhandle
    exact ⟨hfound.1, hfound.2.1⟩
  · rintro ⟨hcomment, hchain⟩
    exact ⟨_, ⟨e, he, if_pos ⟨hcomment, hchain, (t.range e he).1⟩⟩, rfl⟩

lemma deleteRules_spec (nft : NftFates) (describe : String → ℕ → NetError → String)
    (rules : List (String × ℕ)) (t : NftTable β) : ∃ handles, handles ⊆ rules.map Prod.snd ∧
      (deleteRules nft describe rules t).2 = handles.foldl delete t ∧
      ((deleteRules nft describe rules t).1 = [] → handles = rules.map Prod.snd) := by
  induction rules generalizing t with
  | nil => exact ⟨[], by simp, rfl, fun _ => rfl⟩
  | cons x rules ih =>
  obtain ⟨chain, handle⟩ := x
  rw [deleteRules]
  cases hfate : nft.delete chain handle with
  | none =>
    obtain ⟨handles, hsub, heq, hall⟩ := ih (t.delete handle)
    exact ⟨handle :: handles, cons_subset_cons _ hsub, heq, fun h => by rw [hall h]; rfl⟩
  | some e =>
    obtain ⟨handles, hsub, heq, -⟩ := ih t
    exact ⟨handles, fun h hh => .tail _ (hsub hh), heq, by simp⟩

lemma deleteRules_frame (nft : NftFates) (describe : String → ℕ → NetError → String)
    {o : NftRule β → Bool} (ho : ∀ r, o r = true → r.comment.any p = false) :
    (deleteRules nft describe (findRules t p) t).2.rules.filter o = t.rules.filter o := by
  obtain ⟨handles, hsub, heq, -⟩ := deleteRules_spec nft describe (findRules t p) t
  rw [heq, rules, rules, entries_foldl_delete, filter_map, filter_map, filter_filter]
  refine congrArg (List.map Entry.rule) (filter_congr fun e he => ?_)
  by_cases howned : o e.rule = true
  · have hkept : e.handle ∉ handles := fun hmem => by
      have hfound := ((mem_findRules he).mp (hsub hmem)).1
      rw [ho e.rule howned] at hfound
      exact absurd hfound (by simp)
    simp [howned, hkept]
  · simp [howned]

variable {describe : String → ℕ → NetError → String} {nft : NftFates}

lemma mem_of_deleteRules {rules : List (String × ℕ)} {r : NftRule β} (h : r ∈ (deleteRules nft describe rules t).2.rules) :
    r ∈ t.rules := by
  obtain ⟨handles, -, heq, -⟩ := deleteRules_spec nft describe rules t
  rw [heq, Ruleset.rules, entries_foldl_delete] at h
  obtain ⟨e, he, rfl⟩ := mem_map.mp h
  exact mem_map_of_mem (mem_of_mem_filter he)

lemma deleteRules_all (hchains : ∀ r ∈ t.rules, r.chain ≠ "")
    (h : (deleteRules nft describe (findRules t p) t).1 = []) :
    (deleteRules nft describe (findRules t p) t).2.rules =
      t.rules.filter fun r => !r.comment.any p := by
  obtain ⟨handles, -, heq, hall⟩ := deleteRules_spec nft describe (findRules t p) t
  rw [heq, hall h]
  refine rules_foldl_delete fun e he => ?_
  rw [mem_findRules he]
  exact and_iff_left (hchains e.rule (mem_map_of_mem he))

end Husker.Net
