import Husker.Relational.Machine

/-! # The cap on VMs

`create_vm` counts the records before it starts a creation, which inserts its own record much
later and under the lock of its name only.
-/
namespace Husker.Api
open Relational List Option

structure VmRecord where
  name : String
  terminal : Bool

/-- The records, and the names of the creations that wait for the lock or hold it. -/
structure Daemon where
  vms : List VmRecord
  waiting : List String
  creating : List String

inductive Event
  | createVm (name : String) (listed : Bool)
  | lockName (name : String) (read : Bool)
  | insertVm (name : String)
  | fail (name : String) (locked : Bool)
  | stop (name : String)
  | destroy (name : String)

namespace Daemon

variable (s : Daemon) (name : String)

def without : List VmRecord := s.vms.filter (·.name ≠ name)

/-- The handler up to the start of the creation; a list that cannot be read counts as empty. -/
def createVm (maxVms : Option ℕ) (listed : Bool) : Daemon :=
  let current := if listed then s.vms.length else 0
  if maxVms.any (· ≤ current) then s else { s with waiting := name :: s.waiting }

/-- `create_vm_record_inner` takes the lock: a stopped VM of the name is destroyed, any other is
an error, and a record that cannot be read is taken for none. -/
def lockName (read : Bool) : Option Daemon :=
  let waiting := s.waiting.erase name
  if name ∈ s.waiting ∧ name ∉ s.creating then
    match s.vms.find? fun vm => read && vm.name = name with
    | none => some ⟨s.vms, waiting, name :: s.creating⟩
    | some vm =>
      if vm.terminal then some ⟨s.without name, waiting, name :: s.creating⟩
      else some { s with waiting }
  else none

def step (maxVms : Option ℕ) : Event → Option Daemon
  | .createVm name listed => some (s.createVm name maxVms listed)
  | .lockName name read => s.lockName name read
  | .insertVm name =>
    -- The name of a record is unique.
    if name ∈ s.creating ∧ ∀ vm ∈ s.vms, vm.name ≠ name then
      some ⟨s.vms ++ [⟨name, false⟩], s.waiting, s.creating.erase name⟩
    else none
  | .fail name true => some { s with creating := s.creating.erase name }
  | .fail name false => some { s with waiting := s.waiting.erase name }
  | .stop name => some { s with
      vms := s.vms.map fun vm => if vm.name = name then { vm with terminal := true } else vm }
  | .destroy name => if name ∈ s.creating then none else some { s with vms := s.without name }

/-- The records there would be if every unfinished creation inserted its own. -/
def promised : ℕ := s.vms.length + s.waiting.length + s.creating.length

/-- An admitted call leaves room for every creation that has not ended, its own included. -/
def Fits (m : ℕ) : Event → Prop
  | .createVm name listed => (s.createVm name (some m) listed).promised ≤ m
  | _ => True

variable {s} {name} {s' : Daemon}

lemma without_length_le : (s.without name).length ≤ s.vms.length := length_filter_le _ _

lemma lockName_promised {read : Bool} (h : s.lockName name read = some s') :
    s'.promised ≤ s.promised := by
  obtain ⟨⟨hin, -⟩, h⟩ := ite_none_right_eq_some.mp h
  have hleft := length_erase_add_one hin
  have hgone := @without_length_le s name
  split at h
  · cases h
    grind [promised]
  · split_ifs at h <;> cases h <;> grind [promised]

lemma step_promised {m : ℕ} {a : Event} (hle : s.promised ≤ m) (hfits : s.Fits m a)
    (h : s.step (some m) a = some s') : s'.promised ≤ m := by
  cases a with
  | createVm name listed =>
    cases h
    exact hfits
  | lockName name read => exact (lockName_promised h).trans hle
  | insertVm name =>
    obtain ⟨⟨hin, -⟩, h⟩ := ite_none_right_eq_some.mp h
    cases h
    have hleft := length_erase_add_one hin
    simp only [promised, length_append, length_singleton] at hle ⊢
    omega
  | fail name locked =>
    cases locked <;> cases h <;> grind [promised]
  | stop name =>
    cases h
    simpa [promised] using hle
  | destroy name =>
    obtain ⟨-, h⟩ := ite_none_left_eq_some.mp h
    cases h
    grind [promised, without_length_le]

end Daemon

def api (maxVms : Option ℕ) : Machine Daemon Event := .ofStep fun s => s.step maxVms

end Husker.Api
