import Husker.Service.Calls

/-! # The snapshot catalogue

A snapshot is a file and a record of it.  Creating one clones the file under the lock of its VM and
then inserts the record; deleting one reads the record, removes the file and then the record.
-/
namespace Husker.Snapshot
open Relational List Option Function
open Service (validateResourceName)

/-! ## Calls -/

structure SnapshotRecord where
  id : ℕ
  name : String
  sourceVmName : String
  filePath : String
  cloned : List UInt8

def snapshotPath (name : String) : String := name ++ ".ext4"

/-- What `create_snapshot` reads of a VM. -/
structure Vm where
  stopped : Bool
  reconciled : Bool
  rootfs : Option (List UInt8)

inductive Place where
  | createCalled (name vm : String)
  | createLocked (name vm : String)
  | createChecked (name vm : String)
  | createReady (name vm : String)
  /-- The clone failed and its leftovers are to be removed. -/
  | createFailed (name vm : String)
  | createCloned (name vm : String) (bytes : List UInt8)
  /-- The record was not inserted and the file is to be removed. -/
  | createUnrecorded (name vm : String)
  | deleteCalled (name : String)
  | deleteFound (record : SnapshotRecord)
  | deleteRemoved (record : SnapshotRecord)

def Place.name : Place → String
  | .createCalled name _ | .createLocked name _ | .createChecked name _ | .createReady name _
  | .createFailed name _ | .createCloned name _ _ | .createUnrecorded name _ | .deleteCalled name => name
  | .deleteFound record | .deleteRemoved record => record.name

structure Catalogue where
  vms : String → Option Vm
  files : String → Option (List UInt8)
  records : List SnapshotRecord
  issued : List ℕ
  lock : String → Option ℕ
  calls : List (ℕ × Place)

namespace Catalogue

variable (s : Catalogue)

def move (t : ℕ) (a : Place) : Catalogue :=
  { s with calls := (t, a) :: s.calls.filter fun p => p.1 ≠ t }

def done (t : ℕ) : Catalogue := { s with calls := s.calls.filter fun p => p.1 ≠ t }

def unlock (vm : String) : Catalogue := { s with lock := Function.update s.lock vm none }

def setFile (path : String) (file : Option (List UInt8)) : Catalogue :=
  { s with files := Function.update s.files path file }

def draw (id : ℕ) : Catalogue := { s with issued := id :: s.issued }

def insertSnapshot (record : SnapshotRecord) : Catalogue := { s with records := s.records ++ [record] }

/-- One step of a call; `fails` is an error of the file system or the store, and `id` is what the
random generator draws. -/
def run (t : ℕ) (fails : Bool) (id : ℕ) : Place → Option Catalogue
  | .createCalled name vm =>
    match validateResourceName "snapshot" name with
    | .error _ => some (s.done t)
    | .ok _ =>
      if s.lock vm = none then
        some ({ s with lock := Function.update s.lock vm (some t) }.move t (.createLocked name vm))
      else none
  | .createLocked name vm =>
    match s.vms vm with
    | some v => if v.reconciled && v.stopped && !fails then some (s.move t (.createChecked name vm))
      else some ((s.unlock vm).done t)
    | none => some ((s.unlock vm).done t)
  | .createChecked name vm =>
    if fails then some ((s.unlock vm).done t) else some (s.move t (.createReady name vm))
  | .createReady name vm =>
    match (s.vms vm).bind Vm.rootfs, s.files (snapshotPath name) with
    | some bytes, none =>
      if fails then some (s.move t (.createFailed name vm))
      else some ((s.setFile (snapshotPath name) (some bytes)).move t (.createCloned name vm bytes))
    -- no source, or a destination that is refused
    | _, _ => some ((s.unlock vm).done t)
  | .createFailed name vm =>
    let s := if fails then s else s.setFile (snapshotPath name) none
    some ((s.unlock vm).done t)
  | .createCloned name vm bytes =>
    if id ∈ s.issued then none
    else if fails || s.records.any (fun r => r.name = name) then
      some ((s.draw id).move t (.createUnrecorded name vm))
    else
      some ((((s.draw id).insertSnapshot ⟨id, name, vm, snapshotPath name, bytes⟩).unlock vm).done t)
  | .createUnrecorded name vm =>
    let s := if fails then s else s.setFile (snapshotPath name) none
    some ((s.unlock vm).done t)
  | .deleteCalled name =>
    match s.records.find? (fun r => r.name = name) with
    | some record => if fails then some (s.done t) else some (s.move t (.deleteFound record))
    | none => some (s.done t)
  | .deleteFound record =>
    if fails then some (s.done t)
    else some ((s.setFile record.filePath none).move t (.deleteRemoved record))
  | .deleteRemoved record =>
    if fails then some (s.done t)
    else some ({ s with records := s.records.filter fun r => r.id ≠ record.id }.done t)

end Catalogue

inductive Action where
  | create (t : ℕ) (name vm : String)
  | delete (t : ℕ) (name : String)
  | advance (t : ℕ) (fails : Bool) (id : ℕ)
  | setVm (vm : String) (v : Option Vm)
  | crash

def Catalogue.step (s : Catalogue) : Action → Option Catalogue
  | .create t name vm => if s.calls.any (fun p => p.1 = t) then none
    else some (s.move t (.createCalled name vm))
  | .delete t name => if s.calls.any (fun p => p.1 = t) then none
    else some (s.move t (.deleteCalled name))
  | .advance t fails id =>
    match s.calls.find? (fun p => p.1 = t) with
    | some p => s.run t fails id p.2
    | none => none
  | .setVm vm v => some { s with vms := Function.update s.vms vm v }
  | .crash => some { s with calls := [], lock := fun _ => none }

def catalogue : Machine Catalogue Action := .ofStep Catalogue.step

def Catalogue.empty (vms : String → Option Vm) : Catalogue :=
  ⟨vms, fun _ => none, [], [], fun _ => none, []⟩

/-! ## Files and records -/

structure Settled (s : Catalogue) (name : String) : Prop where
  recorded : ∀ r ∈ s.records, r.name = name → s.files (snapshotPath name) = some r.cloned
  unrecorded : (∀ r ∈ s.records, r.name ≠ name) → s.files (snapshotPath name) = none

def Place.torn : Place → Bool
  | .createCloned .. | .createUnrecorded .. | .deleteRemoved .. => true
  | _ => false

def Place.Holds (s : Catalogue) : Place → Prop
  | .createCloned name _ bytes =>
    s.files (snapshotPath name) = some bytes ∧ ∀ r ∈ s.records, r.name ≠ name
  | .createFailed name _ | .createUnrecorded name _ => ∀ r ∈ s.records, r.name ≠ name
  | .deleteFound record => record ∈ s.records
  | .deleteRemoved record => record ∈ s.records ∧ s.files (snapshotPath record.name) = none
  | _ => True

structure Filed (s : Catalogue) : Prop where
  path : ∀ r ∈ s.records, r.filePath = snapshotPath r.name
  unique : ∀ r ∈ s.records, ∀ x ∈ s.records, r.name = x.name ∨ r.id = x.id → r = x
  issued : ∀ r ∈ s.records, r.id ∈ s.issued

structure Sound (s : Catalogue) : Prop where
  filed : Filed s
  apart : ∀ p ∈ s.calls, ∀ q ∈ s.calls, p.1 = q.1 ∨ p.2.name = q.2.name → p = q
  held : ∀ p ∈ s.calls, p.2.Holds s
  settled : ∀ name, (∀ p ∈ s.calls, p.2.name = name → p.2.torn = false) → Settled s name

structure Touches (name : String) (s s' : Catalogue) : Prop where
  files : ∀ other, other ≠ name → s'.files (snapshotPath other) = s.files (snapshotPath other)
  records : ∀ r : SnapshotRecord, r.name ≠ name → (r ∈ s'.records ↔ r ∈ s.records)

lemma snapshotPath_injective : Function.Injective snapshotPath := by
  intro a b h
  simpa [snapshotPath] using h

variable {p : ℕ × Place} {bytes : List UInt8} {record : SnapshotRecord}

open Catalogue Place

section
variable {s s' : Catalogue} {t : ℕ} {a b : Place} {name : String}

lemma Touches.settled (h : Touches name s s') {other : String} (hne : other ≠ name)
    (hother : Settled s other) : Settled s' other := by
  constructor
  · intro r hr hname
    rw [h.files other hne]
    exact hother.recorded r ((h.records r (hname ▸ hne)).mp hr) hname
  · intro hnone
    rw [h.files other hne]
    refine hother.unrecorded fun r hr hname => ?_
    exact hnone r ((h.records r (hname ▸ hne)).mpr hr) hname

lemma Touches.held (h : Touches name s s') (hne : a.name ≠ name) (ha : a.Holds s) : a.Holds s' := by
  have hnone : ∀ other, other ≠ name → (∀ r ∈ s.records, r.name ≠ other) →
      ∀ r ∈ s'.records, r.name ≠ other := by
    intro other hother hall r hr hname
    exact hall r ((h.records r (hname ▸ hother)).mp hr) hname
  cases a with
  | createCloned n vm bytes => exact ⟨(h.files n hne).trans ha.1, hnone n hne ha.2⟩
  | createFailed n vm | createUnrecorded n vm => exact hnone n hne ha
  | deleteFound record => exact (h.records record hne).mpr ha
  | deleteRemoved record => exact ⟨(h.records record hne).mpr ha.1, (h.files _ hne).trans ha.2⟩
  | _ => trivial

lemma Sound.here (h : Sound s) (ha : (t, a) ∈ s.calls) (hwhole : a.torn = false) :
    Settled s a.name := by
  refine h.settled a.name fun p hp hname => ?_
  rw [h.apart p hp (t, a) ha (.inr hname)]
  exact hwhole

lemma Sound.after (h : Sound s) (ha : (t, a) ∈ s.calls) (next : Option Place)
    (htouch : Touches a.name s s') (hfiled : Filed s')
    (hmem : ∀ p, p ∈ s'.calls ↔ (∃ b ∈ next, p = (t, b)) ∨ p ∈ s.calls ∧ p.1 ≠ t)
    (hnext : ∀ b ∈ next, b.name = a.name ∧ b.Holds s')
    (hsettled : (∀ b ∈ next, b.torn = false) → Settled s' a.name) : Sound s' := by
  have hothers : ∀ p ∈ s.calls, p.1 ≠ t → p.2.name ≠ a.name := by
    intro p hp hne hsame
    exact hne (congrArg Prod.fst (h.apart p hp (t, a) ha (.inr hsame)))
  have hagain : ∀ b ∈ next, ∀ q ∈ s.calls, q.1 ≠ t → ¬(t = q.1 ∨ b.name = q.2.name) := by
    rintro b hb q hq hqt (hid | hsame)
    · exact hqt hid.symm
    · exact hothers q hq hqt (hsame.symm.trans (hnext b hb).1)
  refine ⟨hfiled, fun p hp q hq hpq => ?_, fun p hp => ?_, fun n hn => ?_⟩
  · rcases (hmem p).mp hp with ⟨b, hb, rfl⟩ | ⟨hp, hpt⟩
    · rcases (hmem q).mp hq with ⟨b', hb', rfl⟩ | ⟨hq, hqt⟩
      · rw [mem_unique hb hb']
      · exact absurd hpq (hagain b hb q hq hqt)
    · rcases (hmem q).mp hq with ⟨b', hb', rfl⟩ | ⟨hq, hqt⟩
      · exact absurd (hpq.imp Eq.symm Eq.symm) (hagain b' hb' p hp hpt)
      · exact h.apart p hp q hq hpq
  · rcases (hmem p).mp hp with ⟨b, hb, rfl⟩ | ⟨hp, hpt⟩
    · exact (hnext b hb).2
    · exact htouch.held (hothers p hp hpt) (h.held p hp)
  · by_cases hna : n = a.name
    · subst hna
      exact hsettled fun b hb => hn (t, b) ((hmem _).mpr (.inl ⟨b, hb, rfl⟩)) (hnext b hb).1
    · refine htouch.settled hna (h.settled n fun p hp hpn => ?_)
      have hpt : p.1 ≠ t := by
        intro hpt
        rw [h.apart p hp (t, a) ha (.inl hpt)] at hpn
        exact hna hpn.symm
      exact hn p ((hmem p).mpr (.inr ⟨hp, hpt⟩)) hpn

lemma mem_calls_move :
    p ∈ (s.move t b).calls ↔ (∃ c ∈ some b, p = (t, c)) ∨ p ∈ s.calls ∧ p.1 ≠ t := by
  simp [move]

lemma mem_calls_done :
    p ∈ (s.done t).calls ↔ (∃ c ∈ (none : Option Place), p = (t, c)) ∨ p ∈ s.calls ∧ p.1 ≠ t := by
  simp [done]

structure Same (s s' : Catalogue) : Prop where
  files : s'.files = s.files
  records : s'.records = s.records
  issued : s.issued ⊆ s'.issued

lemma Same.touches (h : Same s s') : Touches name s s' :=
  ⟨fun _ _ => by rw [h.files], fun _ _ => by rw [h.records]⟩

lemma Same.settled (h : Same s s') (hs : Settled s name) : Settled s' name :=
  ⟨by rw [h.files, h.records]; exact hs.recorded, by rw [h.files, h.records]; exact hs.unrecorded⟩

lemma Same.filed (h : Same s s') (hs : Filed s) : Filed s' := by
  refine ⟨?_, ?_, ?_⟩
  · rw [h.records]
    exact hs.path
  · rw [h.records]
    exact hs.unique
  · rw [h.records]
    exact fun r hr => h.issued (hs.issued r hr)

lemma Same.held (h : Same s s') (ha : a.Holds s) : a.Holds s' := by
  cases a with
  | createCloned => exact ⟨by rw [h.files]; exact ha.1, by rw [h.records]; exact ha.2⟩
  | createFailed | createUnrecorded | deleteFound =>
    unfold Place.Holds
    rw [h.records]
    exact ha
  | deleteRemoved => exact ⟨by rw [h.records]; exact ha.1, by rw [h.files]; exact ha.2⟩
  | _ => trivial

lemma Sound.goes (h : Sound s) (ha : (t, a) ∈ s.calls) (hsame : Same s s') (next : Option Place)
    (hmem : ∀ p, p ∈ s'.calls ↔ (∃ b ∈ next, p = (t, b)) ∨ p ∈ s.calls ∧ p.1 ≠ t)
    (hnext : ∀ b ∈ next, b.name = a.name ∧ b.Holds s)
    (hwhole : (∀ b ∈ next, b.torn = false) → a.torn = false) : Sound s' := by
  apply h.after ha next hsame.touches (hsame.filed h.filed) hmem
  · exact fun b hb => ⟨(hnext b hb).1, hsame.held (hnext b hb).2⟩
  · exact fun hb => hsame.settled (h.here ha (hwhole hb))

lemma touches_setFile (s : Catalogue) (name : String) (file : Option (List UInt8)) :
    Touches name s (s.setFile (snapshotPath name) file) := by
  refine ⟨fun other hne => update_of_ne ?_ _ _, fun _ _ => Iff.rfl⟩
  exact fun heq => hne (snapshotPath_injective heq)

lemma settled_removed (hnone : ∀ r ∈ s.records, r.name ≠ name) :
    Settled (s.setFile (snapshotPath name) none) name :=
  ⟨fun r hr hname => absurd hname (hnone r hr), fun _ => update_self ..⟩

lemma Sound.removes (h : Sound s) (ha : (t, a) ∈ s.calls) (hnone : ∀ r ∈ s.records, r.name ≠ a.name)
    (vm : String) : Sound (((s.setFile (snapshotPath a.name) none).unlock vm).done t) := by
  have htouch := touches_setFile s a.name none
  have hsettled : Settled _ a.name := settled_removed hnone
  refine h.after ha none ⟨htouch.files, htouch.records⟩ ⟨h.filed.path, h.filed.unique, h.filed.issued⟩
    (fun p => mem_calls_done) (by simp) fun _ => ⟨hsettled.recorded, hsettled.unrecorded⟩

lemma Sound.clones (h : Sound s) {vm : String} (ha : (t, .createReady name vm) ∈ s.calls) (hfree : s.files (snapshotPath name) = none) :
    Sound ((s.setFile (snapshotPath name) (some bytes)).move t (.createCloned name vm bytes)) := by
  have htouch := touches_setFile s name (some bytes)
  refine h.after ha (some (.createCloned name vm bytes)) ⟨htouch.files, htouch.records⟩
    ⟨h.filed.path, h.filed.unique, h.filed.issued⟩ (fun p => mem_calls_move) ?_ ?_
  · rintro _ ⟨⟩
    refine ⟨rfl, update_self .., fun r hr hname => ?_⟩
    have hfile := (h.here ha rfl).recorded r hr hname
    cases hfree.symm.trans hfile
  · intro hwhole
    exact absurd (hwhole _ rfl) (by simp [torn])

lemma Sound.records (h : Sound s) {vm : String} {id : ℕ}
    (ha : (t, .createCloned name vm bytes) ∈ s.calls) (hid : id ∉ s.issued) :
    Sound ((((s.draw id).insertSnapshot ⟨id, name, vm, snapshotPath name, bytes⟩).unlock vm).done t) := by
  obtain ⟨hfile, hnone⟩ : s.files (snapshotPath name) = some bytes ∧ ∀ r ∈ s.records, r.name ≠ name :=
    h.held _ ha
  have hmem : ∀ r, r ∈ s.records ++ [⟨id, name, vm, snapshotPath name, bytes⟩] ↔
      r ∈ s.records ∨ r = ⟨id, name, vm, snapshotPath name, bytes⟩ := by simp
  refine h.after ha none ⟨fun _ _ => rfl, fun r hr => ?_⟩ ⟨?_, ?_, ?_⟩ (fun p => mem_calls_done)
    (by simp) fun _ => ⟨?_, ?_⟩
  · refine (hmem r).trans (or_iff_left fun heq => hr ?_)
    rw [heq]
    rfl
  · intro r hr
    rcases (hmem r).mp hr with hr | rfl
    · exact h.filed.path r hr
    · rfl
  · -- the new record shares neither its name nor its identifier with an old one
    have hnew : ∀ r ∈ s.records, ¬(r.name = name ∨ r.id = id) := by
      rintro r hr (heq | heq)
      · exact hnone r hr heq
      · exact hid (heq ▸ h.filed.issued r hr)
    intro r hr x hx heq
    rcases (hmem r).mp hr with hr | rfl
    · rcases (hmem x).mp hx with hx | rfl
      · exact h.filed.unique r hr x hx heq
      · exact absurd heq (hnew r hr)
    · rcases (hmem x).mp hx with hx | rfl
      · exact absurd (heq.imp Eq.symm Eq.symm) (hnew x hx)
      · rfl
  · intro r hr
    rcases (hmem r).mp hr with hr | rfl
    · exact .tail _ (h.filed.issued r hr)
    · exact .head _
  · intro r hr hname
    rcases (hmem r).mp hr with hr | rfl
    · exact absurd hname (hnone r hr)
    · exact hfile
  · intro hall
    exact absurd rfl (hall _ ((hmem _).mpr (.inr rfl)))

lemma Sound.unfiles (h : Sound s) (ha : (t, .deleteFound record) ∈ s.calls) :
    Sound ((s.setFile record.filePath none).move t (.deleteRemoved record)) := by
  have hrecord : record ∈ s.records := h.held _ ha
  rw [h.filed.path record hrecord]
  have htouch := touches_setFile s record.name none
  refine h.after ha (some (.deleteRemoved record)) ⟨htouch.files, htouch.records⟩
    ⟨h.filed.path, h.filed.unique, h.filed.issued⟩ (fun p => mem_calls_move) ?_ ?_
  · rintro _ ⟨⟩
    exact ⟨rfl, hrecord, update_self ..⟩
  · intro hwhole
    exact absurd (hwhole _ rfl) (by simp [torn])

lemma Sound.erases (h : Sound s) (ha : (t, .deleteRemoved record) ∈ s.calls) :
    Sound ({ s with records := s.records.filter fun r => r.id ≠ record.id }.done t) := by
  obtain ⟨hrecord, hfile⟩ : record ∈ s.records ∧ s.files (snapshotPath record.name) = none :=
    h.held _ ha
  have hmem : ∀ r, r ∈ s.records.filter (fun r => r.id ≠ record.id) ↔ r ∈ s.records ∧ r.id ≠ record.id := by
    intro r
    rw [mem_filter, decide_eq_true_eq]
  refine h.after ha none ⟨fun _ _ => rfl, fun r hr => ?_⟩ ⟨?_, ?_, ?_⟩ (fun p => mem_calls_done)
    (by simp) fun _ => ⟨?_, fun _ => hfile⟩
  · refine (hmem r).trans (and_iff_left_of_imp fun hin hid => ?_)
    exact hr (congrArg _ (h.filed.unique r hin record hrecord (.inr hid)))
  · exact fun r hr => h.filed.path r ((hmem r).mp hr).1
  · exact fun r hr x hx => h.filed.unique r ((hmem r).mp hr).1 x ((hmem x).mp hx).1
  · exact fun r hr => h.filed.issued r ((hmem r).mp hr).1
  · intro r hr hname
    obtain ⟨hr, hid⟩ := (hmem r).mp hr
    exact absurd (congrArg _ (h.filed.unique r hr record hrecord (.inl hname))) hid

end

/-! ## Runs -/

def Place.binding : Place → Bool
  | .createUnrecorded .. | .deleteRemoved .. => true
  | _ => false

/-- One call at a time on a snapshot, no crash between the file and the record of one, and no error
where a file or a record is taken back. -/
def Careful (s : Catalogue) : Action → Prop
  | .create _ name _ | .delete _ name => ∀ p ∈ s.calls, p.2.name ≠ name
  | .advance t fails _ => fails = true → ∀ p ∈ s.calls, p.1 = t → p.2.binding = false
  | .setVm .. => True
  | .crash => ∀ p ∈ s.calls, p.2.torn = false

variable {s s' : Catalogue} {t id : ℕ} {fails : Bool} {a : Place}

lemma run_sound (h : Sound s) (ha : (t, a) ∈ s.calls) (hbinding : fails = true → a.binding = false)
    (hrun : s.run t fails id a = some s') : Sound s' := by
  have hgone : ∀ vm, a.torn = false → Sound ((s.unlock vm).done t) := fun vm hwhole =>
    h.goes ha ⟨rfl, rfl, List.Subset.refl _⟩ none (fun p => mem_calls_done) (by simp) fun _ => hwhole
  have hreturns : a.torn = false → Sound (s.done t) := fun hwhole =>
    h.goes ha ⟨rfl, rfl, List.Subset.refl _⟩ none (fun p => mem_calls_done) (by simp) fun _ => hwhole
  have hmoves : ∀ b, a.torn = false → b.name = a.name → b.Holds s → Sound (s.move t b) :=
    fun b hwhole hname hb =>
      h.goes ha ⟨rfl, rfl, List.Subset.refl _⟩ (some b) (fun p => mem_calls_move)
        (by rintro _ ⟨⟩; exact ⟨hname, hb⟩) fun _ => hwhole
  cases a <;> simp only [run] at hrun
  case createCalled name vm =>
    split at hrun
    · cases hrun
      exact hreturns rfl
    · split at hrun <;> cases hrun
      · exact h.goes ha ⟨rfl, rfl, List.Subset.refl _⟩ (some (.createLocked name vm)) (fun p => mem_calls_move)
          (by rintro _ ⟨⟩; exact ⟨rfl, trivial⟩) fun _ => rfl
  case createLocked name vm =>
    split at hrun
    · split at hrun <;> cases hrun
      · exact hmoves _ rfl rfl trivial
      · exact hgone vm rfl
    · cases hrun
      exact hgone vm rfl
  case createChecked name vm =>
    split at hrun <;> cases hrun
    · exact hgone vm rfl
    · exact hmoves _ rfl rfl trivial
  case createReady name vm =>
    split at hrun
    case h_1 bytes hbytes hfree =>
      split at hrun <;> cases hrun
      · refine hmoves _ rfl rfl fun r hr hname => ?_
        have hfile := (h.here ha rfl).recorded r hr hname
        cases hfree.symm.trans hfile
      · exact h.clones ha hfree
    case h_2 =>
      cases hrun
      exact hgone vm rfl
  case createFailed name vm =>
    cases fails with
    | true =>
      cases hrun
      exact hgone vm rfl
    | false =>
      cases hrun
      exact h.removes ha (h.held _ ha) vm
  case createCloned name vm bytes =>
    split at hrun
    · cases hrun
    case isFalse hid =>
      split at hrun <;> cases hrun
      · refine h.goes ha ⟨rfl, rfl, subset_cons_self _ _⟩ (some (.createUnrecorded name vm))
          (fun p => mem_calls_move) ?_ fun hwhole => absurd (hwhole _ rfl) (by simp [torn])
        rintro _ ⟨⟩
        exact ⟨rfl, (h.held _ ha).2⟩
      · exact h.records ha hid
  case createUnrecorded name vm =>
    cases fails with
    | true => exact absurd (hbinding rfl) (by simp [binding])
    | false =>
      cases hrun
      exact h.removes ha (h.held _ ha) vm
  case deleteCalled name =>
    split at hrun
    case h_1 record hfind =>
      split at hrun <;> cases hrun
      · exact hreturns rfl
      · have hname : record.name = name := by simpa using find?_some hfind
        exact hmoves _ rfl hname (mem_of_find?_eq_some hfind)
    case h_2 =>
      cases hrun
      exact hreturns rfl
  case deleteFound record =>
    split at hrun <;> cases hrun
    · exact hreturns rfl
    · exact h.unfiles ha
  case deleteRemoved record =>
    cases fails with
    | true => exact absurd (hbinding rfl) (by simp [binding])
    | false =>
      cases hrun
      exact h.erases ha

lemma step_sound {a : Action} (h : Sound s) (hcareful : Careful s a)
    (hstep : s.step a = some s') : Sound s' := by
  have hstart : ∀ t b, (∀ p ∈ s.calls, p.1 ≠ t) → (∀ p ∈ s.calls, p.2.name ≠ b.name) → b.torn = false →
      b.Holds s → Sound (s.move t b) := by
    intro t b hid hname hwhole hb
    have hmem : ∀ p, p ∈ (s.move t b).calls ↔ p = (t, b) ∨ p ∈ s.calls := by
      intro p
      simp only [move, mem_cons, mem_filter, decide_eq_true_eq]
      exact or_congr_right (and_iff_left_of_imp (hid p))
    have hsame : Same s (s.move t b) := ⟨rfl, rfl, List.Subset.refl _⟩
    refine ⟨hsame.filed h.filed, fun p hp q hq hpq => ?_, fun p hp => ?_, fun n hn => ?_⟩
    · rcases (hmem p).mp hp with rfl | hp
      · rcases (hmem q).mp hq with rfl | hq
        · rfl
        · exact (hpq.elim (fun heq => hid q hq heq.symm) fun heq => hname q hq heq.symm).elim
      · rcases (hmem q).mp hq with rfl | hq
        · exact (hpq.elim (hid p hp) (hname p hp)).elim
        · exact h.apart p hp q hq hpq
    · rcases (hmem p).mp hp with rfl | hp
      · exact hsame.held hb
      · exact hsame.held (h.held p hp)
    · exact hsame.settled (h.settled n fun p hp => hn p ((hmem p).mpr (.inr hp)))
  cases a with
  | create t name vm | delete t name =>
    simp only [step] at hstep
    split at hstep
    · cases hstep
    case isFalse hfresh =>
      cases hstep
      refine hstart t _ (fun p hp heq => hfresh ?_) hcareful rfl trivial
      exact List.any_eq_true.mpr ⟨p, hp, decide_eq_true heq⟩
  | advance t fails id =>
    simp only [step] at hstep
    split at hstep
    case h_1 p hfind =>
      have hp := mem_of_find?_eq_some hfind
      obtain rfl : p.1 = t := by simpa using find?_some hfind
      exact run_sound h hp (fun hfails => hcareful hfails p hp rfl) hstep
    case h_2 => cases hstep
  | setVm vm v =>
    cases hstep
    have hsame : Same s { s with vms := update s.vms vm v } := ⟨rfl, rfl, List.Subset.refl _⟩
    exact ⟨hsame.filed h.filed, h.apart, fun p hp => hsame.held (h.held p hp),
      fun n hn => hsame.settled (h.settled n hn)⟩
  | crash =>
    cases hstep
    have hsame : Same s { s with calls := [], lock := fun _ => none } := ⟨rfl, rfl, List.Subset.refl _⟩
    exact ⟨hsame.filed h.filed, by simp, by simp,
      fun n _ => hsame.settled (h.settled n fun p hp _ => hcareful p hp)⟩

lemma sound_of_run {vms : String → Option Vm} {actions : List Action}
    (h : (catalogue.when Careful).Run (.empty vms) actions s) : Sound s := by
  refine h.invariant ⟨⟨?_, ?_, ?_⟩, ?_, ?_, ?_⟩ fun s a s' hs hstep => step_sound hs hstep.2 hstep.1
  all_goals simp [empty]
  exact fun name => ⟨by simp, by simp⟩

/-! ## Locks -/

def Place.vm : Place → Option String
  | .createLocked _ vm | .createChecked _ vm | .createReady _ vm | .createFailed _ vm
  | .createCloned _ vm _ | .createUnrecorded _ vm => some vm
  | _ => none

def Locked (s : Catalogue) : Prop :=
  ∀ vm t, s.lock vm = some t → ∃ a, (t, a) ∈ s.calls ∧ a.vm = some vm

inductive Passes (s : Catalogue) (t : ℕ) (a : Place) (s' : Catalogue) : Prop
  | moves (b : Place) (hcalls : s'.calls = (t, b) :: s.calls.filter fun p => p.1 ≠ t)
      (hlock : s'.lock = s.lock) (hvm : b.vm = a.vm)
  | takes (b : Place) (vm : String) (hcalls : s'.calls = (t, b) :: s.calls.filter fun p => p.1 ≠ t)
      (hlock : s'.lock = Function.update s.lock vm (some t)) (hvm : b.vm = some vm) (hnone : a.vm = none)
  | returns (hlock : s'.lock = s.lock) (hnone : a.vm = none)
      (hcalls : s'.calls = s.calls.filter fun p => p.1 ≠ t)
  | releases (vm : String) (hlock : s'.lock = Function.update s.lock vm none) (hvm : a.vm = some vm)
      (hcalls : s'.calls = s.calls.filter fun p => p.1 ≠ t)

lemma run_passes (hrun : s.run t fails id a = some s') : Passes s t a s' := by
  cases a <;> simp only [run] at hrun
  case createCalled name vm =>
    split at hrun
    · cases hrun
      exact .returns rfl rfl rfl
    · split at hrun <;> cases hrun
      exact .takes _ vm rfl rfl rfl rfl
  case createLocked name vm =>
    split at hrun
    · split at hrun <;> cases hrun
      · exact .moves _ rfl rfl rfl
      · exact .releases vm rfl rfl rfl
    · cases hrun
      exact .releases vm rfl rfl rfl
  case createChecked name vm =>
    split at hrun <;> cases hrun
    · exact .releases vm rfl rfl rfl
    · exact .moves _ rfl rfl rfl
  case createReady name vm =>
    split at hrun
    · split at hrun <;> cases hrun
      · exact .moves _ rfl rfl rfl
      · exact .moves _ rfl rfl rfl
    · cases hrun
      exact .releases vm rfl rfl rfl
  case createFailed name vm | createUnrecorded name vm =>
    cases fails <;> cases hrun <;> exact .releases vm rfl rfl rfl
  case createCloned name vm bytes =>
    split at hrun
    · cases hrun
    · split at hrun <;> cases hrun
      · exact .moves _ rfl rfl rfl
      · exact .releases vm rfl rfl rfl
  case deleteCalled name =>
    split at hrun
    · split at hrun <;> cases hrun
      · exact .returns rfl rfl rfl
      · exact .moves _ rfl rfl rfl
    · cases hrun
      exact .returns rfl rfl rfl
  case deleteFound record | deleteRemoved record =>
    split at hrun <;> cases hrun
    · exact .returns rfl rfl rfl
    · first | exact .moves _ rfl rfl rfl | exact .returns rfl rfl rfl

lemma Passes.locked (h : Passes s t a s')
    (hsound : Sound s) (ha : (t, a) ∈ s.calls) (hlocked : Locked s) : Locked s' := by
  -- the other calls keep their places, and this one knows its own lock
  have hother : ∀ vm u, s.lock vm = some u → (u = t ∧ a.vm = some vm) ∨
      ∃ b, (u, b) ∈ s.calls.filter (fun p => p.1 ≠ t) ∧ b.vm = some vm := by
    intro vm u hlock
    obtain ⟨b, hb, hvm⟩ := hlocked vm u hlock
    by_cases hu : u = t
    · subst hu
      have hsame := hsound.apart _ hb _ ha (.inl rfl)
      rw [Prod.mk.injEq] at hsame
      exact .inl ⟨rfl, hsame.2 ▸ hvm⟩
    · exact .inr ⟨b, mem_filter.mpr ⟨hb, by simpa using hu⟩, hvm⟩
  cases h with
  | moves b hcalls hlock hvm =>
    intro vm u hu
    rw [hlock] at hu
    rw [hcalls]
    rcases hother vm u hu with ⟨rfl, hown⟩ | ⟨b', hb', hvm'⟩
    · exact ⟨b, .head _, hvm.trans hown⟩
    · exact ⟨b', .tail _ hb', hvm'⟩
  | takes b vm hcalls hlock hvm hnone =>
    intro vm' u hu
    rw [hlock] at hu
    rw [hcalls]
    by_cases hvm' : vm' = vm
    · subst hvm'
      rw [update_self, some.injEq] at hu
      exact ⟨b, hu ▸ (.head _), hvm⟩
    · rw [update_of_ne hvm'] at hu
      rcases hother vm' u hu with ⟨-, hown⟩ | ⟨b', hb', hvm'⟩
      · cases hnone.symm.trans hown
      · exact ⟨b', .tail _ hb', hvm'⟩
  | returns hlock hnone hcalls =>
    intro vm u hu
    rw [hlock] at hu
    rw [hcalls]
    rcases hother vm u hu with ⟨-, hown⟩ | hothers
    · cases hnone.symm.trans hown
    · exact hothers
  | releases vm hlock hvm hcalls =>
  intro vm' u hu
  rw [hlock] at hu
  rw [hcalls]
  have hne : vm' ≠ vm := by
    rintro rfl
    simp at hu
  rw [update_of_ne hne] at hu
  rcases hother vm' u hu with ⟨-, hown⟩ | hothers
  · exact absurd (some.inj (hown.symm.trans hvm)) hne
  · exact hothers

lemma step_locked {a : Action} (h : Sound s) (hlocked : Locked s)
    (hstep : s.step a = some s') : Locked s' := by
  have hstart : ∀ t b, ¬(s.calls.any fun p => p.1 = t) = true → Locked (s.move t b) := by
    intro t b hfresh vm u hu
    obtain ⟨c, hc, hvm⟩ := hlocked vm u hu
    refine ⟨c, .tail _ (mem_filter.mpr ⟨hc, decide_eq_true fun heq => ?_⟩), hvm⟩
    exact hfresh (List.any_eq_true.mpr ⟨_, hc, decide_eq_true heq⟩)
  cases a with
  | create t name vm | delete t name =>
    simp only [step] at hstep
    split at hstep <;> cases hstep
    exact hstart _ _ ‹_›
  | advance t fails id =>
    simp only [step] at hstep
    split at hstep
    case h_1 p hfind =>
      have hp := mem_of_find?_eq_some hfind
      obtain rfl : p.1 = t := by simpa using find?_some hfind
      exact (run_passes hstep).locked h hp hlocked
    case h_2 => cases hstep
  | setVm vm v =>
    cases hstep
    exact hlocked
  | crash =>
    cases hstep
    intro vm t ht
    cases ht

/-! ## The catalogue -/

/-- The calls of `create_snapshot`. -/
def Place.creates : Place → Bool
  | .deleteCalled .. | .deleteFound .. | .deleteRemoved .. => false
  | _ => true

lemma create_spares (h : Sound s)
    (ha : (t, a) ∈ s.calls) (hcreates : a.creates = true) (hrun : s.run t fails id a = some s') :
    s.records <+: s'.records ∧ ∀ r ∈ s.records, s'.files r.filePath = s.files r.filePath := by
  have hspares : ∀ name file, (∀ r ∈ s.records, r.name ≠ name) → ∀ r ∈ s.records,
      (s.setFile (snapshotPath name) file).files r.filePath = s.files r.filePath := by
    intro name file hnone r hr
    rw [h.filed.path r hr]
    exact (touches_setFile s name file).files r.name (hnone r hr)
  cases a <;> simp only [run] at hrun
  case deleteCalled | deleteFound | deleteRemoved => cases hcreates
  case createCalled name vm =>
    split at hrun
    · cases hrun
      exact ⟨prefix_rfl, fun _ _ => rfl⟩
    · split at hrun <;> cases hrun
      exact ⟨prefix_rfl, fun _ _ => rfl⟩
  case createLocked name vm =>
    split at hrun
    · split at hrun <;> cases hrun <;> exact ⟨prefix_rfl, fun _ _ => rfl⟩
    · cases hrun
      exact ⟨prefix_rfl, fun _ _ => rfl⟩
  case createChecked name vm =>
    split at hrun <;> cases hrun <;> exact ⟨prefix_rfl, fun _ _ => rfl⟩
  case createReady name vm =>
    split at hrun
    case h_1 bytes hbytes hfree =>
      split at hrun <;> cases hrun
      · exact ⟨prefix_rfl, fun _ _ => rfl⟩
      · refine ⟨prefix_rfl, hspares name _ fun r hr hname => ?_⟩
        have hfile := (h.here ha rfl).recorded r hr hname
        cases hfree.symm.trans hfile
    case h_2 =>
      cases hrun
      exact ⟨prefix_rfl, fun _ _ => rfl⟩
  case createFailed name vm | createUnrecorded name vm =>
    cases fails <;> cases hrun
    · exact ⟨prefix_rfl, hspares name _ (h.held _ ha)⟩
    · exact ⟨prefix_rfl, fun _ _ => rfl⟩
  case createCloned name vm bytes =>
    split at hrun
    · cases hrun
    · split at hrun <;> cases hrun
      · exact ⟨prefix_rfl, fun _ _ => rfl⟩
      · exact ⟨prefix_append _ _, fun _ _ => rfl⟩

lemma step_move (s : Catalogue) (t id : ℕ) (fails : Bool) (a : Place) :
    (s.move t a).step (.advance t fails id) = (s.move t a).run t fails id a := by
  simp [step, move]

lemma create_succeeds (h : Sound s) (hlocked : Locked s) (hidle : s.calls = [])
    {name vm : String} {v : Vm} (hname : validateResourceName "snapshot" name = .ok ()) (hvm : s.vms vm = some v)
    (hready : v.stopped = true ∧ v.reconciled = true) (hrootfs : v.rootfs = some bytes)
    (hid : id ∉ s.issued) (hfree : ∀ r ∈ s.records, r.name ≠ name) :
    ∃ s', catalogue.Run s [.create 0 name vm, .advance 0 false id, .advance 0 false id,
        .advance 0 false id, .advance 0 false id, .advance 0 false id] s' ∧ s'.calls = [] ∧
      ⟨id, name, vm, snapshotPath name, bytes⟩ ∈ s'.records := by
  have hlock : s.lock vm = none := by
    cases hlock : s.lock vm with
    | none => rfl
    | some t =>
      obtain ⟨a, ha, -⟩ := hlocked vm t hlock
      rw [hidle] at ha
      cases ha
  have hfile : s.files (snapshotPath name) = none := by
    refine (h.settled name fun p hp => ?_).unrecorded hfree
    rw [hidle] at hp
    cases hp
  have hnone : s.records.any (fun r => r.name = name) = false := by
    rw [List.any_eq_false]
    exact fun r hr => by simpa using hfree r hr
  have hcreate : s.step (.create 0 name vm) = some (s.move 0 (.createCalled name vm)) := by
    simp [step, hidle]
  -- up to the clone only the lock and the place of the call change
  let locked : Catalogue := { s.move 0 (.createCalled name vm) with lock := update s.lock vm (some 0) }
  let ready := ((locked.move 0 (.createLocked name vm)).move 0 (.createChecked name vm))
  have hlocks : (s.move 0 (.createCalled name vm)).step (.advance 0 false id) =
      some (locked.move 0 (.createLocked name vm)) := by
    rw [step_move]
    simp only [run, hname]
    exact if_pos hlock
  have hchecks : (locked.move 0 (.createLocked name vm)).step (.advance 0 false id) = some ready := by
    have hvm' : (locked.move 0 (.createLocked name vm)).vms vm = some v := hvm
    rw [step_move]
    simp only [run, hvm', hready.1, hready.2]
    rfl
  have hprepares : ready.step (.advance 0 false id) = some (ready.move 0 (.createReady name vm)) := by
    rw [step_move]
    rfl
  let filed := (ready.move 0 (.createReady name vm)).setFile (snapshotPath name) (some bytes)
  have hclones : (ready.move 0 (.createReady name vm)).step (.advance 0 false id) =
      some (filed.move 0 (.createCloned name vm bytes)) := by
    have hsource : ((ready.move 0 (.createReady name vm)).vms vm).bind Vm.rootfs = some bytes := by
      change (s.vms vm).bind Vm.rootfs = some bytes
      rw [hvm]
      exact hrootfs
    have hfile' : (ready.move 0 (.createReady name vm)).files (snapshotPath name) = none := hfile
    rw [step_move]
    simp only [run, hsource, hfile']
    rfl
  have hrecords : (filed.move 0 (.createCloned name vm bytes)).step (.advance 0 false id) =
      some (((((filed.move 0 (.createCloned name vm bytes)).draw id).insertSnapshot
        ⟨id, name, vm, snapshotPath name, bytes⟩).unlock vm).done 0) := by
    have hid' : id ∉ (filed.move 0 (.createCloned name vm bytes)).issued := hid
    have hnone' : (filed.move 0 (.createCloned name vm bytes)).records.any (fun r => r.name = name) = false :=
      hnone
    rw [step_move]
    simp only [run, if_neg hid', hnone']
    rfl
  refine ⟨_, .cons hcreate (.cons hlocks (.cons hchecks (.cons hprepares (.cons hclones
    (.cons hrecords (.nil _)))))), ?_, ?_⟩
  · simp [filed, ready, locked, done, unlock, insertSnapshot, draw, move, setFile, hidle]
  · exact mem_append_right _ (mem_singleton_self _)

def oneVm (name : String) : Option Vm := if name = "web" then some ⟨true, true, some [1, 2]⟩ else none

def createOnce : List Action :=
  [.create 0 "base" "web", .advance 0 false 7, .advance 0 false 7, .advance 0 false 7,
   .advance 0 false 7, .advance 0 false 7]

end Husker.Snapshot
