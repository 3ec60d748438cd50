import Husker.Journal.Accept
import Husker.Journal.Lifecycle

/-! # The budget in exact arithmetic

The checks of an acceptance run on checked 64-bit integers.  They pass exactly when the same
sums, taken over the natural numbers, stay within the limits, so nothing wraps.
-/
namespace Husker.Journal
open Relational Store List Option UInt64 FactoryLimits

structure Reservation where
  vcpus : UInt64
  memory : UInt64
  disk : UInt64

/-- The reservation of a specification; none when a count is missing or zero. -/
def reservation (c : Codec) (specification : String) : Option Reservation := do
  let value ← c.fromStr specification
  let count := fun name => ((value.index "resources").index name).asU64.filter (0 < ·)
  return ⟨← count "vcpu_count", ← count "mem_size_mib", ← count "disk_size_bytes"⟩

def reserved (c : Codec) (r : JobRow) : Option Reservation := r.specification.bind (reservation c)

def Reservation.bootStorage (r : Reservation) : ℕ :=
  2 * r.disk.toNat + FactoryLimits.kernelBytes.toNat + FactoryLimits.initrdBytes.toNat +
    FactoryLimits.serialStorageBytes.toNat

variable {specifications : List String} {total : UInt64} {r : JobRow}

open Reservation

namespace FactoryResourceBudget

variable {c : Codec} {b : FactoryResourceBudget}

structure Fits (b : FactoryResourceBudget) (rs : List Reservation) : Prop where
  vcpus : (rs.map fun r => r.vcpus.toNat).sum ≤ b.maxVcpus.toNat
  memory : (rs.map fun r => r.memory.toNat + b.memoryOverheadMib.toNat).sum ≤ b.maxMemoryMib.toNat
  disks : (rs.map fun r => r.disk.toNat).sum ≤ b.maxRootDiskBytes.toNat
  bootStorage : (rs.map Reservation.bootStorage).sum ≤ b.maxBootStorageBytes.toNat

lemma Fits.nil (b : FactoryResourceBudget) : b.Fits [] := ⟨by simp, by simp, by simp, by simp⟩

variable {rs : List Reservation} {acc acc' : Charge} {specification : String} {retained : ℕ}

lemma Fits.sublist {rs' : List Reservation} (h : b.Fits rs) (hsub : rs'.Sublist rs) :
    b.Fits rs' := by
  have hsum (f : Reservation → ℕ) : (rs'.map f).sum ≤ (rs.map f).sum :=
    (hsub.map f).sum_le_sum fun _ _ => Nat.zero_le _
  exact ⟨(hsum _).trans h.vcpus, (hsum _).trans h.memory, (hsum _).trans h.disks,
    (hsum _).trans h.bootStorage⟩

structure Tallies (b : FactoryResourceBudget) (acc : Charge) (rs : List Reservation) : Prop where
  cpus : acc.cpus.toNat = (rs.map fun r => r.vcpus.toNat).sum
  memory : acc.memory.toNat = (rs.map fun r => r.memory.toNat + b.memoryOverheadMib.toNat).sum
  disks : acc.disks.toNat = (rs.map fun r => r.disk.toNat).sum
  bootStorage : acc.bootStorage.toNat = (rs.map Reservation.bootStorage).sum

lemma Tallies.nil (b : FactoryResourceBudget) : b.Tallies ⟨0, 0, 0, 0⟩ [] := ⟨rfl, rfl, rfl, rfl⟩

lemma Tallies.unique (h : b.Tallies acc rs) (h' : b.Tallies acc' rs) : acc = acc' := by
  cases acc
  cases acc'
  simp only [Charge.mk.injEq, ← UInt64.toNat_inj]
  exact ⟨h.cpus.trans h'.cpus.symm, h.memory.trans h'.memory.symm, h.disks.trans h'.disks.symm,
    h.bootStorage.trans h'.bootStorage.symm⟩

lemma Fits.tallies (h : b.Fits rs) : ∃ acc, b.Tallies acc rs := by
  have hnat {n : ℕ} {limit : UInt64} (hle : n ≤ limit.toNat) : (UInt64.ofNat n).toNat = n :=
    toNat_ofNat_of_lt' (hle.trans_lt limit.toNat_lt)
  exact ⟨⟨.ofNat _, .ofNat _, .ofNat _, .ofNat _⟩,
    ⟨hnat h.vcpus, hnat h.memory, hnat h.disks, hnat h.bootStorage⟩⟩

lemma exact_bootStorageOf (r : Reservation) : Exact (bootStorageOf r.disk) r.bootStorage := by
  have htwo : (2 : UInt64).toNat = 2 := rfl
  have hbounds : (kernelBytes + initrdBytes +
      serialStorageBytes).toNat = kernelBytes.toNat +
        initrdBytes.toNat + serialStorageBytes.toNat := by decide
  apply (exact_checkedMul r.disk 2).bind
  · intro x hx
    convert exact_checkedAdd x _ using 1
    rw [hx, hbounds, bootStorage, htwo]
    omega
  · rw [bootStorage, htwo]
    omega

lemma reservation_eq_some {r : Reservation} :
    reservation c specification = some r ↔ ∃ value, c.fromStr specification = some value ∧
      ((value.index "resources").index "vcpu_count").asU64.filter (0 < ·) = some r.vcpus ∧
      ((value.index "resources").index "mem_size_mib").asU64.filter (0 < ·) = some r.memory ∧
      ((value.index "resources").index "disk_size_bytes").asU64.filter (0 < ·) = some r.disk := by
  obtain ⟨vcpus, memory, disk⟩ := r
  simp only [reservation, bind_eq_bind, Option.pure_def, bind_eq_some_iff,
    some.injEq, Reservation.mk.injEq]
  constructor
  · rintro ⟨value, hvalue, _, hv, _, hm, _, hd, rfl, rfl, rfl⟩
    exact ⟨value, hvalue, hv, hm, hd⟩
  · rintro ⟨value, hvalue, hv, hm, hd⟩
    exact ⟨value, hvalue, _, hv, _, hm, _, hd, rfl, rfl, rfl⟩

lemma exact_memory (b : FactoryResourceBudget) (total m : UInt64) :
    Exact (checkedAdd total m >>= fun n => checkedAdd n b.memoryOverheadMib.toUInt64)
      (total.toNat + (m.toNat + b.memoryOverheadMib.toNat)) := by
  apply (exact_checkedAdd total m).bind
  · intro x hx
    convert exact_checkedAdd x _ using 1
    rw [hx, UInt32.toNat_toUInt64, Nat.add_assoc]
  · omega

lemma exact_bootStorage (total : UInt64) (r : Reservation) :
    Exact (bootStorageOf r.disk >>= fun n => checkedAdd total n)
      (total.toNat + r.bootStorage) := by
  apply (exact_bootStorageOf r).bind
  · intro x hx
    rw [← hx]
    exact exact_checkedAdd _ x
  · omega

lemma charge_eq_ok (hacc : b.Tallies acc rs) :
    b.charge c acc specification = .ok acc' ↔ ∃ r, reservation c specification = some r ∧
      b.Tallies acc' (rs ++ [r]) ∧ b.Fits (rs ++ [r]) := by
  obtain ⟨cpus, memory, disks, bootStorage⟩ := acc'
  have hsum (f : Reservation → ℕ) (r : Reservation) :
      ((rs ++ [r]).map f).sum = (rs.map f).sum + f r := by simp
  simp only [charge, resource, eq_ok, Charge.mk.injEq, le_iff_toNat_le]
  constructor
  · rintro ⟨value, hvalue, v, hv, _, hcpus, m, hm, _, hmemory, d, hd, _, hdisks, _, hboot, -, hc,
      -, hle, -, hdle, -, hble, rfl, rfl, rfl, rfl⟩
    have hcpus := (exact_checkedAdd _ _ _).mp hcpus
    have hmemory := (exact_memory b _ _ _).mp hmemory
    have hdisks := (exact_checkedAdd _ _ _).mp hdisks
    have hboot := (exact_bootStorage _ ⟨v, m, d⟩ _).mp hboot
    have htallies : b.Tallies ⟨_, _, _, _⟩ (rs ++ [⟨v, m, d⟩]) :=
      ⟨by rw [hsum, ← hacc.cpus]; exact hcpus, by rw [hsum, ← hacc.memory]; exact hmemory,
        by rw [hsum, ← hacc.disks]; exact hdisks, by rw [hsum, ← hacc.bootStorage]; exact hboot⟩
    refine ⟨⟨v, m, d⟩, reservation_eq_some.mpr ⟨value, hvalue, hv, hm, hd⟩, htallies, ?_⟩
    exact ⟨htallies.cpus ▸ hc, htallies.memory ▸ hle, htallies.disks ▸ hdle,
      htallies.bootStorage ▸ hble⟩
  · rintro ⟨r, hr, htallies, hfits⟩
    obtain ⟨value, hvalue, hv, hm, hd⟩ := reservation_eq_some.mp hr
    have hcpus := htallies.cpus
    have hmemory := htallies.memory
    have hdisks := htallies.disks
    have hboot := htallies.bootStorage
    rw [hsum, ← hacc.cpus] at hcpus
    rw [hsum, ← hacc.memory] at hmemory
    rw [hsum, ← hacc.disks] at hdisks
    rw [hsum, ← hacc.bootStorage] at hboot
    exact ⟨value, hvalue, _, hv, cpus, (exact_checkedAdd _ _ _).mpr hcpus, _, hm, memory,
      (exact_memory b _ _ _).mpr hmemory, _, hd, disks, (exact_checkedAdd _ _ _).mpr hdisks,
      bootStorage, (exact_bootStorage _ r _).mpr hboot, (), htallies.cpus ▸ hfits.vcpus,
      (), htallies.memory ▸ hfits.memory, (), htallies.disks ▸ hfits.disks,
      (), htallies.bootStorage ▸ hfits.bootStorage, rfl, rfl, rfl, rfl⟩

lemma foldlM_charge_eq_ok (hacc : b.Tallies acc rs)
    (hfits : b.Fits rs) : specifications.foldlM (b.charge c) acc = .ok acc' ↔
      ∃ rs', specifications.map (reservation c) = rs'.map some ∧
        b.Tallies acc' (rs ++ rs') ∧ b.Fits (rs ++ rs') := by
  induction specifications generalizing acc rs with
  | nil =>
    simp only [foldlM_nil, eq_ok, map_nil, eq_comm (a := []),
      map_eq_nil_iff, exists_eq_left, append_nil]
    constructor
    · rintro rfl
      exact ⟨hacc, hfits⟩
    · exact fun h => hacc.unique h.1
  | cons specification specifications ih =>
  simp only [foldlM_cons, eq_ok, charge_eq_ok hacc]
  constructor
  · rintro ⟨acc₁, ⟨r, hr, hacc₁, hfits₁⟩, hrest⟩
    obtain ⟨rs', hmap, hrest⟩ := (ih hacc₁ hfits₁).mp hrest
    exact ⟨r :: rs', by simp [hr, hmap], by simpa using hrest⟩
  rintro ⟨rs', hmap, hrest, hfits'⟩
  cases rs' with
  | nil => simp at hmap
  | cons r rs' =>
  simp only [map_cons, cons.injEq] at hmap
  rw [append_cons] at hrest hfits'
  have hfits₁ := hfits'.sublist (sublist_append_left (rs ++ [r]) rs')
  obtain ⟨acc₁, hacc₁⟩ := hfits₁.tallies
  exact ⟨acc₁, ⟨r, hmap.1, hacc₁, hfits₁⟩, (ih hacc₁ hfits₁).mpr ⟨rs', hmap.2, hrest, hfits'⟩⟩

/-- `check` passes exactly when the sums over all reservations fit, and returns the exact boot
storage. -/
lemma check_eq_ok : b.check c specifications = .ok total ↔
      ∃ rs, specifications.map (reservation c) = rs.map some ∧ b.Fits rs ∧
        total.toNat = (rs.map bootStorage).sum := by
  simp only [check, eq_ok, foldlM_charge_eq_ok (Tallies.nil b) (Fits.nil b), nil_append]
  constructor
  · rintro ⟨acc, ⟨rs, hmap, hacc, hfits⟩, rfl⟩
    exact ⟨rs, hmap, hfits, hacc.bootStorage⟩
  · rintro ⟨rs, hmap, hfits, htotal⟩
    obtain ⟨acc, hacc⟩ := hfits.tallies
    exact ⟨acc, ⟨rs, hmap, hacc, hfits⟩, UInt64.toNat_inj.mp (hacc.bootStorage.trans htotal.symm)⟩

lemma exact_journalRequired (b : FactoryResourceBudget) (h : retained < 2 ^ 64) :
    Exact (b.journalRequired retained)
      ((retained + 1) * journalHeadroomPerReceipt.toNat + b.minFreeStorageBytes.toNat) := by
  have hone : (1 : UInt64).toNat = 1 := rfl
  have hpos : 1 ≤ journalHeadroomPerReceipt.toNat := by decide
  have hgrow : retained + 1 ≤ (retained + 1) * journalHeadroomPerReceipt.toNat :=
    Nat.le_mul_of_pos_right _ hpos
  apply (exact_checkedAdd (UInt64.ofNat retained) 1).bind
  · intro n hn
    rw [toNat_ofNat_of_lt' h, hone] at hn
    apply (exact_checkedMul n journalHeadroomPerReceipt).bind
    · intro x hx
      rw [← hn, ← hx]
      exact exact_checkedAdd x _
    · rw [hn]
      omega
  · rw [toNat_ofNat_of_lt' h, hone]
    omega

lemma journalRequired_sub (h : retained < 2 ^ 64) {required : UInt64}
    (hrequired : b.journalRequired retained = some required) :
    b.minFreeStorageBytes ≤ required ∧ (required - b.minFreeStorageBytes).toNat =
      (retained + 1) * journalHeadroomPerReceipt.toNat := by
  have hexact := (exact_journalRequired b h required).mp hrequired
  have hle : b.minFreeStorageBytes ≤ required := by
    rw [le_iff_toNat_le, hexact]
    omega
  refine ⟨hle, ?_⟩
  rw [UInt64.toNat_sub_of_le _ _ hle, hexact, Nat.add_sub_cancel]

/-- The space that has to be free for the boot files, on top of the reserve. -/
def bootNeed (b : FactoryResourceBudget) (retained total : ℕ) (storage : FactoryAvailableStorage) :
    ℕ :=
  total + b.minFreeStorageBytes.toNat +
    if storage.sharedFilesystem then (retained + 1) * journalHeadroomPerReceipt.toNat else 0

lemma headroom_eq_ok (h : retained < 2 ^ 64) {storage : FactoryAvailableStorage} :
    b.headroom retained total storage = .ok () ↔
      (b.bootNeed retained total.toNat storage ≤
        (if storage.sharedFilesystem then min storage.bootBytes.toNat storage.journalBytes.toNat
          else storage.bootBytes.toNat)) ∧
      (retained + 1) * journalHeadroomPerReceipt.toNat + b.minFreeStorageBytes.toNat ≤
        storage.journalBytes.toNat := by
  have hjournal := exact_journalRequired b h
  have hboot := exact_checkedAdd total b.minFreeStorageBytes
  cases hshared : storage.sharedFilesystem with
  | true =>
    have hmin : (min storage.bootBytes storage.journalBytes).toNat =
        min storage.bootBytes.toNat storage.journalBytes.toNat := by
      rw [toNat_min]
    simp only [headroom, hshared, eq_ok, if_true, bootNeed, le_iff_toNat_le, hmin]
    constructor
    · rintro ⟨br, hbr, jr, hjr, x, hx, -, hle, hjle⟩
      rw [exact_checkedAdd _ _ _, (journalRequired_sub h hjr).2, (hboot br).mp hbr] at hx
      rw [hx] at hle
      rw [(hjournal jr).mp hjr] at hjle
      exact ⟨hle, hjle⟩
    rintro ⟨hle, hjle⟩
    obtain ⟨br, hbr, hbr'⟩ := hboot.exists_eq (y := storage.bootBytes) (by omega)
    obtain ⟨jr, hjr, hjr'⟩ := hjournal.exists_eq hjle
    have hextra := exact_checkedAdd br (jr - b.minFreeStorageBytes)
    rw [(journalRequired_sub h hjr).2, hbr'] at hextra
    obtain ⟨x, hx, hx'⟩ := hextra.exists_eq (y := storage.bootBytes) (by omega)
    exact ⟨br, hbr, jr, hjr, x, hx, (), by rw [hx']; exact hle, by rw [hjr']; exact hjle⟩
  | false =>
  simp only [headroom, hshared, eq_ok, bootNeed, le_iff_toNat_le, Bool.false_eq_true,
    if_false, Nat.add_zero]
  constructor
  · rintro ⟨br, hbr, jr, hjr, x, rfl, -, hle, hjle⟩
    rw [(hboot br).mp hbr] at hle
    rw [(hjournal jr).mp hjr] at hjle
    exact ⟨hle, hjle⟩
  · rintro ⟨hle, hjle⟩
    obtain ⟨br, hbr, hbr'⟩ := hboot.exists_eq hle
    obtain ⟨jr, hjr, hjr'⟩ := hjournal.exists_eq hjle
    exact ⟨br, hbr, jr, hjr, br, rfl, (), by rw [hbr']; exact hle, by rw [hjr']; exact hjle⟩

/-- The rows that hold a reservation keep within the budget: in number, and in each sum. -/
structure Covers (b : FactoryResourceBudget) (c : Codec) (rows : List JobRow) : Prop where
  jobs : (rows.filter charged).length ≤ b.maxJobs
  fits : ∃ rs, (rows.filter charged).map (reserved c) = rs.map some ∧ b.Fits rs

lemma Covers.of_sublist {rows rows' : List JobRow} (h : b.Covers c rows)
    (hsub : ((rows'.filter charged).map (reserved c)).Sublist
      ((rows.filter charged).map (reserved c))) : b.Covers c rows' := by
  constructor
  · simpa using hsub.length_le.trans (by simpa using h.jobs)
  · obtain ⟨rs, hmap, hfits⟩ := h.fits
    rw [hmap] at hsub
    obtain ⟨rs', hsub', hmap'⟩ := sublist_map_iff.mp hsub
    exact ⟨rs', hmap', hfits.sublist hsub'⟩

lemma mapM_orError {α β ε : Type} {f : α → Option β} {e : ε} {xs : List α} {ys : List β}
    (h : xs.mapM (fun x => orError (f x) e) = .ok ys) : xs.map f = ys.map some := by
  have hsome := congrArg (List.map Except.toOption) (mapM_eq_ok.mp h)
  have hread (x : α) : (orError (f x) e).toOption = f x := by cases f x <;> rfl
  rw [List.map_map, List.map_map] at hsome
  simp only [Function.comp_def, hread] at hsome
  exact hsome

lemma checkBudget_covers {db : Db} {q : BudgetRequest} (h : checkBudget c db specification q = .ok ()) (hr : r.specification = some specification)
    (hcharged : charged r = true) : q.budget.Covers c (db.jobs.rows ++ [r]) := by
  simp only [checkBudget, eq_ok] at h
  obtain ⟨-, hjobs, specifications, hspecs, total, hcheck, -⟩ := h
  obtain ⟨rs, hmap, hfits, -⟩ := check_eq_ok.mp hcheck
  have hheld : (db.jobs.rows ++ [r]).filter charged = db.jobs.rows.filter charged ++ [r] := by
    simp [hcharged]
  refine ⟨by rw [hheld]; simpa using hjobs, rs, ?_, hfits⟩
  have hold : (db.jobs.rows.filter charged).map (reserved c) =
      specifications.map (reservation c) :=
    calc
      _ = ((db.jobs.rows.filter charged).map JobRow.specification).map
          (·.bind (reservation c)) := by rw [List.map_map]; rfl
      _ = (specifications.map some).map (·.bind (reservation c)) := by rw [mapM_orError hspecs]
      _ = _ := by rw [List.map_map]; rfl
  rw [hheld, map_append, hold, ← hmap, map_append]
  simp [reserved, hr]

end FactoryResourceBudget

/-! ## Reservations over the life of a job -/

variable {c : Codec}

lemma charged_eq_false : charged r = false ↔ r.cleanupPending = false ∧ 3 ≤ rank r.state := by
  have hstate : r.state ∉ [.live .accepted, .live .preparing, .live .running] ↔
      3 ≤ rank r.state := by
    cases r.state with
    | live s => cases s <;> decide
    | deleted => decide
  simp only [charged, Bool.or_eq_false_iff, decide_eq_false_iff_not, hstate, and_comm]

variable {g : Grant} {v v' : JobView}

lemma Change.uncharged (h : Change c g v v')
    (hv : charged v.row = false) : charged v'.row = false := by
  obtain ⟨hpending, hrank⟩ := charged_eq_false.mp hv
  refine charged_eq_false.mpr ⟨?_, hrank.trans h.rank_le⟩
  cases h with
  | reserve _ _ _ _ hstate => simp [hstate, rank] at hrank
  | bind _ _ _ _ _ _ _ hclaim =>
    rcases hclaim with ⟨-, hclaimed⟩ | ⟨-, hstate⟩
    · cases hclaimed.symm.trans hpending
    · simp [hstate, rank] at hrank
  | confirm => rfl
  | same | run | capture | stage | retain | publish | destroy | abort | erase => exact hpending

lemma Change.discharged (h : Change c g v v') (howned : Owned v.row)
    (hv : charged v.row = true) (hv' : charged v'.row = false) :
    v'.row.state.settled = true ∧ v'.row.cleanupPending = false := by
  obtain ⟨hpending, hrank⟩ := charged_eq_false.mp hv'
  refine ⟨(three_le_rank.mp hrank).resolve_right fun hdeleted => ?_, hpending⟩
  have hkeep (hp : v.row.cleanupPending = false) (hdecided : 3 ≤ rank v.row.state) : False :=
    absurd ((charged_eq_false.mpr ⟨hp, hdecided⟩).symm.trans hv) (by simp)
  have hlive : v.row.state ≠ .deleted := by
    intro hgone
    cases hp : v.row.cleanupPending with
    | true => exact (howned.pending hp).2 hgone
    | false => exact hkeep hp (three_le_rank.mpr (.inr hgone))
  cases h with
  | erase r es as hsettled hp => exact hkeep hp (three_le_rank.mpr (.inl hsettled))
  | reserve | run | publish => simp [reservedRow, runningRow, publishedRow] at hdeleted
  | bind =>
    simp only [boundRow] at hdeleted
    split_ifs at hdeleted
    exact hlive hdeleted
  | _ => exact hlive hdeleted

lemma Change.reserved (h : Change c g v v') (howned : Owned v.row) (hv' : charged v'.row = true) :
    charged v.row = true ∧ reserved c v'.row = reserved c v.row := by
  constructor
  · by_contra hv
    exact absurd (h.uncharged (by simpa using hv)) (by simp [hv'])
  rcases h.specification with hsame | ⟨hdeleted, -⟩
  · simp only [Journal.reserved, hsame]
  · cases hp : v'.row.cleanupPending with
    | true => exact absurd hdeleted ((h.owned howned).pending hp).2
    | false =>
      have := charged_eq_false.mpr ⟨hp, three_le_rank.mpr (.inr hdeleted)⟩
      cases this.symm.trans hv'

end Husker.Journal
