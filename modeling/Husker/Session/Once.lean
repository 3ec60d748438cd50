import Husker.Session.Effects

/-! # A replayed start runs its command once

What is known of an id that is only ever started with a receipt: once it is accepted, its
directory keeps the status and the receipt until a tombstone has taken their place.
-/
namespace Husker.Session
open Relational List Option Function Program

variable {y : String}

/-! ## What is known of the session -/

def Gone : List Fact → Prop
  | [] => False
  | .removed receipt :: earlier =>
    receipt = true ∨ (∃ spec, .accepted spec ∈ earlier) ∨ Gone earlier
  | _ :: earlier => Gone earlier

def Orderly : List Fact → Prop
  | [] => True
  | .spawned :: earlier => .spawned ∉ earlier ∧ Orderly earlier
  | .started spec :: earlier =>
    (∀ spec', .accepted spec' ∈ earlier → spec' = spec) ∧ ¬Gone earlier ∧ Orderly earlier
  | _ :: earlier => Orderly earlier

variable (settings : Settings) (known : Set Specification)

structure Store.Once (y : String) (s : Store) : Prop where
  orderly : Orderly (s.history y)
  known : ∀ {spec}, .accepted spec ∈ s.history y → spec ∈ known
  spawned : .spawned ∈ s.history y → ∃ spec, .accepted spec ∈ s.history y
  kept : ∀ {spec}, .accepted spec ∈ s.history y → y ∈ s.tombstones ∨
    ∃ d, s.dirs.lookup y = some d ∧ d.status.isSome ∧ d.receipt = some (some (settings.digest spec))
  gone : Gone (s.history y) → y ∈ s.tombstones

variable {settings known} {s s' : Store}

lemma Store.Once.quiet (h : s.Once settings known y) (hq : s.Quiet y s') :
    s'.Once settings known y where
  orderly := by
    rw [hq.history]
    exact h.orderly
  known := by
    rw [hq.history]
    exact h.known
  spawned := by
    rw [hq.history]
    exact h.spawned
  kept := by
    intro spec hspec
    rw [hq.history] at hspec
    rcases h.kept hspec with hburied | ⟨d, hd, hstatus, hreceipt⟩
    · exact .inl (hq.tombstones.mpr hburied)
    · obtain ⟨d', hd', hreceipt', hstatus'⟩ := hq.kept hd
      exact .inr ⟨d', hd', hstatus' hstatus, hreceipt'.trans hreceipt⟩
  gone := by
    rw [hq.history]
    exact fun hgone => hq.tombstones.mpr (h.gone hgone)

/-! ## The contract -/

variable (y settings known) in
def once : Discipline agent Request where
  owner := Store.creation
  valid := Store.Once settings known y
  quiet := Store.Quiet y
  spares _ _ _ := True
  each _ _ _ := True
  allowed _ _ _ _ := True
  admits
    | .start request _ => request.id ≠ y
    | .startReplay request defaultTimeout =>
      request.id = y → request.specification defaultTimeout ∈ known
    | _ => True
  survives _ := True
  starts p _ _ := p.Uses (Act.sparing y)
  quiet_refl _ := .refl
  quiet_trans := .trans
  spares_refl _ _ := trivial
  spares_trans _ _ := trivial

/-! ## Facts that hold as long as the lock is held -/

def Store.Spent (y : String) (receipt : Bool) (s : Store) : Prop :=
  (receipt = true ∨ ∃ spec, .accepted spec ∈ s.history y) → y ∈ s.tombstones

structure Store.Open (y : String) (spec : Specification) (s : Store) : Prop where
  clear : y ∉ s.tombstones
  names : ∀ spec', .accepted spec' ∈ s.history y → spec' = spec

structure Store.Unused (y : String) (s : Store) : Prop where
  clear : y ∉ s.tombstones
  none : ∀ spec, .accepted spec ∉ s.history y

def Store.Receipted (y digest : String) (s : Store) : Prop :=
  ∃ d, s.dirs.lookup y = some d ∧ d.receipt = some (some digest)

def Store.Published (y : String) (s : Store) : Prop :=
  ∃ d, s.dirs.lookup y = some d ∧ d.status.isSome

structure Store.Pending (y : String) (s : Store) : Prop where
  accepted : ∃ spec, .accepted spec ∈ s.history y
  unspawned : .spawned ∉ s.history y

section
variable {receipt : Bool} {digest : String} {spec : Specification}

lemma firm_spent : (once y settings known).Firm (Store.Spent y receipt) := by
  intro s s' h hq
  unfold Store.Spent
  rw [hq.history, hq.tombstones]
  exact h

lemma firm_open : (once y settings known).Firm (Store.Open y spec) :=
  fun _ _ h hq => ⟨fun hburied => h.clear (hq.tombstones.mp hburied),
    fun spec' hspec' => h.names spec' (hq.history ▸ hspec')⟩

lemma firm_unused : (once y settings known).Firm (Store.Unused y) :=
  fun _ _ h hq => ⟨fun hburied => h.clear (hq.tombstones.mp hburied),
    fun spec hspec => h.none spec (hq.history ▸ hspec)⟩

lemma firm_receipted : (once y settings known).Firm (Store.Receipted y digest) := by
  rintro s s' ⟨d, hd, hreceipt⟩ hq
  obtain ⟨d', hd', hreceipt', -⟩ := hq.kept hd
  exact ⟨d', hd', hreceipt'.trans hreceipt⟩

lemma firm_published : (once y settings known).Firm (Store.Published y) := by
  rintro s s' ⟨d, hd, hstatus⟩ hq
  obtain ⟨d', hd', -, hstatus'⟩ := hq.kept hd
  exact ⟨d', hd', hstatus' hstatus⟩

lemma firm_pending : (once y settings known).Firm (Store.Pending y) := by
  intro s s' h hq
  constructor <;> rw [hq.history]
  · exact h.accepted
  · exact h.unspawned

end

/-! ## Steps with the lock -/

variable {a : Act} {n : ℕ} {x : Choice} {γ : Type}

open Store

section
variable {t : ℕ} {β : Type} {P E : Store → Prop} {m : Try β} {G : β → Store → Prop}

lemma sparing_calm {r : a.Resp} (ha : a.sparing y)
    (hvalid : s.Once settings known y) (h : run t n a x s = some (r, s')) :
    (once y settings known).Calm t n a s s' := by
  obtain ⟨hquiet, hsame⟩ := run_sparing ha h
  exact ⟨⟨hvalid.quiet hquiet, trivial, fun _ _ => trivial, fun _ => fork_uses⟩, hquiet, hsame⟩

lemma ends_sparing (hm : m.run.Uses (Act.sparing y)) (hP : (once y settings known).Frame t P)
    (hE : ∀ s, P s → E s) : (once y settings known).contract.Ends t P m (fun _ => P) E :=
  Discipline.ends_uses hm hP (fun _ _ _ _ _ _ ha hvalid _ _ h => sparing_calm ha hvalid h) hE

lemma does_sparing (hm : m.run.Uses (Act.sparing y)) (hP : (once y settings known).Firm P)
    (hE : ∀ s, P s → E s) : (once y settings known).Does t P m (fun _ => P) E :=
  ends_sparing hm hP.frame fun s hs => ⟨hs.1, hE s hs.2⟩

lemma spare_bind {f : β → Try γ} {F : γ → Store → Prop}
    (hm : m.run.Uses (Act.sparing y)) (hP : (once y settings known).Firm P)
    (hf : ∀ b, (once y settings known).Does t P (f b) F P) :
    (once y settings known).Does t P (m >>= f) F P :=
  .bind (does_sparing hm hP fun _ hs => hs) hf

lemma spare_any {f : β → Try γ} {F : γ → Store → Prop}
    (hm : m.run.Uses (Act.sparing y)) (hP : (once y settings known).Firm P)
    (hf : ∀ b, (once y settings known).Does t P (f b) F ⊤) :
    (once y settings known).Does t P (m >>= f) F ⊤ :=
  .bind (does_sparing hm hP fun _ _ => trivial) hf

lemma does_step {f : a.Resp → Except SessionError β} (ha : a.locks = false)
    (hP : (once y settings known).Firm P)
    (h : ∀ s n x r s', s.Once settings known y → P s → run t n a x s = some (r, s') →
      s'.Once settings known y ∧ Contract.post G E (f r) s') :
    (once y settings known).Does t P (attempt (I := api) a f) G E := by
  apply Discipline.Does.step hP
  intro s n x r s' hvalid howner hs _ _ hrun
  obtain ⟨hvalid', hpost⟩ := h s n x r s' hvalid hs hrun
  exact ⟨⟨hvalid', trivial, fun _ _ => trivial, fun _ => fork_uses⟩,
    (run_creation ha hrun).trans howner, hpost⟩

lemma Store.run_files {r : a.Resp}
    (ha : a = .createDir y ∨ a = .createLog y ∨ a = .rmdir y ∨ a = .createReceipt y ∨
      ∃ file, a = .unlink y file) (hrun : run t n a x s = some (r, s')) :
    s'.tombstones = s.tombstones ∧ s'.history = s.history := by
  rcases run_cases hrun with ⟨-, -, rfl⟩ | ⟨-, h⟩
  · exact ⟨rfl, rfl⟩
  rcases ha with rfl | rfl | rfl | rfl | ⟨file, rfl⟩
  case inr.inr.inr.inr.inl | inr.inr.inr.inr.inr =>
    rcases change_eq (some.inj h) with ⟨-, rfl⟩ | ⟨-, -, rfl⟩ <;> simp
  all_goals
    simp only [Store.perform] at h
    split at h <;> cases h <;> simp

lemma does_files {f : a.Resp → Except SessionError β}
    (ha : a = .createDir y ∨ a = .createLog y ∨ a = .rmdir y ∨ a = .createReceipt y ∨
      ∃ file, a = .unlink y file) (hP : (once y settings known).Firm P)
    (h : ∀ {s s'}, s.Once settings known y → P s → s'.tombstones = s.tombstones →
      s'.history = s.history → s'.Once settings known y ∧ P s') :
    (once y settings known).Does t P (attempt (I := api) a f) (fun _ => P) P := by
  apply does_step (by rcases ha with rfl | rfl | rfl | rfl | ⟨file, rfl⟩ <;> rfl) hP
  intro s n x r s' hvalid hs hrun
  obtain ⟨htombstones, hhistory⟩ := run_files ha hrun
  obtain ⟨hvalid', hs'⟩ := h hvalid hs htombstones hhistory
  exact ⟨hvalid', by cases f r <;> exact hs'⟩

lemma does_read {f : a.Resp → Except SessionError β} (ha : a.reads)
    (hP : (once y settings known).Firm P) (hE : ∀ s, P s → E s)
    (h : ∀ s n x r b, s.Once settings known y → P s → run t n a x s = some (r, s) →
      f r = .ok b → G b s) :
    (once y settings known).Does t P (attempt (I := api) a f) G E := by
  apply does_step (by cases a <;> first | rfl | cases ha) hP
  intro s n x r s' hvalid hs hrun
  obtain rfl := run_reads ha hrun
  refine ⟨hvalid, ?_⟩
  cases hr : f r with
  | ok b => exact h s' n x r b hvalid hs hrun hr
  | error e => exact hE s' hs

lemma does_ensure {b : Bool} {e : SessionError} {F : Store → Prop}
    (hF : ∀ s, b = true → P s → F s) (hE : ∀ s, P s → E s) :
    (once y settings known).Does t P (ensure b e) (fun _ => F) E := by
  unfold ensure
  split
  · exact .pure fun s hs => hF s ‹_› hs
  · exact .throw hE

lemma does_only {m : Try Unit} {F : Store → Prop}
    (h : (once y settings known).Does t P m (fun _ => F) E) :
    (once y settings known).Does t P (only true m) (fun _ => F) E := by
  rw [only_true]
  exact h

end

lemma Store.Once.record {fact : Fact} (h : s.Once settings known y)
    (hfact : ∀ spec, fact ≠ .accepted spec) (horderly : Orderly (fact :: s.history y))
    (hspawned : fact = .spawned → ∃ spec, .accepted spec ∈ s.history y)
    (hgone : Gone (fact :: s.history y) → y ∈ s.tombstones) :
    (s.record y fact).Once settings known y := by
  have hhistory : (s.record y fact).history y = fact :: s.history y := update_self ..
  have hold : ∀ {spec}, .accepted spec ∈ fact :: s.history y → .accepted spec ∈ s.history y :=
    fun {spec} hspec => (mem_cons.mp hspec).resolve_left (hfact spec).symm
  refine ⟨?_, ?_, ?_, ?_, ?_⟩ <;> rw [hhistory]
  · exact horderly
  · exact fun hspec => h.known (hold hspec)
  · intro hmem
    have haccepted : ∃ spec, .accepted spec ∈ s.history y := by
      rcases mem_cons.mp hmem with heq | hmem
      · exact hspawned heq.symm
      · exact h.spawned hmem
    exact haccepted.imp fun _ hspec => mem_cons_of_mem _ hspec
  · exact fun hspec => h.kept (hold hspec)
  · exact hgone

/-! ## Removal -/

section
variable {t : ℕ} {receipt : Bool}

lemma Store.Once.spent (h : s.Once settings known y) (hspent : s.Spent y receipt)
    (htombstones : s'.tombstones = s.tombstones) (hhistory : s'.history = s.history) :
    s'.Once settings known y ∧ s'.Spent y receipt := by
  unfold Store.Spent
  rw [htombstones, hhistory]
  refine ⟨⟨?_, ?_, ?_, ?_, ?_⟩, hspent⟩ <;> rw [hhistory]
  · exact h.orderly
  · exact h.known
  · exact h.spawned
  · intro spec hspec
    rw [htombstones]
    exact .inl (hspent (.inr ⟨spec, hspec⟩))
  · rw [htombstones]
    exact h.gone

lemma unlinkAll_does (files : List File) :
    (once y settings known).Does t (Store.Spent y receipt) (unlinkAll y files)
      (fun _ => Store.Spent y receipt) (Store.Spent y receipt) := by
  induction files with
  | nil => exact .pure fun _ hs => hs
  | cons file rest ih =>
  rw [unlinkAll]
  exact .bind (does_files (.inr <| .inr <| .inr <| .inr ⟨file, rfl⟩) firm_spent fun h => h.spent)
    fun _ => ih

lemma removeDirAll_does : (once y settings known).Does t (Store.Spent y receipt) (removeDirAll y)
      (fun _ => Store.Spent y receipt) (Store.Spent y receipt) := by
  unfold removeDirAll
  refine spare_bind (.attempt trivial) firm_spent fun files => ?_
  apply Discipline.Does.bind (unlinkAll_does files)
  intro _
  exact does_files (.inr <| .inr <| .inl rfl) firm_spent fun h => h.spent

lemma tryExists_does {file : File} (hfile : file = .status ∨ file = .receipt) :
    (once y settings known).Does t ⊤ (tryExists y file)
      (fun found s => found = false → s.Spent y false) ⊤ := by
  apply does_read rfl .top fun _ hs => hs
  rintro s n x r found hvalid - hrun hr rfl (hfalse | ⟨spec, hspec⟩)
  · cases hfalse
  rcases run_cases hrun with ⟨-, hfails, -⟩ | ⟨-, h⟩
  · cases hfails
    cases hr
  · cases h
    rcases hvalid.kept hspec with hburied | ⟨d, hd, hstatus, hreceipt⟩
    · exact hburied
    · rcases hfile with rfl | rfl <;> simp [orIo, hd, Dir.contains, hstatus, hreceipt] at hr

lemma bury_does : (once y settings known).Does t ⊤ (bury y)
      (fun _ => Store.Spent y receipt) ⊤ := by
  unfold bury
  refine spare_bind (.attempt trivial) .top fun _ => ?_
  refine .bind (G := fun _ => Store.Spent y receipt) ?_
    fun _ => does_sparing (.attempt trivial) firm_spent fun _ _ => trivial
  apply does_step rfl .top
  rintro s n x r s' hvalid - hrun
  rcases run_cases hrun with ⟨-, hfails, rfl⟩ | ⟨-, h⟩
  · cases hfails
    exact ⟨hvalid, trivial⟩
  · cases h
    have hburied : y ∈ s.tombstones.insert y := mem_insert_self
    exact ⟨⟨hvalid.orderly, hvalid.known, hvalid.spawned, fun _ => .inl hburied, fun _ => hburied⟩,
      fun _ => hburied⟩

lemma note_removed_does :
    (once y settings known).Does t (Store.Spent y receipt) (memory (.note y (.removed receipt)))
      ⊤ ⊤ := by
  apply does_step rfl firm_spent
  intro s n x r s' hvalid hs hrun
  refine ⟨?_, trivial⟩
  cases run_sure hrun rfl
  refine hvalid.record nofun hvalid.orderly nofun ?_
  rintro (hreceipt | haccepted | hgone)
  · exact hs (.inl hreceipt)
  · exact hs (.inr haccepted)
  · exact hvalid.gone hgone

lemma discard_does {id : String} :
    (once y settings known).Does t (fun s => id = y → s.Spent y false) (discard id)
      ⊤ ⊤ := by
  unfold discard
  have hfirm : (once y settings known).Firm fun s => id = y → s.Spent y false :=
    Discipline.Firm.imp firm_spent
  refine spare_any ensure_uses hfirm fun _ => ?_
  refine spare_any (.attempt trivial) hfirm fun size => ?_
  refine spare_any ensure_uses hfirm fun _ => ?_
  by_cases hid : id = y
  · subst hid
    exact removeDirAll_does.conseq (fun _ hs => hs rfl) (fun _ _ _ => trivial) fun _ _ => trivial
  · exact (does_sparing (removeDirAll_uses hid) .top fun _ hs => hs).pre fun _ _ => trivial

lemma collect_does (ids : List String) (found : List SessionInfo) :
    (once y settings known).Does t ⊤ (collect ids found) ⊤
      ⊤ := by
  induction ids generalizing found with
  | nil => exact .pure fun _ hs => hs
  | cons id rest ih =>
  rw [collect]
  refine .bind (G := fun published s => published = false → id = y → s.Spent y false) ?_ ?_
  · by_cases hid : id = y
    · subst hid
      exact (tryExists_does (.inl rfl)).conseq (fun _ hs => hs) (fun _ _ hs hpublished _ =>
        hs hpublished) fun _ hs => hs
    · exact (does_sparing tryExists_uses .top fun _ hs => hs).conseq (fun _ hs => hs)
        (fun _ _ _ _ hy => absurd hy hid) fun _ hs => hs
  · intro published
    cases published with
    | true =>
      refine Discipline.Does.pre ?_ (P := ⊤) fun _ _ => trivial
      refine spare_bind get_uses .top fun info => ?_
      exact spare_bind ensure_uses .top fun _ => ih _
    | false => exact .bind (discard_does.pre fun _ hs => hs rfl) fun _ => ih found

lemma listEntries_does : (once y settings known).Does t ⊤ listEntries ⊤ ⊤ := by
  unfold listEntries
  refine spare_bind (.attempt trivial) .top fun ids => ?_
  exact .bind (collect_does ids []) fun _ => .pure fun _ hs => hs

lemma once_locks : Locks (once y settings known) t ⊤ ⊤ where
  owner := rfl
  lock s n hvalid _ := ⟨⟨hvalid.quiet (.of_alike ⟨rfl, .rfl, rfl⟩), trivial, fun _ _ => trivial,
    by simp [agent]⟩, trivial⟩
  unlock s n hvalid _ _ := ⟨hvalid.quiet (.of_alike ⟨rfl, .rfl, rfl⟩), trivial, fun _ _ => trivial,
    by simp [agent]⟩
  firm := .const True

lemma remove_ends (id : String) : (once y settings known).contract.Ends t ⊤ (remove id) ⊤
      ⊤ := by
  unfold remove
  by_cases hid : id = y
  · subst hid
    apply once_locks.ends
    refine spare_bind get_uses .top fun info => ?_
    refine spare_bind ensure_uses .top fun _ => ?_
    refine .bind (tryExists_does (.inr rfl)) fun receipt => ?_
    refine .bind (G := fun _ => Store.Spent id receipt) ?_ fun _ => ?_
    · cases receipt with
      | true =>
        exact does_only (bury_does.pre fun _ _ => trivial)
      | false =>
        rw [only_false]
        exact .pure fun _ hs => hs rfl
    refine spare_any (.attempt trivial) firm_spent fun _ => ?_
    refine .bind removeDirAll_does.lift fun removed => ?_
    have hpost : (once id settings known).Firm
        (Contract.post (fun _ => Store.Spent id receipt) (Store.Spent id receipt) removed) := by
      cases removed <;> exact firm_spent
    refine spare_any (.attempt trivial) hpost fun _ => ?_
    cases removed with
    | error e => exact .throw fun _ _ => trivial
    | ok _ => exact note_removed_does
  · apply once_locks.ends
    refine does_sparing ?_ .top fun _ hs => hs
    refine .andThen get_uses fun _ => .andThen ensure_uses fun _ => .andThen tryExists_uses ?_
    intro receipt
    refine .andThen (only_uses fun _ => bury_uses hid) fun _ => .andThen (.attempt trivial) ?_
    intro _
    refine .andThen (.lift (removeDirAll_uses hid)) fun removed => .andThen (.attempt trivial) ?_
    intro _
    cases removed with
    | error e => trivial
    | ok _ => exact .attempt hid

end

/-! ## Starts -/

section
variable {t : ℕ} {spec : Specification} {request : SessionStartRequest}

lemma replay_does (hdigest : Set.InjOn settings.digest known) (hspec : spec ∈ known) :
    (once y settings known).Does t ⊤ (replay settings y spec)
      (fun earlier s => if earlier.isSome then s.Open y spec else s.Unused y) ⊤ := by
  unfold replay
  refine .bind (G := fun removed s => removed = false → y ∉ s.tombstones) ?_ fun removed => ?_
  · apply does_read rfl .top fun _ hs => hs
    rintro s n x r removed - - hrun hr rfl
    rcases run_cases hrun with ⟨-, hfails, -⟩ | ⟨-, h⟩
    · cases hfails
      cases hr
    · cases h
      simpa [orIo] using hr
  have hclear : (once y settings known).Firm fun s => y ∉ s.tombstones :=
    fun _ _ hs hq hburied => hs (hq.tombstones.mp hburied)
  refine .bind (G := fun _ s => y ∉ s.tombstones) ?_ fun _ => ?_
  · exact does_ensure (fun _ hremoved hs => hs (by simpa using hremoved)) fun _ _ => trivial
  refine .bind (G := fun found s => if found then y ∉ s.tombstones else s.Unused y) ?_ fun found => ?_
  · apply does_read rfl hclear fun _ _ => trivial
    intro s n x r found hvalid hs hrun hr
    rcases run_cases hrun with ⟨-, hfails, -⟩ | ⟨-, h⟩
    · cases hfails
      cases hr
    cases h
    cases hr
    split
    · exact hs
    · rename_i hmissing
      refine ⟨hs, fun spec' hspec' => ?_⟩
      rcases hvalid.kept hspec' with hburied | ⟨d, hd, -⟩
      · exact hs hburied
      · simp [hd] at hmissing
  cases found with
  | false => exact .pure fun _ hs => hs
  | true =>
  refine .bind (G := fun contents s => contents = some (settings.digest spec) → s.Open y spec) ?_ ?_
  · apply does_read rfl hclear fun _ _ => trivial
    rintro s n x r contents hvalid hs hrun hr rfl
    rcases run_cases hrun with ⟨-, hfails, -⟩ | ⟨-, h⟩
    · cases hfails
      cases hr
    cases h
    refine ⟨hs, fun spec' hspec' => ?_⟩
    rcases hvalid.kept hspec' with hburied | ⟨d, hd, -, hreceipt⟩
    · exact absurd hburied hs
    · have hsame : settings.digest spec' = settings.digest spec := by
        simpa [orConflict, hd, hreceipt] using hr
      exact hdigest (hvalid.known hspec') hspec hsame
  · intro contents
    refine .bind (G := fun _ => Store.Open y spec) ?_ fun _ => ?_
    · exact does_ensure (fun _ hcontents hs => hs (by simpa using hcontents)) fun _ _ => trivial
    refine spare_any get_uses firm_open fun info => ?_
    exact .pure fun _ hs => hs

lemma save_does {info : SessionInfo} {worker : Option ℕ} {P : Store → Prop}
    (hid : info.id = y) (hP : (once y settings known).Firm P) :
    (once y settings known).Does t P (save info worker) (fun _ s => P s ∧ s.Published y) P := by
  subst hid
  unfold save
  refine spare_bind ensure_uses hP fun _ => ?_
  refine spare_bind ensure_uses hP fun _ => ?_
  refine spare_bind (.attempt trivial) hP fun temp => ?_
  refine spare_bind (.attempt trivial) hP fun _ => ?_
  refine .bind (G := fun _ s => P s ∧ s.Published info.id) ?_
    fun _ => does_sparing (.attempt trivial) (hP.and firm_published) fun _ hs => hs.1
  apply does_step rfl hP
  intro s n x r s' hvalid hs hrun
  have hquiet : s.Quiet info.id s' := (run_sparing (by trivial) hrun).1
  refine ⟨hvalid.quiet hquiet, ?_⟩
  have hs' := hP s s' hs hquiet
  rcases run_cases hrun with ⟨-, hfails, rfl⟩ | ⟨-, h⟩
  · cases hfails
    exact hs
  · rcases publish_eq (some.inj h) with ⟨rfl, rfl⟩ | ⟨rfl, d, hd, -, rfl⟩
    · exact hs
    · exact ⟨hs', _, lookup_update_eq hd, rfl⟩

lemma Store.Unused.spent (h : s.Unused y) : s.Spent y false := by
  rintro (hfalse | ⟨spec, hspec⟩)
  · cases hfalse
  · exact absurd hspec (h.none spec)

lemma Store.Once.unused (h : s.Once settings known y) (hunused : s.Unused y)
    (htombstones : s'.tombstones = s.tombstones) (hhistory : s'.history = s.history) :
    s'.Once settings known y ∧ s'.Unused y := by
  refine ⟨(h.spent hunused.spent htombstones hhistory).1, ?_, ?_⟩
  · rw [htombstones]
    exact hunused.clear
  · rw [hhistory]
    exact hunused.none

lemma createDir_does :
    (once y settings known).Does t (Store.Unused y) (attempt (I := api) (.createDir y) orIo)
      (fun _ => Store.Unused y) (Store.Unused y) :=
  does_files (.inl rfl) firm_unused fun h => h.unused

lemma createLog_does :
    (once y settings known).Does t (Store.Unused y) (attempt (I := api) (.createLog y) orIo)
      (fun _ => Store.Unused y) (Store.Unused y) :=
  does_files (.inr <| .inl rfl) firm_unused fun h => h.unused

lemma leaveReceipt_does :
    (once y settings known).Does t (Store.Unused y) (leaveReceipt settings y spec)
      (fun _ s => s.Unused y ∧ s.Receipted y (settings.digest spec)) (Store.Unused y) := by
  unfold leaveReceipt
  refine .bind (does_files (.inr <| .inr <| .inr <| .inl rfl) firm_unused fun h => h.unused)
    fun _ => ?_
  refine .bind (G := fun _ s => s.Unused y ∧ s.Receipted y (settings.digest spec)) ?_
    fun _ => does_sparing sync_uses (firm_unused.and firm_receipted) fun _ hs => hs.1
  apply does_step rfl firm_unused
  intro s n x r s' hvalid hs hrun
  rcases run_cases hrun with ⟨-, hfails, rfl⟩ | ⟨-, h⟩
  · cases hfails
    exact ⟨hvalid, hs⟩
  · rcases change_eq (some.inj h) with ⟨rfl, rfl⟩ | ⟨rfl, hdir, rfl⟩
    · exact ⟨hvalid, hs⟩
    · obtain ⟨hvalid', hs'⟩ := hvalid.unused hs update_rest.1 update_rest.2.1
      obtain ⟨d, hd⟩ := isSome_iff_exists.mp hdir
      exact ⟨hvalid', hs', _, lookup_update_eq hd, rfl⟩

variable (settings) in
def Store.Ready (y : String) (spec : Specification) (s : Store) : Prop :=
  (s.Unused y ∧ s.Receipted y (settings.digest spec)) ∧ s.Published y

lemma firm_ready : (once y settings known).Firm (Store.Ready settings y spec) :=
  (firm_unused.and firm_receipted).and firm_published

lemma prepare_does : (once request.id settings known).Does t (Store.Unused request.id)
      (prepare settings request spec true) (fun _ => Store.Ready settings request.id spec)
      (Store.Unused request.id) := by
  unfold prepare
  refine spare_bind sync_uses firm_unused fun _ => ?_
  refine .bind createLog_does fun inode => ?_
  refine spare_bind (only_uses nofun) firm_unused fun _ => ?_
  refine .bind (does_only leaveReceipt_does) fun _ => ?_
  have hfirm : (once request.id settings known).Firm fun s => s.Unused request.id ∧
      s.Receipted request.id (settings.digest spec) :=
    firm_unused.and firm_receipted
  refine .bind (does_sparing (.attempt trivial) hfirm fun _ hs => hs.1) fun now => ?_
  refine .bind (does_sparing (.attempt trivial) hfirm fun _ hs => hs.1) fun sequence => ?_
  refine .bind (Discipline.Does.lift (save_does ?_ hfirm)) fun saved => ?_
  · rfl
  cases saved with
  | ok _ => exact .pure fun _ hs => hs
  | error e =>
    refine .bind (does_sparing (.attempt trivial) hfirm fun _ hs => hs.1) fun _ => ?_
    exact .throw fun _ hs => hs.1

lemma note_accepted_does (hknown : spec ∈ known) :
    (once y settings known).Does t (Store.Ready settings y spec)
      (memory (.note y (.accepted spec))) (fun _ s => s.Open y spec ∧ s.Pending y)
      ⊤ := by
  apply does_step rfl firm_ready
  rintro s n x r s' hvalid ⟨⟨hunused, d, hd, hreceipt⟩, d', hd', hstatus⟩ hrun
  cases run_sure hrun rfl
  obtain rfl : d = d' := some.inj (hd.symm.trans hd')
  have hhistory : (s.record y (.accepted spec)).history y =
      .accepted spec :: s.history y := update_self ..
  have hunspawned : .spawned ∉ s.history y := by
    intro hspawned
    obtain ⟨spec', hspec'⟩ := hvalid.spawned hspawned
    exact hunused.none spec' hspec'
  have honly : ∀ spec', .accepted spec' ∈ (.accepted spec :: s.history y : List Fact) →
      spec' = spec := by
    intro spec' hspec'
    rcases mem_cons.mp hspec' with heq | hold
    · exact Fact.accepted.inj heq
    · exact absurd hold (hunused.none spec')
  refine ⟨⟨?_, ?_, ?_, ?_, ?_⟩, ⟨hunused.clear, ?_⟩, ?_, ?_⟩ <;> rw [hhistory]
  · exact hvalid.orderly
  · exact fun hspec' => honly _ hspec' ▸ hknown
  · exact fun _ => ⟨spec, mem_cons_self⟩
  · exact fun hspec' => .inr ⟨d, hd, hstatus, honly _ hspec' ▸ hreceipt⟩
  · exact hvalid.gone
  · exact honly
  · exact ⟨spec, mem_cons_self⟩
  · simpa using hunspawned

lemma spawn_does : (once y settings known).Does t (fun s => s.Open y spec ∧ s.Pending y) (spawn y)
      (fun _ => Store.Open y spec) (Store.Open y spec) := by
  apply does_step rfl (firm_open.and firm_pending)
  rintro s n x r s' hvalid ⟨hs, hpending⟩ hrun
  rcases run_cases hrun with ⟨-, hfails, rfl⟩ | ⟨-, h⟩
  · cases hfails
    exact ⟨hvalid, hs⟩
  cases h
  refine ⟨hvalid.record nofun ⟨hpending.unspawned, hvalid.orderly⟩ (fun _ => hpending.accepted)
    hvalid.gone, hs.clear, ?_⟩
  have hhistory : (s.record y .spawned).history y = .spawned :: s.history y := update_self ..
  rw [hhistory]
  simpa using hs.names

lemma accept_does {worker : Worker} (hknown : spec ∈ known) :
    (once y settings known).Does t (Store.Ready settings y spec) (accept y spec worker)
      (fun _ => Store.Open y spec) ⊤ := by
  unfold accept
  refine .bind (note_accepted_does hknown) fun _ => ?_
  have hfirm : (once y settings known).Firm fun s => s.Open y spec ∧ s.Pending y :=
    firm_open.and firm_pending
  refine spare_any (.lift sync_uses) hfirm fun synced => ?_
  cases synced with
  | error e =>
    refine spare_any (.attempt trivial) hfirm fun _ => ?_
    exact .throw fun _ _ => trivial
  | ok _ =>
  refine .bind spawn_does.lift fun spawned => ?_
  cases spawned with
  | ok _ => exact .pure fun _ hs => hs
  | error e => exact does_sparing abandon_uses firm_open fun _ _ => trivial

lemma create_does (hknown : spec ∈ known) :
    (once request.id settings known).Does t (Store.Unused request.id)
      (create settings request spec true) (fun _ => Store.Open request.id spec)
      ⊤ := by
  unfold create
  refine spare_any sync_uses firm_unused fun _ => ?_
  refine .bind (createDir_does.conseq (fun _ hs => hs) (fun _ _ hs => hs) fun _ _ => trivial) ?_
  intro fresh
  refine spare_any ensure_uses firm_unused fun _ => ?_
  refine .bind prepare_does.lift fun prepared => ?_
  cases prepared with
  | error e =>
    have hremove : (once request.id settings known).Does t (Store.Unused request.id)
        (removeDirAll request.id) (fun _ => Store.Spent request.id false)
        (Store.Spent request.id false) := removeDirAll_does.pre fun _ hs => hs.spent
    exact .bind hremove.lift fun _ => .throw fun _ _ => trivial
  | ok worker =>
    refine .bind (does_only (accept_does hknown)) fun _ => ?_
    refine spare_any (.attempt trivial) firm_open fun _ => ?_
    exact .pure fun _ hs => hs

variable {isReplay : Bool}

lemma startLocked_does (hdigest : Set.InjOn settings.digest known)
    (hreplay : request.id = y → isReplay = true ∧ spec ∈ known) :
    (once y settings known).Does t ⊤ (startLocked settings request spec isReplay)
      (fun _ s => request.id = y → s.Open y spec) ⊤ := by
  unfold startLocked
  refine spare_bind ensure_uses .top fun _ => ?_
  refine .bind listEntries_does fun sessions => ?_
  refine spare_bind ensure_uses .top fun _ => ?_
  by_cases hid : request.id = y
  · subst hid
    obtain ⟨rfl, hknown⟩ := hreplay rfl
    refine .bind (replay_does hdigest hknown) fun earlier => ?_
    cases earlier with
    | some info => exact .pure fun _ hs _ => hs
    | none =>
      refine spare_any checkLimits_uses firm_unused fun _ => ?_
      exact (create_does hknown).conseq (fun _ hs => hs) (fun _ _ hs _ => hs) fun _ hs => hs
  · refine Discipline.Does.conseq (G := fun _ _ => True) ?_ (fun _ hs => hs)
      (fun _ _ _ hy => absurd hy hid) fun _ hs => hs
    refine does_sparing ?_ .top fun _ hs => hs
    have hcreate : (checkLimits sessions isReplay >>= fun _ =>
        create settings request spec isReplay).run.Uses (Act.sparing y) :=
      .andThen checkLimits_uses fun _ => create_uses hid
    split
    · refine Program.Uses.andThen replay_uses fun earlier => ?_
      cases earlier with
      | some info => trivial
      | none => exact hcreate
    · exact hcreate

lemma note_started_does :
    (once y settings known).Does t (Store.Open y spec) (memory (.note y (.started spec)))
      ⊤ ⊤ := by
  apply does_step rfl firm_open
  intro s n x r s' hvalid hs hrun
  refine ⟨?_, trivial⟩
  cases run_sure hrun rfl
  have hpresent : ¬Gone (s.history y) := fun hgone => hs.clear (hvalid.gone hgone)
  exact hvalid.record nofun ⟨hs.names, hpresent, hvalid.orderly⟩ nofun hvalid.gone

lemma startOwned_ends {defaultTimeout : UInt64} (hdigest : Set.InjOn settings.digest known)
    (hreplay : request.id = y → isReplay = true ∧ request.specification defaultTimeout ∈ known) :
    (once y settings known).contract.Ends t ⊤
      (startOwned settings request defaultTimeout isReplay) ⊤ ⊤ := by
  unfold startOwned
  refine .bind (ends_sparing ensure_uses (.const True) fun _ hs => hs) fun _ => ?_
  apply once_locks.ends
  refine .bind (startLocked_does hdigest hreplay) fun info => ?_
  by_cases hid : request.id = y
  · subst hid
    obtain ⟨rfl, -⟩ := hreplay rfl
    exact .bind (does_only (note_started_does.pre fun _ hs => hs rfl)) fun _ => .pure fun _ hs => hs
  · refine Discipline.Does.pre ?_ (P := ⊤) fun _ _ => trivial
    refine spare_bind (only_uses fun _ => .attempt hid) .top fun _ => ?_
    exact .pure fun _ hs => hs

end

/-! ## Every run -/

lemma once_respects (hdigest : Set.InjOn settings.digest known) :
    (once y settings known).contract.Respects (Request.body settings) where
  call := by
    intro request t s hadmits _
    have hfree : ∀ {α : Type} {m : Try α}, m.run.Uses (Act.sparing y) →
        (once y settings known).contract.keeps t (answering m) ⊤ s :=
      fun hm => answering_keeps (ends_sparing hm (.const True) fun _ hs => hs)
    cases request with
    | start request defaultTimeout =>
      exact answering_keeps (startOwned_ends hdigest fun hid => absurd hid hadmits)
    | startReplay request defaultTimeout =>
      exact answering_keeps (startOwned_ends hdigest fun hid => ⟨rfl, hadmits hid⟩)
    | get id => exact hfree get_uses
    | events id => exact hfree events_uses
    | cancel id => exact hfree cancel_uses
    | list => exact answering_keeps (once_locks.ends listEntries_does)
    | remove id => exact answering_keeps (remove_ends id)
  fork := by
    intro p t s hp _
    refine Contract.Spec.uses hp (Contract.Stable.const True) ?_ s trivial
    intro a s n x r s' ha hvalid _ _ _ hrun
    have hcalm := sparing_calm ha hvalid hrun
    exact ⟨hcalm.valid, hcalm.guar, hcalm.starts, trivial⟩
  crash s _ h := h.quiet (.of_alike ⟨rfl, .rfl, rfl⟩)

lemma Orderly.count_spawned {facts : List Fact} (h : Orderly facts) : facts.count .spawned ≤ 1 := by
  induction facts with
  | nil => simp
  | cons fact earlier ih =>
  cases fact with
  | spawned => simp [count_eq_zero_of_not_mem h.1]
  | started spec => simpa using ih h.2.2
  | accepted spec | removed receipt => simpa using ih h

lemma Orderly.started {later earlier : List Fact} {spec : Specification}
    (h : Orderly (later ++ .started spec :: earlier)) :
    (∀ spec', .accepted spec' ∈ earlier → spec' = spec) ∧ ¬Gone earlier := by
  induction later with
  | nil => exact ⟨h.1, h.2.1⟩
  | cons fact later ih =>
  cases fact with
  | spawned => exact ih h.2
  | started spec => exact ih h.2.2
  | accepted spec | removed receipt => exact ih h

lemma Gone.of_removed {between before : List Fact} {receipt : Bool}
    (h : receipt = true ∨ ∃ spec, .accepted spec ∈ before) :
    Gone (between ++ .removed receipt :: before) := by
  induction between with
  | nil => exact h.imp_right .inl
  | cons fact between ih =>
    cases fact with
    | removed receipt => exact .inr (.inr ih)
    | spawned | started spec | accepted spec => exact ih

def submitted (y : String) (events : List Event) : Set Specification :=
  {spec | ∃ request defaultTimeout, .call (.startReplay request defaultTimeout) ∈ events ∧
    request.id = y ∧ spec = request.specification defaultTimeout}

/-- At most one execution; no start with another specification than the accepted one; and none
after the removal of what was accepted or had its receipt. -/
theorem replayed_session_runs_once {events : List Event} {c : Agent}
    (hdigest : Set.InjOn settings.digest (submitted y events))
    (hreplayed : ∀ request defaultTimeout, .call (.start request defaultTimeout) ∈ events →
      request.id ≠ y)
    (hrun : (interleaved settings).Run ⟨{}, []⟩ events c) :
    (c.shared.history y).count .spawned ≤ 1 ∧
      ∀ later spec earlier, c.shared.history y = later ++ .started spec :: earlier →
        (∀ spec', .accepted spec' ∈ earlier → spec' = spec) ∧
        ∀ between receipt before, earlier = between ++ .removed receipt :: before →
          receipt = false ∧ ∀ spec', .accepted spec' ∉ before := by
  have hwhen := hrun.when_of_mem (C := (once y settings (submitted y events)).contract.Considered) <| by
    intro d e he
    cases e with
    | call r =>
      cases r with
      | start request defaultTimeout => exact hreplayed request defaultTimeout he
      | startReplay request defaultTimeout => exact fun hid => ⟨request, defaultTimeout, he, hid, rfl⟩
      | _ => trivial
    | run t x => exact fun _ _ _ => trivial
    | crash => trivial
  have hstart : (once y settings (submitted y events)).contract.Sound ⟨{}, []⟩ :=
    ⟨⟨trivial, nofun, nofun, nofun, nofun⟩, nofun⟩
  have hvalid : c.shared.Once settings (submitted y events) y :=
    ((once_respects hdigest).sound hwhen hstart).valid
  refine ⟨hvalid.orderly.count_spawned, ?_⟩
  intro later spec earlier hhistory
  obtain ⟨hnames, hpresent⟩ := Orderly.started (hhistory ▸ hvalid.orderly)
  refine ⟨hnames, ?_⟩
  rintro between receipt before rfl
  constructor
  · exact Bool.eq_false_iff.mpr fun hreceipt => hpresent (.of_removed (.inl hreceipt))
  · exact fun spec' hspec' => hpresent (.of_removed (.inr ⟨spec', hspec'⟩))

/-- The directory is not synchronized after the status has its name, and only the receipt can be
deleted; the session is removed and started again. -/
def halfCleaned : List Event :=
  .call (.startReplay sampleRequest 600) :: steps 0 18 ++ .run 0 { fails := true } :: steps 0 1 ++
  .run 0 { files := [.receipt, .status, .log] } :: steps 0 1 ++ .run 0 { fails := true } ::
  steps 0 1 ++ .call (.remove sampleId) :: steps 1 12 ++ .run 1 { files := [.status, .log] } ::
  steps 1 6 ++ .call (.startReplay sampleRequest 600) :: steps 2 24

theorem start_after_remove_without_receipt :
    ∃ c, (interleaved sampleSettings).Run ⟨{}, []⟩ halfCleaned c ∧
      c.shared.history sampleId = [.started (sampleRequest.specification 600), .spawned,
        .accepted (sampleRequest.specification 600), .removed false] := by
  apply Machine.exists_run_ofStep
  decide +kernel

theorem sample_session_runs_once : ∃ c, (interleaved sampleSettings).Run ⟨{}, []⟩ halfCleaned c ∧
      .spawned ∈ c.shared.history sampleId ∧ (c.shared.history sampleId).count .spawned ≤ 1 := by
  obtain ⟨c, hrun, hspawned⟩ : ∃ c, (interleaved sampleSettings).Run ⟨{}, []⟩ halfCleaned c ∧
      .spawned ∈ c.shared.history sampleId := by
    apply Machine.exists_run_ofStep
    decide +kernel
  refine ⟨c, hrun, hspawned, (replayed_session_runs_once ?_ ?_ hrun).1⟩
  · rintro _ ⟨request, timeout, hmem, -, rfl⟩ _ ⟨request', timeout', hmem', -, rfl⟩ -
    simp only [halfCleaned, steps, mem_cons, mem_append, mem_replicate] at hmem hmem'
    grind
  · intro request timeout hmem
    simp only [halfCleaned, steps, mem_cons, mem_append, mem_replicate] at hmem
    grind

end Husker.Session
