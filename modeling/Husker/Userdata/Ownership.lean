import Husker.Userdata.Owned

/-! # Who owns a userdata task

The name lock keeps claims away from a cancellation, and the registry keeps them away from the
shutdown.  What a call knows at its place stays true until it moves on.
-/
namespace Husker.Userdata
open Relational Store List Option Machine Tasks

open Call

section
variable {ι : Type} [DecidableEq ι] {name : ι → String} {h h' : Host ι} {s s' : Core ι} {c : ℕ}
  {a b : Call ι} {vm : ι}

/-! ## What a call knows -/

def Call.Fits (h : Host ι) : Call ι → Prop
  | .signal vm job _ => h.Alone vm job.handle ∧ ∀ j, h.job vm = some j → j = job
  | .retract vm job _ => h.Free vm ∧ ∀ j, h.job vm = some j → j = job
  | .unclaim vm _ | .reopen _ vm => h.Free vm
  | .abort _ vm handle | .join _ vm handle => h.Alone vm handle
  | _ => True

lemma Call.Fits.evolves (hfits : a.Fits h) (hev : h.Evolves h') : a.Fits h' := by
  cases a with
  | signal vm job _ => exact ⟨hev.alone hfits.1, fun j hj => hfits.2 j (hev.jobs hj)⟩
  | retract vm job _ => exact ⟨hev.free hfits.1, fun j hj => hfits.2 j (hev.jobs hj)⟩
  | unclaim vm _ | reopen _ vm => exact hev.free hfits
  | abort _ vm handle | join _ vm handle => exact hev.alone hfits
  | _ => trivial

variable {job : UserdataJob}

lemma Call.Fits.claimed (hfits : a.Fits h) (hclaim : h.Claimed h' vm job)
    (hother : a.subject ≠ some vm) : a.Fits h' := by
  have hfree : ∀ {w}, w ≠ vm → h.Free w → h'.Free w := by
    intro w hw hfree t x hx hxw
    rcases hclaim.execs hx with ⟨-, hxvm⟩ | hx
    · exact hw (hxw.symm.trans hxvm)
    · exact hfree t x hx hxw
  have halone : ∀ {w handle}, w ≠ vm → h.Alone w handle → h'.Alone w handle := by
    intro w handle hw halone t x hx hxw
    rcases hclaim.execs hx with ⟨-, hxvm⟩ | hx
    · exact absurd (hxw.symm.trans hxvm) hw
    · exact halone t x hx hxw
  have hne : ∀ {w}, some w ≠ some vm → w ≠ vm := fun hw heq => hw (congrArg some heq)
  cases a with
  | signal w job' _ =>
    exact ⟨halone (hne hother) hfits.1, fun j hj => hfits.2 j (hclaim.jobs (hne hother) ▸ hj)⟩
  | retract w job' _ =>
    exact ⟨hfree (hne hother) hfits.1, fun j hj => hfits.2 j (hclaim.jobs (hne hother) ▸ hj)⟩
  | unclaim w _ | reopen _ w => exact hfree (hne hother) hfits
  | abort _ w handle | join _ w handle => exact halone (hne hother) hfits
  | _ => trivial

def Call.owes : Call ι → List (ι × ℕ)
  | .abortAll _ handles => handles
  | .joinAll rest | .interrupt _ _ (.join rest) => rest
  | _ => []

def Call.Holds (name : ι → String) (a : Call ι) (k : String) : Prop :=
  a.subject.map name = some k

structure Core.Owned (name : ι → String) (s : Core ι) : Prop where
  host : s.host.Owned
  guarded : Guarded (Call.Holds name) s.lock s.calls
  fits : s.calls.All (Call.Fits s.host)

lemma Core.Owned.start (rows : ι → Option VmRow) : (Core.start rows).Owned name where
  host := .start rows
  guarded := nofun
  fits := nofun

lemma Core.Owned.locked (hs : s.Owned name) (hb : s.calls c = some b) (hvm : b.subject = some vm) :
    s.lock (name vm) = some c := hs.guarded c b (name vm) hb (by simp [Call.Holds, hvm])

lemma Core.Owned.exclusive (hs : s.Owned name) {c' : ℕ} (hb : s.calls c = some b)
    (ha : s.calls c' = some a) (hvm : b.subject = some vm) (hvm' : a.subject = some vm) : c' = c :=
  some.inj ((hs.locked ha hvm').symm.trans (hs.locked hb hvm))

/-! ## What a call does -/

def Call.Removes (vm : ι) (job : UserdataJob) : Call ι → Prop
  | .take _ w => w = vm
  | .close => True
  | .retract w j _ => w = vm ∧ j = job
  | _ => False

def Call.Keeps (b : Call ι) (h h' : Host ι) : Prop :=
  ∀ {vm job}, h.job vm = some job → h'.job vm = some job ∨ b.Removes vm job

lemma Call.keeps_of_registry (hsame : h'.registry = h.registry) : b.Keeps h h' := by
  intro vm job hjob
  left
  rwa [Host.job, hsame]

structure Core.Moved (name : ι → String) (s : Core ι) (c : ℕ) (s' : Core ι) : Prop where
  owned : s'.Owned name
  host : s.host.Evolves s'.host ∨ ∃ vm job, s.host.Claimed s'.host vm job
  keeps : ∀ {b}, s.calls c = some b → b.Keeps s.host s'.host
  others : ∀ {c'}, c' ≠ c → s'.calls c' = s.calls c'
  owed : ∀ {b x}, s.calls c = some b → x ∈ b.owes →
    s.host.execs x.2 = none ∨ ∃ a, s'.calls c = some a ∧ x ∈ a.owes

variable {recovering : Bool}

namespace Core

section
variable (hs : s.Owned name)
include hs

section
variable (hb : s.calls c = some b)
include hb

lemma Owned.goto (hev : s.host.Evolves h)
    (hkeeps : b.Keeps s.host h) (hsubject : a.subject = b.subject ∨ a.subject = none) (hfits : a.Fits h)
    (howes : ∀ x ∈ b.owes, s.host.execs x.2 = none ∨ x ∈ a.owes) :
    Moved name s c ((s.withHost h).goto c a) where
  owned :=
    { host := hev.owned
      guarded := by
        refine hs.guarded.move fun k hk => ?_
        rcases hsubject with hsame | hnone
        · exact hs.guarded c b k hb (by simpa only [Call.Holds, hsame] using hk)
        · simp [Call.Holds, hnone] at hk
      fits := (hs.fits.mono fun _ hfits => hfits.evolves hev).set hfits }
  host := .inl hev
  keeps hb' := by
    cases hb.symm.trans hb'
    exact hkeeps
  others hne := set_of_ne hne
  owed hb' hx := by
    cases hb.symm.trans hb'
    exact (howes _ hx).imp_right fun hmem => ⟨a, set_self _ _ _, hmem⟩

lemma Owned.leave (hev : s.host.Evolves h)
    (hregistry : h.registry = s.host.registry) (hsubject : b.subject = some vm) (howes : b.owes = []) :
    Moved name s c ((s.withHost h).leave name c vm) where
  owned :=
    { host := hev.owned
      guarded := hs.guarded.release (hs.locked hb hsubject)
      fits := (hs.fits.mono fun _ hfits => hfits.evolves hev).clear }
  host := .inl hev
  keeps _ := keeps_of_registry hregistry
  others hne := clear_of_ne hne
  owed hb' hx := by
    cases hb.symm.trans hb'
    simp [howes] at hx

lemma Owned.stay (hsubject : a.subject = b.subject) (hfits : a.Fits s.host)
    (howes : ∀ x ∈ b.owes, s.host.execs x.2 = none ∨ x ∈ a.owes) :
    Moved name s c (s.goto c a) := hs.goto hb (.refl hs.host) .inl (.inl hsubject) hfits howes

lemma Owned.return (hsubject : b.subject = some vm) (howes : b.owes = []) :
    Moved name s c (s.leave name c vm) := hs.leave hb (.refl hs.host) rfl hsubject howes

lemma Owned.takeLock (hstep : s.takeLock c (name vm) a = some s') (hsubject : a.subject = some vm)
    (hfits : a.Fits s.host) (howes : b.owes = []) : Moved name s c s' := by
  unfold Core.takeLock at hstep
  split at hstep
  case isTrue => cases hstep
  case isFalse hfree =>
    cases hstep
    refine ⟨⟨hs.host, ?_, hs.fits.set hfits⟩, .inl (.refl hs.host), fun _ => .inl, set_of_ne, ?_⟩
    · apply hs.guarded.take (by simpa using hfree)
      intro k hk
      simp only [Call.Holds, hsubject, map_some, some.injEq] at hk
      exact .inl hk.symm
    · intro b' x hb' hx
      cases hb.symm.trans hb'
      simp [howes] at hx

end

lemma Owned.claim (hb : s.calls c = some (.claim vm recovering)) (hclaim : s.host.Claimed h vm job) :
    Moved name s c ((s.withHost h).goto c (.signal vm job recovering)) where
  owned :=
    { host := hclaim.owned
      guarded := hs.guarded.move fun k hk => hs.guarded c _ k hb hk
      fits := by
        intro c' a ha
        rcases set_eq_some ha with ⟨-, rfl⟩ | ⟨hne, ha⟩
        · exact ⟨hclaim.alone, fun j hj => (some.inj (hclaim.registered.symm.trans hj)).symm⟩
        · exact (hs.fits c' a ha).claimed hclaim fun hvm => hne (hs.exclusive hb ha rfl hvm) }
  host := .inr ⟨vm, job, hclaim⟩
  keeps _ := by
    intro w j hj
    left
    by_cases hw : w = vm
    · rw [hw, hclaim.unlisted] at hj
      cases hj
    · exact (hclaim.jobs hw).trans hj
  others hne := set_of_ne hne
  owed hb' hx := by
    cases hb.symm.trans hb'
    simp [owes] at hx

lemma Owned.retract (hb : s.calls c = some (.retract vm job recovering)) :
    Moved name s c ((s.withHost ((s.host.registry.removeIfCurrent vm job.token).2.elim
      { s.host with registry := (s.host.registry.removeIfCurrent vm job.token).1 }
      (Host.abort { s.host with registry := (s.host.registry.removeIfCurrent vm job.token).1 }))).goto
        c (.unclaim vm recovering)) := by
  obtain ⟨hfree, hown⟩ := hs.fits c _ hb
  have hremove := hs.host.removeIfCurrent vm job.token
  have hkeeps : ∀ {w j}, s.host.job w = some j →
      (s.host.registry.removeIfCurrent vm job.token).1.jobs.lookup w = some j ∨
        vm = w ∧ job = j := by
    intro w j hj
    by_cases hw : w = vm
    · subst hw
      exact .inr ⟨rfl, (hown j hj).symm⟩
    · exact .inl ((Host.removeIfCurrent_lookup_ne _ _ hw).trans hj)
  cases (s.host.registry.removeIfCurrent vm job.token).2 with
  | none => exact hs.goto hb hremove hkeeps (.inl rfl) (hremove.free hfree) nofun
  | some handle =>
  have hev := hremove.trans (hremove.owned.abort handle)
  refine hs.goto hb hev ?_ (.inl rfl) (hev.free hfree) nofun
  intro w j hj
  exact (hkeeps hj).imp_left fun hkept => by
    rwa [Host.job, elim_some, Host.abort_registry]

lemma Owned.declined (hb : s.calls c = some b) (hev : s.host.Evolves h)
    (hregistry : h.registry = s.host.registry) (hsubject : b.subject = some vm)
    (howes : b.owes = []) (recovering : Bool) :
    Moved name s c ((s.withHost h).declined name c vm recovering) := by
  cases recovering with
  | false => exact hs.leave hb hev hregistry hsubject howes
  | true =>
    exact hs.goto hb hev (keeps_of_registry hregistry) (.inl hsubject.symm) trivial
      (by simp [howes])

lemma Owned.proceed {expected : List UserdataStatus} {after : After ι}
    (hb : s.calls c = some (.interrupt vm expected after)) (hev : s.host.Evolves h)
    (hregistry : h.registry = s.host.registry) :
    Moved name s c ((s.withHost h).proceed name c vm after) := by
  have hkeeps : (interrupt vm expected after).Keeps s.host h := keeps_of_registry hregistry
  cases after with
  | unlock => exact hs.leave hb hev hregistry rfl rfl
  | join rest => exact hs.goto hb hev hkeeps (.inr rfl) trivial fun x hx => .inr hx
  | drain => exact hs.goto hb hev hkeeps (.inr rfl) trivial nofun

lemma Owned.finish (hb : s.calls c = some b) (howes : b.owes = []) :
    Moved name s c (s.finish c) where
  owned := ⟨hs.host, hs.guarded.clear, hs.fits.clear⟩
  host := .inl (.refl hs.host)
  keeps _ := .inl
  others hne := clear_of_ne hne
  owed hb' hx := by
    cases hb.symm.trans hb'
    simp [howes] at hx

lemma Owned.advance {answer : Answer ι}
    (hstep : s.advance name c answer = some s') : Moved name s c s' := by
  cases hb : s.calls c with
  | none => simp [Core.advance, hb] at hstep
  | some b =>
  have hfits := hs.fits c b hb
  cases b <;> simp only [Core.advance, hb, some.injEq] at hstep
  case start vm requireRunning | lifecycle op vm =>
    exact hs.takeLock hb hstep rfl trivial rfl
  case check vm requireRunning recovering =>
    have hdeclined := hs.declined hb (.refl hs.host) rfl rfl rfl recovering
    split at hstep
    · cases hstep
      exact hdeclined
    · split at hstep <;> cases hstep
      · exact hdeclined
      · exact hs.stay hb rfl trivial nofun
  case claim vm recovering =>
    rcases hs.host.claim_cases vm with ⟨hsame, hnone⟩ | ⟨h, job, heq, hclaim⟩
    · split at hstep
      case h_1 job heq => exact absurd (congrArg Prod.snd heq) (hnone job)
      case h_2 host _ _ heq =>
        cases hstep
        rw [heq] at hsame
        subst hsame
        exact hs.declined hb (.refl hs.host) rfl rfl rfl recovering
    · rw [heq] at hstep
      cases hstep
      exact hs.claim hb hclaim
  case signal vm job recovering =>
    split at hstep
    case h_1 h hsend =>
      cases hstep
      exact hs.leave hb (hs.host.send hsend) (Host.send_registry hsend) rfl rfl
    case h_2 hsend =>
      cases hstep
      have hover : s.host.execs job.handle = none := by simpa [Host.send] using hsend
      exact hs.stay hb rfl ⟨hfits.1.free hover, hfits.2⟩ nofun
  case retract vm job recovering =>
    subst hstep
    exact hs.retract hb
  case unclaim vm recovering =>
    subst hstep
    exact hs.declined hb (hs.host.reopen hfits) (by simp) rfl rfl recovering
  case look op vm =>
    have hreturn : Moved name s c (s.leave name c vm) := hs.return hb rfl rfl
    split at hstep
    case h_1 =>
      cases hstep
      exact hreturn
    case h_2 =>
      split at hstep
      case isTrue =>
        split at hstep <;> cases hstep
        · exact hs.stay hb rfl trivial nofun
        · exact hreturn
      case isFalse =>
        split at hstep <;> cases hstep
        · exact hs.stay hb rfl trivial nofun
        · exact hreturn
  case take op vm =>
    split at hstep
    case h_1 =>
      cases hstep
      exact hs.stay hb rfl trivial nofun
    case h_2 registry handle htake =>
      cases hstep
      obtain ⟨rfl, hhandle⟩ := Prod.mk.inj htake
      obtain ⟨job, hjob, rfl⟩ := map_eq_some_iff.mp hhandle
      have hev := hs.host.take vm
      refine hs.goto hb hev ?_ (.inl rfl) (hev.alone (hs.host.alone hjob)) nofun
      intro w j hj
      by_cases hw : w = vm
      · exact .inr hw.symm
      · exact .inl ((AList.lookup_erase_ne hw).trans hj)
  case abort op vm handle =>
    subst hstep
    have hev := hs.host.abort handle
    exact hs.goto hb hev (keeps_of_registry (by simp)) (.inl rfl) (hev.alone hfits) nofun
  case join op vm handle =>
    split at hstep
    case isTrue => cases hstep
    case isFalse hover =>
      cases hstep
      exact hs.stay hb rfl (hfits.free (by simpa using hover)) nofun
  case reopen op vm =>
    subst hstep
    exact hs.goto hb (hs.host.reopen hfits) (keeps_of_registry (by simp)) (.inl rfl) trivial nofun
  case act op vm interrupted =>
    split at hstep
    case isTrue =>
      split at hstep <;> cases hstep
      · exact hs.stay hb rfl trivial nofun
      · exact hs.return hb rfl rfl
    case isFalse =>
      split at hstep <;> cases hstep
      · exact hs.goto hb (hs.host.setState _ _) .inl (.inl rfl) trivial nofun
      · exact hs.leave hb (hs.host.retire vm) rfl rfl rfl
  case recover vm interrupted =>
    subst hstep
    exact hs.stay hb rfl trivial nofun
  case probe vm interrupted running =>
    split at hstep
    case isTrue =>
      split at hstep <;> cases hstep
      · exact hs.stay hb rfl trivial nofun
      · exact hs.return hb rfl rfl
    case isFalse =>
      cases hstep
      exact hs.stay hb rfl trivial nofun
  case interrupt vm expected after =>
    cases expected with
    | nil =>
      obtain rfl := some.inj hstep
      exact hs.proceed hb (.refl hs.host) rfl
    | cons status rest =>
    dsimp only at hstep
    have hev := hs.host.interrupt vm status
    have hregistry := s.host.transitionUserdataStatus_registry vm status .interrupted
    split at hstep
    case h_1 host heq =>
      cases hstep
      rw [heq] at hev hregistry
      exact hs.proceed hb hev hregistry
    case h_2 host _ _ heq =>
      cases hstep
      rw [heq] at hev hregistry
      have hkeeps : (Call.interrupt vm (status :: rest) after).Keeps s.host host :=
        keeps_of_registry hregistry
      cases after with
      | unlock | drain => exact hs.goto hb hev hkeeps (.inl rfl) trivial nofun
      | join rest => exact hs.goto hb hev hkeeps (.inl rfl) trivial fun x hx => .inr hx
  case close =>
    split at hstep
    case isTrue =>
      cases hstep
      exact hs.goto hb hs.host.closeAndTakeAll (fun _ => .inr trivial) (.inr rfl) trivial nofun
    case isFalse => cases hstep
  case abortAll todo handles =>
    cases todo with
    | nil =>
      obtain rfl := some.inj hstep
      exact hs.stay hb rfl trivial fun x hx => .inr hx
    | cons entry todo =>
    obtain rfl := some.inj hstep
    exact hs.goto hb (hs.host.abort _) (keeps_of_registry (by simp)) (.inl rfl) trivial
      fun x hx => .inr hx
  case joinAll rest =>
    cases rest with
    | nil =>
      obtain rfl := some.inj hstep
      exact hs.stay hb rfl trivial nofun
    | cons entry rest =>
    dsimp only at hstep
    split at hstep
    case isTrue => cases hstep
    case isFalse hover =>
      cases hstep
      refine hs.stay hb rfl trivial fun x hx => ?_
      rcases mem_cons.mp hx with rfl | hx
      · exact .inl (by simpa using hover)
      · exact .inr hx
  case drain =>
    split at hstep <;> cases hstep
    · exact hs.finish hb rfl
    · exact hs.goto hb (hs.host.setState _ _) .inl (.inr rfl) trivial nofun

end

end Core

end

/-! ## Userdata over whole runs

Every event keeps the tasks owned.  Once the shutdown has closed the registry nothing is claimed
any more, and it joins every task that was registered.
-/

variable {ι : Type} [DecidableEq ι] {name : ι → String} {h : Host ι} {s s' d : Core ι} {c : ℕ}
  {e : Event ι} {vm : ι} {job : UserdataJob} {fs : List (Event ι)}

namespace Core

/-! ## Steps -/

def Removes (s : Core ι) (vm : ι) (job : UserdataJob) : Event ι → Prop
  | .poll t _ => t = job.handle
  | .advance c _ => ∃ b, s.calls c = some b ∧ b.Removes vm job
  | _ => False

structure Stepped (name : ι → String) (s : Core ι) (e : Event ι) (s' : Core ι) : Prop where
  owned : s'.Owned name
  host : s.host.Evolves s'.host ∨ ∃ vm job, s.host.Claimed s'.host vm job
  keeps : ∀ {vm job}, s.host.job vm = some job → s'.host.job vm = some job ∨ s.Removes vm job e
  owed : ∀ {c b x}, s.calls c = some b → x ∈ b.owes → e ≠ .abandon c →
    s.host.execs x.2 = none ∨ ∃ a, s'.calls c = some a ∧ x ∈ a.owes

variable {answer : Answer ι}

lemma Moved.stepped {b : Call ι} (hmoved : Moved name s c s')
    (hb : s.calls c = some b) : Stepped name s (.advance c answer) s' where
  owned := hmoved.owned
  host := hmoved.host
  keeps hjob := (hmoved.keeps hb hjob).imp_right fun hremoves => ⟨b, hb, hremoves⟩
  owed := by
    intro c' b' x hb' hx _
    by_cases hc : c' = c
    · subst hc
      exact hmoved.owed hb' hx
    · exact .inr ⟨b', (hmoved.others hc).trans hb', hx⟩

lemma Owned.withHost (hs : s.Owned name) (hev : s.host.Evolves h)
    (hkeeps : ∀ {vm job}, s.host.job vm = some job → h.job vm = some job ∨ s.Removes vm job e) :
    Stepped name s e (s.withHost h) where
  owned := ⟨hev.owned, hs.guarded, hs.fits.mono fun _ hfits => hfits.evolves hev⟩
  host := .inl hev
  keeps := hkeeps
  owed hb hx _ := .inr ⟨_, hb, hx⟩

lemma Owned.request (hs : s.Owned name) {r : Request ι} (hidle : s.calls c = none) :
    Stepped name s (.request c r) (s.goto c r.call) where
  owned :=
    { host := hs.host
      guarded := hs.guarded.move fun k hk => by cases r <;> cases hk
      fits := hs.fits.set (by cases r <;> trivial) }
  host := .inl (.refl hs.host)
  keeps := .inl
  owed := by
    intro c' b x hb hx _
    have hc : c' ≠ c := by
      rintro rfl
      simp [hidle] at hb
    exact .inr ⟨b, (set_of_ne hc).trans hb, hx⟩

lemma Owned.abandon (hs : s.Owned name) {a : Call ι} (ha : s.calls c = some a) :
    Stepped name s (.abandon c) ((a.subject.elim s fun vm => s.unlock (name vm)).finish c) := by
  have howed : ∀ {c' b x}, s.calls c' = some b → x ∈ b.owes →
      (Event.abandon c : Event ι) ≠ .abandon c' →
      ∃ b', s.calls.clear c c' = some b' ∧ x ∈ b'.owes := by
    intro c' b x hb hx hother
    have hc : c' ≠ c := by
      rintro rfl
      exact hother rfl
    exact ⟨b, (clear_of_ne hc).trans hb, hx⟩
  cases hsubject : a.subject with
  | none =>
    exact ⟨⟨hs.host, hs.guarded.clear, hs.fits.clear⟩, .inl (.refl hs.host), .inl,
      fun hb hx hother => .inr (howed hb hx hother)⟩
  | some vm =>
    exact ⟨⟨hs.host, hs.guarded.release (hs.locked ha hsubject), hs.fits.clear⟩,
      .inl (.refl hs.host), .inl, fun hb hx hother => .inr (howed hb hx hother)⟩

lemma Owned.step (hs : s.Owned name) (hstep : s.step name e = some s') : Stepped name s e s' := by
  cases e with
  | request c r =>
    simp only [Core.step] at hstep
    split at hstep
    case isTrue => cases hstep
    case isFalse hidle =>
      cases hstep
      exact hs.request (by simpa using hidle)
  | advance c answer =>
    simp only [Core.step] at hstep
    cases hb : s.calls c with
    | none => simp [Core.advance, hb] at hstep
    | some b => exact (hs.advance hstep).stepped hb
  | poll t outcome =>
    obtain ⟨h, hpoll, rfl⟩ := map_eq_some_iff.mp hstep
    exact hs.withHost (hs.host.poll hpoll) fun hjob => hs.host.poll_keeps hpoll hjob
  | abandon c =>
    simp only [Core.step] at hstep
    split at hstep
    case h_1 a ha =>
      split at hstep <;> cases hstep
      · exact hs.abandon ha
    case h_2 => cases hstep
  | observe vm state =>
    cases hstep
    exact hs.withHost (hs.host.setState vm state) .inl

/-! ## Runs -/

lemma Owned.run {rows : ι → Option VmRow} {es : List (Event ι)}
    (hrun : (interleaved name).Run (Core.start rows) es s) : s.Owned name :=
  hrun.invariant (.start rows) fun _ _ _ hs hstep => (hs.step hstep).owned

def OneExecution (s : Core ι) : Prop :=
  ∀ t u a b, s.host.execs t = some a → s.host.execs u = some b → a.started = true →
    b.started = true → a.vm = b.vm → t = u

/-- A step claims only a pending script of an open registry, starts nothing that is completed or
failed, and takes away the registration of a task only in its own name, for a cancellation or for
the shutdown. -/
structure Orderly (s : Core ι) (e : Event ι) (s' : Core ι) : Prop where
  claims : ∀ t a, s.host.execs t = none → s'.host.execs t = some a →
    s.host.status a.vm = some .pending ∧ s.host.registry.accepting = true
  starts : ∀ t a a', s.host.execs t = some a → s'.host.execs t = some a' → a.started = false →
    a'.started = true → s.host.status a.vm = some .running ∨
      s.host.status a.vm = some .interrupted ∨ s.host.rows a.vm = none
  removes : ∀ vm job, s.host.job vm = some job → s'.host.job vm = some job ∨ s.Removes vm job e

/-- After the call closed the registry of `s`, nothing is claimed, and what was registered has
ended or is still to be joined by the call. -/
structure Drained (s : Core ι) (c : ℕ) (fs : List (Event ι)) (d : Core ι) : Prop where
  accepting : d.host.registry.accepting = false
  jobs : d.host.registry.jobs = ∅
  earlier : ∀ t a, d.host.execs t = some a → ∃ a₀, s.host.execs t = some a₀
  joined : Event.abandon c ∉ fs → ∀ vm job, s.host.job vm = some job →
    d.host.execs job.handle = none ∨ ∃ a, d.calls c = some a ∧ (vm, job.handle) ∈ a.owes

lemma Stepped.orderly (hs : s.Owned name) (hstepped : Stepped name s e s') : s.Orderly e s' where
  claims := by
    intro t a hnone hnew
    rcases hstepped.host with hev | ⟨vm, job, hclaim⟩
    · obtain ⟨a₀, ha₀, -⟩ := hev.execs hnew
      simp [hnone] at ha₀
    · rcases hclaim.execs hnew with ⟨-, rfl⟩ | hold
      · exact ⟨hclaim.pending, hclaim.accepting⟩
      · simp [hnone] at hold
  starts t a a' ha _ hunstarted _ := hs.host.unstarted ha hunstarted
  removes _ _ := hstepped.keeps

lemma close_drained (hb : s.calls c = some .close)
    (hstep : s.step name (.advance c answer) = some s') : Drained s c [] s' := by
  simp only [Core.step, Core.advance, hb] at hstep
  split at hstep
  case isFalse => cases hstep
  case isTrue hperm =>
    cases hstep
    refine ⟨rfl, rfl, fun t a ha => ⟨a, ha⟩, fun _ vm job hjob => .inr ⟨_, set_self _ _ _, ?_⟩⟩
    have hentry : (⟨vm, job⟩ : Sigma fun _ : ι => UserdataJob) ∈ s.host.registry.jobs.entries :=
      AList.mem_lookup_iff.mp hjob
    exact hperm.mem_iff.mpr (List.mem_map.mpr ⟨_, hentry, rfl⟩)

lemma Drained.step {d' : Core ι} (hdrained : Drained s c fs d)
    (hstepped : Stepped name d e d') : Drained s c (fs ++ [e]) d' := by
  have hev : d.host.Evolves d'.host := by
    rcases hstepped.host with hev | ⟨vm, job, hclaim⟩
    · exact hev
    · cases hdrained.accepting.symm.trans hclaim.accepting
  have hclosed := hev.accepting hdrained.accepting
  refine ⟨hclosed, hev.owned.closed hclosed, ?_, ?_⟩
  · intro t a ha
    obtain ⟨a₀, ha₀, -⟩ := hev.execs ha
    exact hdrained.earlier t a₀ ha₀
  intro hkept vm job hjob
  simp only [mem_append, mem_singleton, not_or] at hkept
  have hover : d.host.execs job.handle = none → d'.host.execs job.handle = none := by
    intro hover
    cases hnew : d'.host.execs job.handle with
    | none => rfl
    | some a =>
      obtain ⟨a₀, ha₀, -⟩ := hev.execs hnew
      simp [hover] at ha₀
  rcases hdrained.joined hkept.1 vm job hjob with hdone | ⟨b, hb, howed⟩
  · exact .inl (hover hdone)
  · exact (hstepped.owed hb howed (Ne.symm hkept.2)).imp_left hover

lemma Owned.drained (hs : s.Owned name) (hb : s.calls c = some .close)
    (hstep : s.step name (.advance c answer) = some s') (hrun : (interleaved name).Run s' fs d) : Drained s c fs d := by
  have hs' := (hs.step hstep).owned
  refine hrun.history (close_drained hb hstep) ?_
  intro fs d e d' hrun hdrained hnext
  have hd : d.Owned name := hrun.invariant hs' fun _ _ _ hs hstep => (hs.step hstep).owned
  exact hdrained.step (hd.step hnext)

/-! ## Ownership -/

/-- In every interleaving one execution is in progress for a VM at most, only a pending script is
claimed and none once the registry is closed, a task that ends removes no newer registration, and
the shutdown joins every task it finds registered. -/
theorem userdata_has_one_owner (name : ι → String) {rows : ι → Option VmRow}
    {es : List (Event ι)} {s : Core ι} (hrun : (interleaved name).Run (Core.start rows) es s) :
    s.OneExecution ∧ ∀ e s', s.step name e = some s' → s.Orderly e s' ∧
      ∀ c answer, e = .advance c answer → s.calls c = some .close →
        ∀ fs d, (interleaved name).Run s' fs d → Drained s c fs d := by
  have hs := Owned.run hrun
  refine ⟨fun t u a b ha hb _ _ hvm => hs.host.single ha hb hvm, fun e s' hstep => ?_⟩
  refine ⟨(hs.step hstep).orderly hs, ?_⟩
  rintro c answer rfl hclose fs d hlater
  exact hs.drained hclose hstep hlater

end Core

/-! ## One VM with a script -/

def webName : Fin 1 → String := fun _ => "web"

def webRows : Fin 1 → Option VmRow :=
  fun _ => some ⟨.running, some "#!/bin/sh\necho hello\n", some .pending⟩

/-- A stop has taken the job and not aborted it yet.  The drain finds nothing registered and marks
the script interrupted; then the job is polled and starts.  In the second run the deadline of the
drain passes before the task it aborted has ended. -/
theorem drained_script_starts : (∃ d, (interleaved webName).Run (Core.start webRows)
      [.request 0 (.spawnUserdata 0), .advance 0 {}, .advance 0 {}, .advance 0 {}, .advance 0 {},
       .request 1 (.lifecycle .stop 0), .advance 1 {}, .advance 1 {}, .advance 1 {},
       .request 2 .drainVms, .advance 2 {}, .advance 2 {}, .advance 2 {},
       .advance 2 { vm := some 0 }, .advance 2 {}, .poll 0 .error] d ∧
      d.host.registry.accepting = false ∧ d.host.status 0 = some .interrupted ∧
      ((d.host.execs 0).any fun a => !a.started) ∧
      ((d.step webName (.poll 0 .error)).any fun d' => (d'.host.execs 0).any (·.started))) ∧
    ∃ d, (interleaved webName).Run (Core.start webRows)
      [.request 0 (.spawnUserdata 0), .advance 0 {}, .advance 0 {}, .advance 0 {}, .advance 0 {},
       .poll 0 .error, .poll 0 .error, .request 1 .drainVms, .advance 1 { order := [(0, 0)] },
       .advance 1 {}, .advance 1 {}, .abandon 1] d ∧
      d.host.registry.accepting = false ∧ d.calls 1 = none ∧
      ((d.host.execs 0).any fun a => a.started && a.aborted) := by
  constructor
  · apply exists_run_ofStep
    decide +kernel
  · apply exists_run_ofStep
    decide +kernel

theorem web_shutdown_joins : ∃ s s', (interleaved webName).Run (Core.start webRows)
      [.request 0 (.spawnUserdata 0), .advance 0 {}, .advance 0 {}, .advance 0 {}, .advance 0 {},
       .poll 0 .error, .poll 0 .error, .request 1 .drainVms] s ∧
      s.step webName (.advance 1 { order := [(0, 0)] }) = some s' ∧
      s.OneExecution ∧ s.Drained 1 [] s' := by
  obtain ⟨s, hrun, hclose, hsome⟩ : ∃ s, (interleaved webName).Run (Core.start webRows)
      [.request 0 (.spawnUserdata 0), .advance 0 {}, .advance 0 {}, .advance 0 {}, .advance 0 {},
       .poll 0 .error, .poll 0 .error, .request 1 .drainVms] s ∧
      s.calls 1 = some .close ∧
      (s.step webName (.advance 1 { order := [(0, 0)] })).isSome := by
    apply exists_run_ofStep
    decide +kernel
  obtain ⟨s', hstep⟩ := isSome_iff_exists.mp hsome
  have howner := Core.userdata_has_one_owner webName hrun
  exact ⟨s, s', hrun, hstep, howner.1, (howner.2 _ s' hstep).2 1 _ rfl hclose [] s' (.nil _)⟩

end Husker.Userdata
