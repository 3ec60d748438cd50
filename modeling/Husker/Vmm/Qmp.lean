import Husker.Relational.Machine
import Husker.Store.Schema

/-! # Replies on a QMP connection

Commands carry no identifier: a flag that is set before the first await of a call and cleared only
when the call returns `Ok` keeps a late reply from the calls after it.
-/
namespace Husker.Vmm.Qmp
open Relational Store List

structure QmpError where
  kind : String
  desc : String

structure QmpResponse where
  returnVal : Option Json
  error : Option QmpError
  event : Option Json

structure QmpCommand where
  call : ℕ
  execute : String
  arguments : Option Json

inductive Result
  | value (v : Json)
  | qmp (e : QmpError)
  | failed (why : String)

def Result.isOk : Result → Bool
  | .value _ => true
  | _ => false

def QmpResponse.result (r : QmpResponse) : Result :=
  match r.error with
  | some e => .qmp e
  | none => .value (r.returnVal.getD (.object []))

inductive Phase
  | idle
  | writing (c : QmpCommand)
  | reading (c : QmpCommand)

/-- The commands whose reply a client in this phase has yet to read. -/
def Phase.owes : Phase → List QmpCommand
  | .reading c => [c]
  | _ => []

/-- The client and what the server owes it.  `answers`, `returned` and `sent` only grow. -/
structure QmpClient where
  failed : Bool
  phase : Phase
  owed : List QmpCommand
  answers : List (QmpCommand × QmpResponse)
  returned : List (QmpCommand × Result)
  sent : List QmpCommand

inductive Event
  | execute (cmd : String) (args : Option Json)
  | write (last : Bool)
  | read (line : QmpResponse)
  | abort (why : String)

open QmpClient

namespace QmpClient

variable (s : QmpClient)

def finish (c : QmpCommand) (res : Result) : QmpClient :=
  { s with phase := .idle, failed := !res.isOk, returned := s.returned ++ [(c, res)] }

def execute (c : QmpCommand) : QmpClient :=
  if s.failed then s.finish c (.failed "QMP connection unusable after failed or cancelled command")
  else { s with failed := true, phase := .writing c }

/-- The server answers in order, so the next line that is no event, whenever it was sent, is the
reply to the oldest command whose reply was not read. -/
def step : Event → Option QmpClient
  | .execute cmd args => match s.phase with
    | .idle => some (s.execute ⟨s.returned.length, cmd, args⟩)
    | _ => none
  | .write last => match s.phase, last with
    | .writing c, false => some { s with sent := s.sent ++ [c] }
    | .writing c, true =>
      some { s with sent := s.sent ++ [c], owed := s.owed ++ [c], phase := .reading c }
    | _, _ => none
  | .read r => match s.phase, s.owed with
    | .reading c, first :: owed =>
      if r.event.isSome then some s
      else some (finish { s with owed, answers := s.answers ++ [(first, r)] } c r.result)
    | _, _ => none
  -- A timeout, an I/O error, a line too long or unreadable, or the future of the call is dropped.
  | .abort why => match s.phase with
    | .idle => none
    | .writing c | .reading c => some (s.finish c (.failed why))

/-- What the call returned is what the server answered to its command. -/
def Belongs (p : QmpCommand × Result) : Prop :=
  (∃ why, p.2 = .failed why) ∨ ∃ r, (p.1, r) ∈ s.answers ∧ p.2 = r.result

/-- The client is refused every further call, or has had every reply but that of the call it is in. -/
structure Matched : Prop where
  synced : s.phase = .idle ∧ s.failed ∨ s.owed = s.phase.owes ∧ ∀ p ∈ s.returned, p.2.isOk
  returned : ∀ p ∈ s.returned, s.Belongs p

variable {s} {s' : QmpClient} {c : QmpCommand} {a : Event}

lemma finish_matched {res : Result} (hreturned : ∀ p ∈ s.returned, s.Belongs p)
    (hres : s.Belongs (c, res)) (hok : res.isOk → s.owed = [] ∧ ∀ p ∈ s.returned, p.2.isOk) :
    (s.finish c res).Matched where
  synced := by
    unfold finish
    grind [Phase.owes]
  returned := forall_mem_append.mpr ⟨hreturned, forall_mem_singleton.mpr hres⟩

lemma Matched.fails (h : s.Matched) (why : String) : (s.finish c (.failed why)).Matched :=
  finish_matched h.returned (.inl ⟨why, rfl⟩) nofun

lemma Matched.step (h : s.Matched) (hstep : s.step a = some s') : s'.Matched := by
  have ⟨hsynced, hreturned⟩ := h
  cases a with
  | execute cmd args =>
    simp only [step] at hstep
    split at hstep <;> cases hstep
    unfold execute
    split
    case isTrue => exact h.fails _
    case isFalse hfailed => exact ⟨by grind [Phase.owes], hreturned⟩
  | write last =>
    simp only [step] at hstep
    split at hstep <;> cases hstep <;> exact ⟨by grind [Phase.owes], hreturned⟩
  | read r =>
    simp only [step] at hstep
    split at hstep
    next c first owed hphase howed =>
      split at hstep <;> cases hstep
      · exact h
      · -- The only reply that is owed is that to `c`.
        obtain ⟨⟨rfl, rfl⟩, hok⟩ : (first = c ∧ owed = []) ∧ ∀ p ∈ s.returned, p.2.isOk := by
          grind [Phase.owes]
        refine finish_matched (fun p hp => ?_) (.inr ⟨r, by simp, rfl⟩) fun _ => ⟨rfl, hok⟩
        exact (hreturned p hp).imp_right fun ⟨r', hr', hres⟩ => ⟨r', mem_append_left _ hr', hres⟩
    next => cases hstep
  | abort why =>
    simp only [step] at hstep
    split at hstep <;> cases hstep <;> exact h.fails why

lemma step_dead (h : s.phase = .idle ∧ s.failed) (hstep : s.step a = some s') :
    (s'.phase = .idle ∧ s'.failed) ∧ s'.sent = s.sent := by
  cases a <;> simp only [step, h.1] at hstep <;> grind [execute, finish, Result.isOk]

end QmpClient

def qmp : Machine QmpClient Event := .ofStep QmpClient.step

def connected : QmpClient := ⟨false, .idle, [], [], [], []⟩

theorem replies_belong {as : List Event} {s : QmpClient} (hrun : qmp.Run connected as s) :
    (∀ p ∈ s.returned, (∃ why, p.2 = .failed why) ∨ ∃ r, (p.1, r) ∈ s.answers ∧ p.2 = r.result) ∧
    ((∃ p ∈ s.returned, ¬p.2.isOk) → ∀ bs s', qmp.Run s bs s' → s'.sent = s.sent) := by
  have hmatched : s.Matched := by
    apply hrun.invariant (I := QmpClient.Matched) ⟨.inr ⟨rfl, nofun⟩, nofun⟩
    exact fun s a s' h hstep => h.step hstep
  refine ⟨hmatched.returned, fun ⟨p, hp, hbad⟩ bs s' hlater => ?_⟩
  have hdead := hmatched.synced.resolve_right fun h => hbad (h.2 p hp)
  apply And.right (a := s'.phase = .idle ∧ s'.failed)
  apply hlater.invariant (I := fun t => (t.phase = .idle ∧ t.failed) ∧ t.sent = s.sent) ⟨hdead, rfl⟩
  intro t a t' ⟨hdead, hsent⟩ hstep
  have ⟨hdead', hsent'⟩ := step_dead hdead hstep
  exact ⟨hdead', hsent'.trans hsent⟩

theorem first_reply_belongs : ∃ s, qmp.Run connected [.execute "stop" none, .write true,
      .read ⟨none, none, some .null⟩, .read ⟨none, none, none⟩] s ∧
    ∀ p ∈ s.returned, (∃ why, p.2 = .failed why) ∨ ∃ r, (p.1, r) ∈ s.answers ∧ p.2 = r.result :=
  have hrun := Machine.run_ofStep rfl
  ⟨_, hrun, (replies_belong hrun).1⟩

end Husker.Vmm.Qmp
