/-
**An event whose handles are around.**

The threads at an event form a crowd, and its handles are kept under names.  Anything may happen in
the crowd, and at any moment some thread may create, clone or drop a handle.  An operation that ends
a family signals the event like any other signal.

Main definitions:

* `Event.Household`, `Event.Deed` — the crowd with the handles, and what can happen;
* `Household.act`, `Household.run`, `Household.Reachable`.

Main results:

* `Household.run_crowd` — **to the crowd, operations on handles are signals or nothing**.
-/

import ReentrantGate.Event.Crowd
import ReentrantGate.Event.Handles

set_option relaxedAutoImplicit false
set_option autoImplicit false

namespace ReentrantGate.Event

/-- The crowd at an event with the handles of the event. -/
structure Household where
  crowd : Crowd := {}
  handles : Handles := {}
  deriving DecidableEq

/-- What can happen: something in the crowd, or an operation on handles, which picks the parked
thread that it wakes if it ends a family. -/
inductive Deed
  | inCrowd (action : Action)
  | create (name : String) (pick : Nat)
  | clone (source name : String) (pick : Nat)
  | drop (name : String) (pick : Nat)
  deriving DecidableEq

namespace Household

/-- An operation on handles is over; the end of a family signals the event. -/
def conclude (h : Household) (pick : Nat) :
    Handles × Option Nat → Option (Household × Option Occurrence)
  | (handles, none) => some ({ h with handles := handles }, none)
  | (handles, some _) =>
      (h.crowd.act (.signal pick)).map fun (crowd, ended) => (⟨crowd, handles⟩, ended)

/-- One thing happens, if it can; a signal or a wait may be over after it. -/
def act (h : Household) : Deed → Option (Household × Option Occurrence)
  | .inCrowd a => (h.crowd.act a).map fun (crowd, ended) => ({ h with crowd := crowd }, ended)
  | .create name pick => h.conclude pick (h.handles.create name 0)
  | .clone source name pick => (h.handles.clone? source name).bind (h.conclude pick)
  | .drop name pick => (h.handles.drop? name).bind (h.conclude pick)

/-- Several things happen in a row; the answer has what is over, in order. -/
def run (h : Household) : List Deed → Option (Household × List Occurrence)
  | [] => some (h, [])
  | d :: ds =>
      match h.act d with
      | none => none
      | some (h', ended) => (h'.run ds).map fun (k, later) => (k, ended.toList ++ later)

/-- The households that can come about at a fresh event without handles. -/
def Reachable (h : Household) : Prop := ∃ ds history, run {} ds = some (h, history)

/-! ### What the crowd sees -/

variable {h h' : Household} {d : Deed} {o : Option Occurrence}

theorem conclude_crowd {pick : Nat} {outcome : Handles × Option Nat}
    (hc : h.conclude pick outcome = some (h', o)) :
    h'.crowd = h.crowd ∧ o = none ∨ h.crowd.act (.signal pick) = some (h'.crowd, o) := by
  obtain ⟨handles, family⟩ := outcome
  cases family with
  | none =>
      cases hc
      exact .inl ⟨rfl, rfl⟩
  | some e =>
      simp only [conclude, Option.map_eq_some_iff] at hc
      obtain ⟨p, hp, hc⟩ := hc
      cases hc
      exact .inr hp

/-- What happens is something in the crowd, or the crowd does not notice. -/
theorem act_crowd (hd : h.act d = some (h', o)) :
    h'.crowd = h.crowd ∧ o = none ∨ ∃ a, h.crowd.act a = some (h'.crowd, o) := by
  have key : ∀ {pick outcome}, h.conclude pick outcome = some (h', o) →
      h'.crowd = h.crowd ∧ o = none ∨ ∃ a, h.crowd.act a = some (h'.crowd, o) :=
    fun hc => (conclude_crowd hc).imp_right fun ha => ⟨_, ha⟩
  cases d with
  | inCrowd a =>
      obtain ⟨p, hp, hd⟩ := Option.map_eq_some_iff.1 hd
      cases hd
      exact .inr ⟨a, hp⟩
  | create name pick => exact key hd
  | clone source name pick =>
      obtain ⟨p, -, hd⟩ := Option.bind_eq_some_iff.1 hd
      exact key hd
  | drop name pick =>
      obtain ⟨p, -, hd⟩ := Option.bind_eq_some_iff.1 hd
      exact key hd

/-- **To the crowd a run is a run of its own**, with the same history. -/
theorem run_crowd {ds : List Deed} {history : List Occurrence}
    (hr : h.run ds = some (h', history)) : ∃ as, h.crowd.run as = some (h'.crowd, history) := by
  induction ds generalizing h history with
  | nil =>
      cases hr
      exact ⟨[], rfl⟩
  | cons d ds ih =>
      simp only [run] at hr
      cases hd : h.act d with
      | none => simp [hd] at hr
      | some p =>
          obtain ⟨k, o⟩ := p
          simp only [hd] at hr
          obtain ⟨q, hq, hr⟩ := Option.map_eq_some_iff.1 hr
          cases hr
          obtain ⟨as, has⟩ := ih hq
          rcases act_crowd hd with ⟨hcrowd, rfl⟩ | ⟨a, ha⟩
          · exact ⟨as, by simpa [hcrowd] using has⟩
          · exact ⟨a :: as, by simp [Crowd.run, ha, has]⟩

theorem Reachable.crowd (hr : h.Reachable) : h.crowd.Reachable := by
  obtain ⟨ds, history, hr⟩ := hr
  obtain ⟨as, has⟩ := run_crowd hr
  exact ⟨as, history, has⟩

end Household

end ReentrantGate.Event
