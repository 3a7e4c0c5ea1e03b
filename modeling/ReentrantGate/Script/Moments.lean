/-
**The moments of a script.**

Between two answers of a script many turns may be taken.  The moments of a script are the systems
from which somebody takes a turn, in order; a sleeper that is woken by the clock takes its turn as
the first runner.  With them it can be said when a call starts, which no answer shows.

Main definitions:

* `System.awake`, `System.enlist` — the clock has come to the deadline of a sleeper, and a thread is
  about to start calls;
* `System.turns`, `System.turnsUntil`, `System.turnsIn`, `Script.moments` — the moments of a
  system that comes to rest, while the clock moves, in a step, and in a script;
* `Script.starts` — when the calls with a label start.

Main results:

* `System.rouse_eq_turn` — rousing a sleeper is a turn of it.
-/

import ReentrantGate.Script.Run

set_option relaxedAutoImplicit false
set_option autoImplicit false

namespace ReentrantGate.Script

/-! ### Turns -/

namespace System

/-- The clock has moved to a deadline, never backwards, and its sleeper is the first runner. -/
def awake (s : System) (p : Due) : System where
  world := { s.world with clock := max s.world.clock p.deadline }
  parked := p.others
  runnable := p.sleeper.wake :: s.runnable

@[simp] theorem gates_awake (s : System) (p : Due) : (s.awake p).world.gates = s.world.gates := rfl

@[simp] theorem events_awake (s : System) (p : Due) :
    (s.awake p).world.events = s.world.events := rfl

@[simp] theorem clock_awake (s : System) (p : Due) :
    (s.awake p).world.clock = max s.world.clock p.deadline := rfl

@[simp] theorem journal_awake (s : System) (p : Due) :
    (s.awake p).world.journal = s.world.journal := rfl

/-- **Rousing a sleeper is a turn of it.** -/
theorem rouse_eq_turn (s : System) (p : Due) : s.rouse p = (s.awake p).turn := rfl

/-- The journal starts empty. -/
def clear (s : System) : System := { s with world := { s.world with journal := [] } }

/-- A thread is about to start calls, after all who can go on. -/
def enlist (s : System) (t : ThreadId) (calls : List Call) : System :=
  { s with runnable := s.runnable ++ [Runner.mk t (calls.map .start)] }

theorem take_advance (s : System) (ns : Nat) :
    s.take (.advance ns) = (s.clear.advance (s.world.clock + ns), false) := rfl

theorem take_of_parked {s : System} {t : ThreadId} (h : s.isParked t = true) (calls : List Call) :
    s.take (.perform t calls) = (s.clear, true) := if_pos h

theorem take_of_not_parked {s : System} {t : ThreadId} (h : s.isParked t = false)
    (calls : List Call) :
    s.take (.perform t calls) = ((s.clear.enlist t calls).settle, false) :=
  if_neg (ne_true_of_eq_false h)

/-- The moments until everything has come to rest. -/
def turns (s : System) : List System :=
  if s.runnable = [] then [] else s :: s.turn.turns
termination_by (s.load, s.runnable.length)
decreasing_by
  rcases turn_lt ‹_› with h | ⟨h, hl⟩
  · exact .left _ _ h
  · rw [h]
    exact .right _ hl

/-- The moments while the clock moves to `target`. -/
def turnsUntil (s : System) (target : Nat) : List System :=
  match _ : popDue target s.parked with
  | none => []
  | some p => (s.awake p).turns ++ (s.rouse p).settle.turnsUntil target
termination_by s.load
decreasing_by exact Nat.lt_of_le_of_lt (load_settle_le _) (load_rouse_lt ‹_›)

/-- The moments of a step. -/
def turnsIn (s : System) : Step → List System
  | .advance ns => s.clear.turnsUntil (s.world.clock + ns)
  | .perform t calls => if s.isParked t then [] else (s.clear.enlist t calls).turns

/-- The clock, if somebody is about to start a call with that label. -/
def starting? (label : Nat) (s : System) : Option Nat :=
  match s.runnable with
  | ⟨_, .start c :: _⟩ :: _ => if c.site.label = label then some s.world.clock else none
  | _ => none

end System

/-! ### One step of a recursion -/

namespace System

variable {s : System} {target : Nat} {p : Due}

theorem settle_of_nil (h : s.runnable = []) : s.settle = s := by
  rw [settle, if_pos h]

theorem settle_of_ne_nil (h : s.runnable ≠ []) : s.settle = s.turn.settle := by
  rw [settle, if_neg h]

theorem turns_of_ne_nil (h : s.runnable ≠ []) : s.turns = s :: s.turn.turns := by
  rw [turns, if_neg h]

theorem advance_of_none (h : popDue target s.parked = none) :
    s.advance target = { s with world := { s.world with clock := target } } := by
  rw [advance]
  split
  · rfl
  · rename_i p hp
    rw [h] at hp
    cases hp

theorem advance_of_some (h : popDue target s.parked = some p) :
    s.advance target = (s.rouse p).settle.advance target := by
  rw [advance]
  split
  · rename_i hp
    rw [h] at hp
    cases hp
  · rename_i q hq
    rw [h] at hq
    cases hq
    rfl

theorem turns_of_nil (h : s.runnable = []) : s.turns = [] := by
  rw [turns, if_pos h]

theorem turnsUntil_of_none (h : popDue target s.parked = none) : s.turnsUntil target = [] := by
  rw [turnsUntil]
  split
  · rfl
  · rename_i p hp
    rw [h] at hp
    cases hp

theorem turnsUntil_of_some (h : popDue target s.parked = some p) :
    s.turnsUntil target =
      s.awake p :: (s.rouse p).turns ++ (s.rouse p).settle.turnsUntil target := by
  have hne : (s.awake p).runnable ≠ [] := by simp [awake]
  rw [turnsUntil]
  split
  · rename_i hp
    rw [h] at hp
    cases hp
  · rename_i q hq
    rw [h] at hq
    cases hq
    rw [turns_of_ne_nil hne, ← rouse_eq_turn]

end System

/-! ### Scripts -/

/-- The moments of a script that goes on from a system. -/
def moments (s : System) : List Step → List System
  | [] => []
  | step :: steps => s.turnsIn step ++ moments (s.take step).1 steps

theorem moments_append (s : System) (steps later : List Step) :
    moments s (steps ++ later) = moments s steps ++ moments (s.takeAll steps) later := by
  induction steps generalizing s with
  | nil => rfl
  | cons step steps ih =>
      simp only [List.cons_append, moments, ih, System.takeAll_cons, List.append_assoc]

/-- When the calls with a label start. -/
def starts (label : Nat) (gates events : Nat) (silent : Bool) (steps : List Step) : List Nat :=
  (moments (System.fresh gates events silent) steps).filterMap (System.starting? label)

end ReentrantGate.Script
