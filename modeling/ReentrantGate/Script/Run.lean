/-
**Running scripts.**

A script is a list of steps.  A step moves the clock or makes one thread perform calls; a step of a
thread that is still parked is skipped.  The answer to a step shows what happened, who is parked
afterwards, the clock, and every gate.

Main definitions:

* `Script.Step`, `Script.Answer`;
* `System.take`, `System.takeAll` — one step, and several in a row;
* `Script.run` — the answers to all steps, from fresh gates and events.

Main results:

* `Script.runnable_take` — after a step nobody can go on until the next one.
-/

import ReentrantGate.Script.System

set_option relaxedAutoImplicit false
set_option autoImplicit false

namespace ReentrantGate.Script

/-- One step of a script. -/
inductive Step
  | advance (ns : Nat)
  | perform (thread : ThreadId) (calls : List Call)

/-- The answer to a step. -/
structure Answer where
  journal : List Entry
  parked : List String
  clock : Nat
  gates : List Gate.Snapshot
  busy : Bool
  deriving DecidableEq

namespace System

/-- A system of fresh gates and events. -/
def fresh (gates events : Nat) (silent : Bool) : System := ⟨World.fresh gates events silent, [], []⟩

/-- What can be seen of a system, with names in the order of their characters. -/
def observe (s : System) (busy : Bool) : Answer where
  journal := s.world.journal
  parked := (s.parked.map (·.thread.name)).mergeSort
  clock := s.world.clock
  gates := s.world.gates.map Gate.snapshot
  busy := busy

/-- One step, with a journal that starts empty; the answer is whether the step was skipped. -/
def take (s : System) (step : Step) : System × Bool :=
  let s := { s with world := { s.world with journal := [] } }
  match step with
  | .advance ns => (s.advance (s.world.clock + ns), false)
  | .perform t calls => if s.isParked t then (s, true) else (s.submit t calls, false)

theorem runnable_advance {s : System} {target : Nat} (h : s.runnable = []) :
    (s.advance target).runnable = [] := by
  fun_induction advance s target with
  | case1 s hp => exact h
  | case2 s p hp ih => exact ih (runnable_settle _)

/-- After a step nobody can go on until the next one. -/
theorem runnable_take {s : System} {step : Step} (h : s.runnable = []) :
    (s.take step).1.runnable = [] := by
  cases step with
  | advance ns => exact runnable_advance h
  | perform t calls =>
      simp only [take]
      split
      · exact h
      · exact runnable_settle _

/-- The system after some steps. -/
def takeAll (s : System) (steps : List Step) : System :=
  steps.foldl (fun s step => (s.take step).1) s

theorem takeAll_cons (s : System) (step : Step) (steps : List Step) :
    s.takeAll (step :: steps) = (s.take step).1.takeAll steps := rfl

theorem runnable_takeAll {s : System} (h : s.runnable = []) (steps : List Step) :
    (s.takeAll steps).runnable = [] := by
  induction steps generalizing s with
  | nil => exact h
  | cons step steps ih => exact ih (runnable_take h)

end System

/-- The answers to the steps of a script that goes on from a system. -/
def answers (s : System) : List Step → List Answer
  | [] => []
  | step :: steps =>
      let (s', busy) := s.take step
      s'.observe busy :: answers s' steps

theorem answers_append (s : System) (steps later : List Step) :
    answers s (steps ++ later) = answers s steps ++ answers (s.takeAll steps) later := by
  induction steps generalizing s with
  | nil => rfl
  | cons step steps ih => simp only [List.cons_append, answers, ih, System.takeAll_cons]

theorem length_answers (s : System) (steps : List Step) :
    (answers s steps).length = steps.length := by
  induction steps generalizing s with
  | nil => rfl
  | cons step steps ih => rw [answers, List.length_cons, ih, List.length_cons]

/-- The answers to the steps of a script on fresh gates and events. -/
def run (gates events : Nat) (silent : Bool) (steps : List Step) : List Answer :=
  answers (System.fresh gates events silent) steps

end ReentrantGate.Script
