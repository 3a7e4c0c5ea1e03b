/-
**Any number of threads at one gate, in any order.**

A crowd is a gate with the threads that are in the middle of a call on it: some are parked, others
have been woken and have not had the lock since.  All other threads may start a call at any time.
What happens next is not determined: any idle thread may start any call, any woken thread may take
the lock, a parked thread may wake by itself, and time may pass.  Each segment may find the sink of
the log failing; that unwinds the call after everything else has been done.

Main definitions:

* `Gate.Visitor`, `Gate.Crowd`, `Gate.Action` — who is there, and what can happen;
* `Gate.Occurrence` — a call that is over, and how it ended;
* `Crowd.act`, `Crowd.run` — one thing that happens, and several in a row;
* `Crowd.Reachable` — the crowds that can come about at a fresh gate.

Main results:

* `Crowd.run_append` — a run goes on where the one before it ended;
* `Crowd.Reachable.act` — what can happen leads from reachable crowds to reachable crowds.
-/

import ReentrantGate.Gate.Segment

set_option relaxedAutoImplicit false
set_option autoImplicit false

namespace ReentrantGate.Gate

/-- A thread in the middle of a call, with what it waits for. -/
structure Visitor where
  thread : ThreadId
  waiting : Waiting
  deriving DecidableEq

/-- A gate with the threads that are parked at it or have just been woken, and the clock. -/
structure Crowd where
  gate : Gate := {}
  parked : List Visitor := []
  woken : List Visitor := []
  clock : Nat := 0
  deriving DecidableEq

/-- What can happen: a segment of a thread, whose sink may fail, a wakeup without any notice, or the
passing of time. -/
inductive Action
  | call (thread : ThreadId) (request : Request) (sinkFails : Bool)
  | resume (thread : ThreadId) (sinkFails : Bool)
  | rouse (thread : ThreadId)
  | tick (ns : Nat)
  deriving DecidableEq

/-- A call that is over: its thread, the kind of hold that it was about, the verdict, the note that
it left, and whether the sink failed on the note, so that the caller saw no verdict. -/
structure Occurrence where
  thread : ThreadId
  hold : Hold
  verdict : Verdict
  note : Option Note
  unwound : Bool
  deriving DecidableEq

/-- The kind of hold that a request is about. -/
def Request.hold : Request → Hold
  | enter _ => .entry
  | exit => .entry
  | close _ => .close
  | reopen => .close

/-- The kind of hold that a parked thread wants. -/
def Waiting.hold : Waiting → Hold
  | entry .. => .entry
  | exclusivity _ => .close
  | drain _ => .close

namespace Crowd

/-- A thread is idle if it is not in the middle of a call. -/
def idle (c : Crowd) (t : ThreadId) : Bool := !(c.parked ++ c.woken).any (·.thread = t)

/-- Whether a thread has been woken and not had the lock since. -/
def isWoken (c : Crowd) (t : ThreadId) : Bool := c.woken.any (·.thread = t)

/-- What thread `t` is parked for, if it is parked. -/
def parkedFor? (c : Crowd) (t : ThreadId) : Option Waiting :=
  (c.parked.find? (·.thread = t)).map (·.waiting)

/-! ### Segments -/

/-- The crowd after a segment of `t`: it may have parked, or have woken a room. -/
def absorb (c : Crowd) (t : ThreadId) : Segment → Crowd
  | .park g w => { c with gate := g, parked := c.parked ++ [⟨t, w⟩] }
  | .done g room _ _ =>
      { c with
        gate := g
        parked := c.parked.filter fun v => room ≠ some v.waiting.room
        woken := c.woken ++ c.parked.filter fun v => room = some v.waiting.room }

/-- The call of `t` that is over after a segment. -/
def occurrence? (t : ThreadId) (hold : Hold) (sinkFails : Bool) : Segment → Option Occurrence
  | .park .. => none
  | .done _ _ note verdict => some ⟨t, hold, verdict, note, sinkFails && note.isSome⟩

/-! ### What can happen -/

/-- One thing happens, if it can; a call may be over after it. -/
def act (c : Crowd) : Action → Option (Crowd × Option Occurrence)
  | .call t r sinkFails =>
      if c.idle t then
        let segment := begin t c.clock r c.gate
        some (c.absorb t segment, occurrence? t r.hold sinkFails segment)
      else none
  | .resume t sinkFails =>
      match c.woken.find? (·.thread = t) with
      | none => none
      | some v =>
          let rest := { c with woken := c.woken.eraseP (·.thread = t) }
          let segment := resume t c.clock v.waiting c.gate
          some (rest.absorb t segment, occurrence? t v.waiting.hold sinkFails segment)
  | .rouse t =>
      match c.parked.find? (·.thread = t) with
      | none => none
      | some v =>
          some ({ c with
            parked := c.parked.eraseP (·.thread = t)
            woken := c.woken ++ [v] }, none)
  | .tick ns => some ({ c with clock := c.clock + ns }, none)

/-- Several things happen in a row; the answer has the calls that are over, in order. -/
def run (c : Crowd) : List Action → Option (Crowd × List Occurrence)
  | [] => some (c, [])
  | a :: as =>
      match c.act a with
      | none => none
      | some (c', ended) => (c'.run as).map fun (d, later) => (d, ended.toList ++ later)

/-- The crowds that can come about at a fresh gate. -/
def Reachable (c : Crowd) : Prop := ∃ as history, run {} as = some (c, history)

theorem run_append (c : Crowd) (as bs : List Action) :
    c.run (as ++ bs) = (c.run as).bind fun p => (p.1.run bs).map fun q => (q.1, p.2 ++ q.2) := by
  induction as generalizing c with
  | nil => simp [run]
  | cons a as ih =>
      simp only [List.cons_append, run]
      cases c.act a with
      | none => rfl
      | some p =>
          simp only [ih]
          cases p.1.run as with
          | none => rfl
          | some q => simp [Function.comp_def, List.append_assoc]

/-- What can happen leads from reachable crowds to reachable crowds. -/
theorem Reachable.act {c d : Crowd} {a : Action} {ended : Option Occurrence} (h : c.Reachable)
    (ha : c.act a = some (d, ended)) : d.Reachable := by
  obtain ⟨as, history, hr⟩ := h
  exact ⟨as ++ [a], history ++ ended.toList, by simp [run_append, hr, run, ha]⟩

end Crowd

end ReentrantGate.Gate
