/-
**Any number of threads at one event, in any order.**

As with a gate, some threads are parked at the event and others have been woken and have not looked
at the flag since.  Any idle thread may start a wait, any thread may signal, a woken thread may look
at the flag, a parked thread may wake by itself, and time may pass.  A signal wakes one parked
thread, whichever.

Main definitions:

* `Event.Visitor`, `Event.Crowd`, `Event.Action`, `Event.Occurrence`;
* `Crowd.act`, `Crowd.run` — one thing that happens, and several in a row;
* `Crowd.Reachable` — the crowds that can come about at a fresh event.
-/

import ReentrantGate.Event.Basic
import ReentrantGate.Thread

set_option relaxedAutoImplicit false
set_option autoImplicit false

namespace ReentrantGate.Event

/-- A thread in the middle of a wait, with its deadline. -/
structure Visitor where
  thread : ThreadId
  deadline : Deadline
  deriving DecidableEq

/-- An event with the threads that are parked at it or have just been woken, and the clock. -/
structure Crowd where
  event : Event := {}
  parked : List Visitor := []
  woken : List Visitor := []
  clock : Nat := 0
  deriving DecidableEq

/-- What can happen.  A signal, which dropping the last handle of a family is too, picks the parked
thread that it wakes; a wait has a limit or not. -/
inductive Action
  | signal (pick : Nat)
  | wait (thread : ThreadId) (limit : Option Duration)
  | resume (thread : ThreadId)
  | rouse (thread : ThreadId)
  | tick (ns : Nat)
  deriving DecidableEq

/-- What is over: a signal, which found the flag set or not, or a wait, which took the flag, gave
up, or had a deadline that does not exist. -/
inductive Occurrence
  | signalled (wasSet : Bool)
  | succeeded (thread : ThreadId)
  | gaveUp (thread : ThreadId)
  | overflowed (thread : ThreadId)
  deriving DecidableEq

namespace Crowd

/-- A thread is idle if it is not in the middle of a wait. -/
def idle (c : Crowd) (t : ThreadId) : Bool := !(c.parked ++ c.woken).any (·.thread = t)

/-- The deadline of a wait that starts now; `none` if the clock cannot hold it. -/
def deadline? (c : Crowd) : Option Duration → Option Deadline
  | none => some none
  | some d => (Instant.add? c.clock d.toNanos).map some

/-- Thread `t`, which is neither parked nor woken, looks at the flag. -/
def look (c : Crowd) (t : ThreadId) (deadline : Deadline) : Crowd × Option Occurrence :=
  match c.event.await deadline c.clock with
  | .park => ({ c with parked := c.parked ++ [⟨t, deadline⟩] }, none)
  | .done e true => ({ c with event := e }, some (.succeeded t))
  | .done e false => ({ c with event := e }, some (.gaveUp t))

/-- One thing happens, if it can; a signal or a wait may be over after it. -/
def act (c : Crowd) : Action → Option (Crowd × Option Occurrence)
  | .signal pick =>
      let i := pick % c.parked.length
      some ({ c with
        event := c.event.signal
        parked := c.parked.eraseIdx i
        woken := c.woken ++ c.parked[i]?.toList }, some (.signalled c.event.set))
  | .wait t limit =>
      if c.idle t then
        match c.deadline? limit with
        | none => some (c, some (.overflowed t))
        | some deadline => some (c.look t deadline)
      else none
  | .resume t =>
      (c.woken.find? (·.thread = t)).map fun v =>
        { c with woken := c.woken.eraseP (·.thread = t) }.look t v.deadline
  | .rouse t =>
      (c.parked.find? (·.thread = t)).map fun v =>
        ({ c with parked := c.parked.eraseP (·.thread = t), woken := c.woken ++ [v] }, none)
  | .tick ns => some ({ c with clock := c.clock + ns }, none)

/-- Several things happen in a row; the answer has what is over, in order. -/
def run (c : Crowd) : List Action → Option (Crowd × List Occurrence)
  | [] => some (c, [])
  | a :: as =>
      match c.act a with
      | none => none
      | some (c', ended) => (c'.run as).map fun (d, later) => (d, ended.toList ++ later)

/-- The crowds that can come about at a fresh event. -/
def Reachable (c : Crowd) : Prop := ∃ as history, run {} as = some (c, history)

end Crowd

end ReentrantGate.Event
