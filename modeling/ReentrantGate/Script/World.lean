/-
**The world that scripts act on.**

A world holds gates, events, the handles and guards that threads keep by name, the clock, and a
journal of what happened: log records and finished calls, in order.  The sink of the log can be told
to fail for the next few records; a failed record is not in the journal.

Main definitions:

* `Script.Entry`, `Script.Guard`, `Script.World`;
* `World.emit` — a note of a gate goes to the log, or the sink fails;
* `World.signal` — an event is signalled;
* `World.report` — a finished call goes to the journal, with what its thread then holds.
-/

import ReentrantGate.Event.Basic
import ReentrantGate.Event.Handles
import ReentrantGate.Gate.Segment
import ReentrantGate.Script.Call

set_option relaxedAutoImplicit false
set_option autoImplicit false

namespace ReentrantGate.Script

/-- One line of the journal.  A finished call comes with its thread, its label and name, its result,
and whether the thread then is inside the gate of the call and whether it is its closer. -/
inductive Entry
  | record (record : Record)
  | finished (thread : ThreadId) (label : Nat) (call : String) (result : Result)
      (inside closing : Bool)
  deriving DecidableEq

/-- A guard that a thread keeps under a name; dropping it releases one hold of its gate. -/
structure Guard where
  owner : ThreadId
  name : String
  hold : Hold
  gate : Nat
  deriving DecidableEq

/-- Everything that calls act on. -/
structure World where
  gates : List Gate
  events : List Event
  handles : Handles := {}
  guards : List Guard := []
  clock : Nat := 0
  failing : Nat := 0
  silent : Bool := false
  journal : List Entry := []
  deriving DecidableEq

namespace World

/-- A world of fresh gates and events; silent gates have a log that discards everything. -/
def fresh (gates events : Nat) (silent : Bool) : World :=
  { gates := List.replicate gates {}, events := List.replicate events {}, silent := silent }

/-- Gate number `i` becomes `g`. -/
def setGate (w : World) (i : Nat) (g : Gate) : World := { w with gates := w.gates.set i g }

/-- Event number `i` becomes `e`. -/
def setEvent (w : World) (i : Nat) (e : Event) : World := { w with events := w.events.set i e }

/-- Event number `i` is signalled. -/
def signal (w : World) (i : Nat) : World := { w with events := w.events.modify i Event.signal }

/-! ### Guards -/

/-- The guard that a thread keeps under a name. -/
def guard? (w : World) (t : ThreadId) (name : String) : Option Guard :=
  w.guards.find? fun g => g.owner = t && g.name = name

/-- The thread keeps no guard under that name. -/
def withoutGuard (w : World) (t : ThreadId) (name : String) : World :=
  { w with guards := w.guards.filter fun g => !(g.owner = t && g.name = name) }

/-- The owner keeps the guard, in place of one that it kept under the same name. -/
def keep (w : World) (g : Guard) : World :=
  let others := w.withoutGuard g.owner g.name
  { others with guards := g :: others.guards }

/-! ### The journal -/

/-- Notes go to the log unless gates are silent; the answer is whether the sink failed. -/
def emit (w : World) : Option Gate.Note → World × Bool
  | none => (w, false)
  | some note =>
      if w.silent then (w, false)
      else
        match w.failing with
        | 0 => ({ w with journal := w.journal ++ [.record note.record] }, false)
        | n + 1 => ({ w with failing := n }, true)

/-- The call `c` of `t` is over. -/
def report (w : World) (t : ThreadId) (c : Call) (result : Result) : World :=
  let g := (w.gates[c.site.gate]?).getD {}
  { w with
    journal := w.journal ++
      [.finished t c.site.label c.name result (0 < g.depth t) (g.isCloser t)] }

end World

end ReentrantGate.Script
