/-
**Several events whose handles share their names.**

The handles of all events are kept under the same names, so storing a handle of one event may end a
family of another, or of the same.  What happens at one event is nothing to the others: each has a
crowd of its own.  An operation on handles is done by whichever thread, in one go, and if it ends a
family then the event of that family is signalled like by any other signal.

Main definitions:

* `Handles.Operation`, `Handles.perform?` — what can be done to handles;
* `Event.Neighbourhood`, `Neighbourhood.Deed`, `Neighbourhood.Incident` — events with their handles,
  what can happen, and what is over;
* `Neighbourhood.act`, `Neighbourhood.run` — one thing that happens, and several in a row.
-/

import ReentrantGate.Event.Crowd
import ReentrantGate.Event.Handles

set_option relaxedAutoImplicit false
set_option autoImplicit false

namespace ReentrantGate

namespace Handles

/-- What can be done to handles: a new family, one more handle of a family, one handle less. -/
inductive Operation
  | create (name : String) (event : Nat)
  | clone (source name : String)
  | drop (name : String)
  deriving DecidableEq

namespace Operation

/-- The name at which an operation stores or drops a handle. -/
def name : Operation → String
  | create name _ => name
  | clone _ name => name
  | drop name => name

/-- The event of the family that an operation founds. -/
def founds? : Operation → Option Nat
  | create _ event => some event
  | _ => none

/-- The name under which an operation needs a handle. -/
def source? : Operation → Option String
  | create .. => none
  | clone source _ => some source
  | drop name => some name

end Operation

/-- An operation with the event to signal if it ended a family; it fails if the handle that it needs
is not there. -/
def perform? (hs : Handles) : Operation → Option (Handles × Option Nat)
  | .create name event => some (hs.create name event)
  | .clone source name => hs.clone? source name
  | .drop name => hs.drop? name

end Handles

namespace Event

/-- Events with the threads at them, and the handles of all of them. -/
structure Neighbourhood where
  crowds : List Crowd := []
  handles : Handles := {}
  deriving DecidableEq

namespace Neighbourhood

/-- What can happen: something in the crowd of an event, or an operation on handles, which picks the
parked thread that it wakes if it ends a family. -/
inductive Deed
  | inCrowd (event : Nat) (action : Action)
  | handle (operation : Handles.Operation) (pick : Nat)
  deriving DecidableEq

/-- The event of the family that a deed founds. -/
def Deed.founds? : Deed → Option Nat
  | inCrowd .. => none
  | handle op _ => op.founds?

/-- Something that is over at an event, with the handle whose end it was if it was the end of a
family. -/
structure Incident where
  event : Nat
  occurrence : Occurrence
  last : Option Handle
  deriving DecidableEq

/-- Fresh events without handles. -/
def fresh (events : Nat) : Neighbourhood := { crowds := List.replicate events {} }

/-- Something happens in the crowd of event `e`. -/
def inCrowd (n : Neighbourhood) (e : Nat) (a : Action) (last : Option Handle) :
    Option (Neighbourhood × Option Incident) :=
  n.crowds[e]?.bind fun c =>
    (c.act a).map fun (c', o) => ({ n with crowds := n.crowds.set e c' }, o.map (⟨e, ·, last⟩))

/-- An operation that removed the handle `removed`, if any, is over; the end of a family signals its
event. -/
def conclude (n : Neighbourhood) (pick : Nat) (removed : Option Handle) :
    Handles × Option Nat → Option (Neighbourhood × Option Incident)
  | (handles, none) => some ({ n with handles := handles }, none)
  | (handles, some e) => { n with handles := handles }.inCrowd e (.signal pick) removed

/-- One thing happens, if it can; a signal or a wait may be over after it. -/
def act (n : Neighbourhood) : Deed → Option (Neighbourhood × Option Incident)
  | .inCrowd e a => n.inCrowd e a none
  | .handle op pick =>
      if ∀ e ∈ op.founds?, e < n.crowds.length then
        (n.handles.perform? op).bind (n.conclude pick (n.handles.get? op.name))
      else none

/-- Several things happen in a row; the answer has what is over, in order. -/
def run (n : Neighbourhood) : List Deed → Option (Neighbourhood × List Incident)
  | [] => some (n, [])
  | d :: ds =>
      match n.act d with
      | none => none
      | some (n', ended) => (n'.run ds).map fun (m, later) => (m, ended.toList ++ later)

/-- The events of the families that are founded, in order: family number `k` is that of the `k`-th
event. -/
def founded (ds : List Deed) : List Nat := ds.filterMap Deed.founds?

end Neighbourhood

end Event

end ReentrantGate
