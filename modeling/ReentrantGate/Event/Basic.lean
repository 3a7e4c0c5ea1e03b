/-
**An event that resets itself.**

An event is a flag.  A signal sets it and wakes one waiting thread; a wait that finds the flag set
clears it and succeeds, so each signal ends at most one wait and signals do not add up.

Main definitions:

* `ReentrantGate.Event`, `Event.signal`;
* `Event.Segment`, `Event.await` — one look of a waiting thread at the flag.

Main results:

* `Event.await_ne_park` — a thread that looks at or past its deadline does not park again.
-/

import ReentrantGate.Look

set_option relaxedAutoImplicit false
set_option autoImplicit false

namespace ReentrantGate

/-- An event; a fresh one is not set. -/
structure Event where
  set : Bool := false
  deriving DecidableEq

namespace Event

/-- A signal sets the flag; it wakes one waiting thread, if there is one, even if the flag was set
before. -/
def signal (_ : Event) : Event := ⟨true⟩

/-- One segment of a wait: the thread parks, or the wait is over, with success or without. -/
inductive Segment
  | park
  | done (event : Event) (success : Bool)
  deriving DecidableEq

/-- A waiting thread has the event's lock: it takes the flag if it is set. -/
def await (deadline : Deadline) (now : Nat) (e : Event) : Segment :=
  match look e.set deadline now with
  | .ready => .done ⟨false⟩ true
  | .expired => .done e false
  | .park _ => .park

theorem await_ne_park {d now : Nat} (h : d ≤ now) (e : Event) : e.await (some d) now ≠ .park := by
  unfold await
  split
  · simp
  · simp
  · exact absurd ‹_› (look_ne_park h)

end Event

end ReentrantGate
