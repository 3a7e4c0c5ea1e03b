/-
**Calls on a gate, one segment at a time.**

A thread works on a gate only while it has the gate's lock.  A *segment* is what it does between
taking the lock and either parking, which gives the lock up, or finishing its call.  A segment that
parks wakes nobody and logs nothing; one that finishes may wake a whole room of parked threads and
leaves at most one note, after all its changes.

Threads park in two rooms.  In `opened` wait the threads that need the closer gone: fresh entries
and closes waiting for exclusivity.  In `drained` waits the closer, for the foreign entries to
leave.  A close has one deadline for both of its waits.

Main definitions:

* `Gate.Request`, `Gate.Waiting`, `Gate.Room`, `Gate.Verdict`, `Gate.Segment`;
* `Gate.begin` — the first segment of a call;
* `Gate.resume` — the segment of a thread that was parked.

Main results:

* `Gate.exit_ne_park`, `Gate.reopen_ne_park` — releases never wait;
* `Gate.resume_ne_park` — a thread that runs at or past its deadline does not park again.
-/

import ReentrantGate.Failure
import ReentrantGate.Gate.Basic
import ReentrantGate.Gate.Note
import ReentrantGate.Look

set_option relaxedAutoImplicit false
set_option autoImplicit false

namespace ReentrantGate.Gate

/-! ### Vocabulary -/

/-- What a thread can ask of a gate. -/
inductive Request
  | enter (timeout : Timeout)
  | exit
  | close (timeout : Timeout)
  | reopen
  deriving DecidableEq

/-- Where threads park. -/
inductive Room
  | opened
  | drained
  deriving DecidableEq

/-- What a parked thread waits for, and until when. -/
inductive Waiting
  | entry (timeout : Timeout) (deadline : Deadline)
  | exclusivity (deadline : Deadline)
  | drain (deadline : Deadline)
  deriving DecidableEq

namespace Waiting

/-- The room in which the thread is parked. -/
def room : Waiting → Room
  | entry .. => .opened
  | exclusivity _ => .opened
  | drain _ => .drained

/-- The deadline of the call that is waiting. -/
def deadline : Waiting → Deadline
  | entry _ d => d
  | exclusivity d => d
  | drain d => d

end Waiting

/-- How a call ends. -/
inductive Verdict
  | granted
  | timedOut
  | released
  | misused (usage : Usage)
  | overflowed
  deriving DecidableEq

/-- One segment: the thread parks, or its call is done. -/
inductive Segment
  | park (gate : Gate) (waiting : Waiting)
  | done (gate : Gate) (woken : Option Room) (note : Option Note) (verdict : Verdict)
  deriving DecidableEq

/-- The gate that a segment leaves behind. -/
def Segment.gate : Segment → Gate
  | park g _ => g
  | done g .. => g

/-! ### Entering and leaving -/

/-- A fresh entry, which needs the closer gone. -/
def awaitEntry (t : ThreadId) (timeout : Timeout) (deadline : Deadline) (now : Nat)
    (g : Gate) : Segment :=
  match look g.closer.isNone deadline now with
  | .ready => .done (g.raise t) none none .granted
  | .expired => .done g none (some (.entryTimedOut timeout)) .timedOut
  | .park _ => .park g (.entry timeout deadline)

/-- Entering goes through at once for those whom the gate admits. -/
def enter (t : ThreadId) (timeout : Timeout) (now : Nat) (g : Gate) : Segment :=
  if g.admits t then .done (g.raise t) none none .granted
  else
    match timeout.deadline? now with
    | none => .done g none none .overflowed
    | some deadline => awaitEntry t timeout deadline now g

/-- Leaving wakes the closer if another thread is closer and no foreign entry is left. -/
def exit (t : ThreadId) (g : Gate) : Segment :=
  if g.depth t = 0 then .done g none (some (.unbalancedExit t)) (.misused .exit)
  else
    let left := g.lower t
    let drained := left.closer.isSome && left.closer ≠ some t && left.foreign = 0
    .done left (if drained then some .drained else none) none .released

/-! ### Closing and opening -/

/-- The second wait of a close, by the thread that has claimed the gate.  Giving up takes the claim
back and wakes everybody who waited for the closer to go. -/
def awaitDrain (t : ThreadId) (deadline : Deadline) (now : Nat) (g : Gate) : Segment :=
  match look (g.foreign = 0) deadline now with
  | .ready => .done g none (some (.closed (g.depth t))) .granted
  | .expired =>
      .done g.unclaim (some .opened) (some (.rolledBack g.unclaim.foreign)) .timedOut
  | .park _ => .park g (.drain deadline)

/-- The first wait of a close, for other closers to go; the claim follows in the same segment. -/
def awaitExclusivity (t : ThreadId) (deadline : Deadline) (now : Nat) (g : Gate) : Segment :=
  match look g.closer.isNone deadline now with
  | .ready => awaitDrain t deadline now (g.claim t)
  | .expired => .done g none (some .exclusivityTimedOut) .timedOut
  | .park _ => .park g (.exclusivity deadline)

/-- Closing; the closer itself closes once more without waiting. -/
def close (t : ThreadId) (timeout : Timeout) (now : Nat) (g : Gate) : Segment :=
  if g.isCloser t then .done g.nest none (some (.nested g.nest.closed)) .granted
  else
    match timeout.deadline? now with
    | none => .done g none none .overflowed
    | some deadline => awaitExclusivity t deadline now g

/-- Opening; the last one wakes everybody who waited for the closer to go. -/
def reopen (t : ThreadId) (g : Gate) : Segment :=
  if g.isCloser t then
    if g.closed = 1 then .done g.unclaim (some .opened) (some .opened) .released
    else .done g.unnest none none .released
  else .done g none (some (.unbalancedOpen t)) (.misused .reopen)

/-! ### Whole calls -/

/-- The first segment of a call. -/
def begin (t : ThreadId) (now : Nat) : Request → Gate → Segment
  | .enter timeout => enter t timeout now
  | .exit => exit t
  | .close timeout => close t timeout now
  | .reopen => reopen t

/-- The next segment of a call that was parked. -/
def resume (t : ThreadId) (now : Nat) : Waiting → Gate → Segment
  | .entry timeout deadline => awaitEntry t timeout deadline now
  | .exclusivity deadline => awaitExclusivity t deadline now
  | .drain deadline => awaitDrain t deadline now

/-! ### Releases never wait -/

theorem exit_ne_park {t : ThreadId} {g g' : Gate} {w : Waiting} : exit t g ≠ .park g' w := by
  unfold exit
  split <;> simp

theorem reopen_ne_park {t : ThreadId} {g g' : Gate} {w : Waiting} : reopen t g ≠ .park g' w := by
  unfold reopen
  repeat' split
  all_goals simp

/-! ### Deadlines -/

theorem awaitDrain_ne_park {t : ThreadId} {d now : Nat} (h : d ≤ now) {g g' : Gate}
    {w : Waiting} : awaitDrain t (some d) now g ≠ .park g' w := by
  unfold awaitDrain
  split
  · simp
  · simp
  · exact absurd ‹_› (look_ne_park h)

/-- **A thread that runs at or past its deadline finishes its call**, whatever it waited for. -/
theorem resume_ne_park {t : ThreadId} {d now : Nat} (h : d ≤ now) {w v : Waiting}
    (hw : w.deadline = some d) {g g' : Gate} : resume t now w g ≠ .park g' v := by
  cases w with
  | entry timeout deadline =>
      cases hw
      simp only [resume, awaitEntry]
      split
      · simp
      · simp
      · exact absurd ‹_› (look_ne_park h)
  | exclusivity deadline =>
      cases hw
      simp only [resume, awaitExclusivity]
      split
      · exact awaitDrain_ne_park h
      · simp
      · exact absurd ‹_› (look_ne_park h)
  | drain deadline =>
      cases hw
      exact awaitDrain_ne_park h

end ReentrantGate.Gate
