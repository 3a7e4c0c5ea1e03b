/-
**Calls on a gate, one statement at a time.**

A segment says what becomes of a gate between taking the lock and giving it up.  A *routine* is the
same stretch as the thread goes through it: it reads the gate, assigns to one field after another,
wakes a room, and hands a note to the log.  The sink of the log may fail on a note.  That unwinds
the routine on the spot; what has been done stays done, and what would have come after the note does
not happen.

Main definitions:

* `Gate.Sink` — on which notes the sink of the log fails;
* `Gate.Deed`, `Gate.Hand` — what a thread can do while it has the lock, and what it has done;
* `Gate.Outcome`, `Crowd.leftBy` — how a routine ends, and the crowd once the lock is given up;
* `Gate.Locked` — stretches with the lock held, and `Locked.play`, which carries one out;
* `Routine.begin`, `Routine.resume` — the routines of all calls.

Main results:

* `Locked.play_bind`, `Locked.play_log` — unwinding keeps everything that has been done.
-/

import ReentrantGate.Gate.Crowd

set_option relaxedAutoImplicit false
set_option autoImplicit false

namespace ReentrantGate.Gate

/-! ### Deeds -/

/-- On which notes the sink of the log fails. -/
abbrev Sink := Note → Bool

/-- The sink that takes every note. -/
def Sink.accepting : Sink := fun _ => false

/-- One thing that a thread does while it has the lock.  An assignment comes with the value that it
replaces. -/
inductive Deed
  | entered (old new : Nat)
  | depths (old new : Depths)
  | closer (old new : Option ThreadId)
  | closed (old new : Nat)
  | notify (room : Room)
  | log (note : Note)
  deriving DecidableEq

/-- The gate after a deed; only assignments change it. -/
def after (g : Gate) : Deed → Gate
  | .entered _ n => { g with entered := n }
  | .depths _ ds => { g with depths := ds }
  | .closer _ t => { g with closer := t }
  | .closed _ n => { g with closed := n }
  | .notify _ => g
  | .log _ => g

/-- All threads in a room are woken, in the order in which they parked. -/
def Crowd.wake (c : Crowd) (room : Room) : Crowd :=
  { c with
    parked := c.parked.filter fun v => room ≠ v.waiting.room
    woken := c.woken ++ c.parked.filter fun v => room = v.waiting.room }

/-- The crowd after a deed. -/
def Crowd.after (c : Crowd) : Deed → Crowd
  | .notify room => c.wake room
  | d => { c with gate := c.gate.after d }

/-! ### Stretches with the lock held -/

/-- The crowd while a thread has the lock, and what the thread has done so far. -/
structure Hand where
  crowd : Crowd
  deeds : List Deed := []

/-- Some deeds are done, one after another. -/
def Hand.did (h : Hand) (ds : List Deed) : Hand := ⟨ds.foldl Crowd.after h.crowd, h.deeds ++ ds⟩

theorem Hand.did_nil (h : Hand) : h.did [] = h := by
  simp [did]

theorem Hand.did_did (h : Hand) (ds es : List Deed) : (h.did ds).did es = h.did (ds ++ es) := by
  simp [did]

/-- What a thread does while it has the lock.  Unwinding skips the rest and undoes nothing. -/
abbrev Locked := ReaderT Sink (ExceptT Panic (StateM Hand))

/-- How a routine ends that does not unwind: the thread parks, or its call has a verdict. -/
inductive Outcome
  | parked (waiting : Waiting)
  | returned (verdict : Verdict)
  deriving DecidableEq

/-- The crowd once `t` has given up the lock; `t` may have parked. -/
def Crowd.leftBy (c : Crowd) (t : ThreadId) : Except Panic Outcome → Crowd
  | .ok (.parked w) => { c with parked := c.parked ++ [⟨t, w⟩] }
  | _ => c

namespace Locked

variable {α β : Type}

/-- A stretch is carried out: how it ends, and what it leaves. -/
def play (p : Locked α) (sink : Sink) (h : Hand) : Except Panic α × Hand := (p.run sink).run.run h

/-- The gate as it is now. -/
def gate : Locked Gate := return (← get).crowd.gate

/-- One deed. -/
def perform (d : Deed) : Locked Unit := modify fun h => h.did [d]

/-- The number of entries is set. -/
def setEntered (n : Nat) : Locked Unit := do perform (.entered (← gate).entered n)

/-- The depths are set. -/
def setDepths (ds : Depths) : Locked Unit := do perform (.depths (← gate).depths ds)

/-- The closer is set. -/
def setCloser (t : Option ThreadId) : Locked Unit := do perform (.closer (← gate).closer t)

/-- The depth of the close is set. -/
def setClosed (n : Nat) : Locked Unit := do perform (.closed (← gate).closed n)

/-- A room is woken. -/
def notify (room : Room) : Locked Unit := perform (.notify room)

/-- A note goes to the log, unless the sink fails on it. -/
def log (note : Note) : Locked Unit := do
  if (← read) note then throw .sinkFailed
  perform (.log note)

section Play

variable (sink : Sink) (h : Hand)

@[simp] theorem play_pure (a : α) : play (pure a) sink h = (.ok a, h) := rfl

@[simp] theorem play_throw (panic : Panic) :
    play (throw panic : Locked α) sink h = (.error panic, h) := rfl

@[simp] theorem play_read : play read sink h = (.ok sink, h) := rfl

@[simp] theorem play_gate : play gate sink h = (.ok h.crowd.gate, h) := rfl

/-- A stretch that unwinds is not gone on with, and leaves what it has done. -/
@[simp] theorem play_bind (p : Locked α) (f : α → Locked β) :
    play (p >>= f) sink h =
      match play p sink h with
      | (.ok a, h') => play (f a) sink h'
      | (.error panic, h') => (.error panic, h') := by
  simp only [play, ReaderT.run_bind, ExceptT.run_bind, StateT.run_bind]
  rcases (p.run sink).run.run h with ⟨_ | _, _⟩ <;> rfl

@[simp] theorem play_perform (d : Deed) : play (perform d) sink h = (.ok (), h.did [d]) := rfl

@[simp] theorem play_setEntered (n : Nat) :
    play (setEntered n) sink h = (.ok (), h.did [.entered h.crowd.gate.entered n]) := rfl

@[simp] theorem play_setDepths (ds : Depths) :
    play (setDepths ds) sink h = (.ok (), h.did [.depths h.crowd.gate.depths ds]) := rfl

@[simp] theorem play_setCloser (t : Option ThreadId) :
    play (setCloser t) sink h = (.ok (), h.did [.closer h.crowd.gate.closer t]) := rfl

@[simp] theorem play_setClosed (n : Nat) :
    play (setClosed n) sink h = (.ok (), h.did [.closed h.crowd.gate.closed n]) := rfl

@[simp] theorem play_notify (room : Room) :
    play (notify room) sink h = (.ok (), h.did [.notify room]) := rfl

/-- A note on which the sink fails unwinds the stretch after everything before it has been done. -/
@[simp] theorem play_log (note : Note) :
    play (log note) sink h =
      if sink note then (.error .sinkFailed, h) else (.ok (), h.did [.log note]) := by
  cases hs : sink note with
  | true => simp [log, hs]
  | false => simp [log, hs]

end Play

end Locked

/-! ### Routines -/

namespace Routine

open Locked

/-- One more entry of `t`. -/
def raise (t : ThreadId) : Locked Unit := do
  setEntered ((← gate).entered + 1)
  setDepths ((← gate).depths.raise t)

/-- One entry of `t` less. -/
def lower (t : ThreadId) : Locked Unit := do
  setEntered ((← gate).entered - 1)
  setDepths ((← gate).depths.lower t)

/-- Thread `t` becomes the closer. -/
def claim (t : ThreadId) : Locked Unit := do
  setCloser (some t)
  setClosed 1

/-- A claim is taken back, and those who waited for that are woken. -/
def rollBack : Locked Unit := do
  setCloser none
  setClosed 0
  notify .opened

/-- The deadline of a call that starts now; computing one that does not exist unwinds. -/
def deadlineOf (timeout : Timeout) (now : Nat) : Locked Deadline :=
  match timeout.deadline? now with
  | none => throw .instantOverflow
  | some deadline => pure deadline

/-- A call that is over hands a note to the log and goes back with its verdict. -/
def conclude (note : Note) (verdict : Verdict) : Locked Outcome := do
  log note
  return .returned verdict

/-- The wait of a fresh entry. -/
def awaitEntry (t : ThreadId) (timeout : Timeout) (deadline : Deadline) (now : Nat) :
    Locked Outcome := do
  match look (← gate).closer.isNone deadline now with
  | .ready =>
      raise t
      return .returned .granted
  | .expired => conclude (.entryTimedOut timeout) .timedOut
  | .park _ => return .parked (.entry timeout deadline)

/-- Entering. -/
def enter (t : ThreadId) (timeout : Timeout) (now : Nat) : Locked Outcome := do
  if (← gate).admits t then
    raise t
    return .returned .granted
  awaitEntry t timeout (← deadlineOf timeout now) now

/-- Leaving. -/
def exit (t : ThreadId) : Locked Outcome := do
  if (← gate).depth t = 0 then
    conclude (.unbalancedExit t) (.misused .exit)
  else
    lower t
    let left ← gate
    if left.closer.isSome && left.closer ≠ some t && left.foreign = 0 then
      notify .drained
    return .returned .released

/-- The second wait of a close, by the thread that has claimed the gate. -/
def awaitDrain (t : ThreadId) (deadline : Deadline) (now : Nat) : Locked Outcome := do
  match look ((← gate).foreign = 0) deadline now with
  | .ready => conclude (.closed ((← gate).depth t)) .granted
  | .expired =>
      rollBack
      conclude (.rolledBack (← gate).foreign) .timedOut
  | .park _ => return .parked (.drain deadline)

/-- The first wait of a close. -/
def awaitExclusivity (t : ThreadId) (deadline : Deadline) (now : Nat) : Locked Outcome := do
  match look (← gate).closer.isNone deadline now with
  | .ready =>
      claim t
      awaitDrain t deadline now
  | .expired => conclude .exclusivityTimedOut .timedOut
  | .park _ => return .parked (.exclusivity deadline)

/-- Closing. -/
def close (t : ThreadId) (timeout : Timeout) (now : Nat) : Locked Outcome := do
  if (← gate).isCloser t then
    setClosed ((← gate).closed + 1)
    conclude (.nested (← gate).closed) .granted
  else
    awaitExclusivity t (← deadlineOf timeout now) now

/-- Opening. -/
def reopen (t : ThreadId) : Locked Outcome := do
  if (← gate).isCloser t then
    setClosed ((← gate).closed - 1)
    if (← gate).closed = 0 then
      setCloser none
      notify .opened
      conclude .opened .released
    else return .returned .released
  else conclude (.unbalancedOpen t) (.misused .reopen)

/-- What a thread does when it starts a call. -/
def begin (t : ThreadId) (now : Nat) : Request → Locked Outcome
  | .enter timeout => enter t timeout now
  | .exit => exit t
  | .close timeout => close t timeout now
  | .reopen => reopen t

/-- What a thread does when it has been woken. -/
def resume (t : ThreadId) (now : Nat) : Waiting → Locked Outcome
  | .entry timeout deadline => awaitEntry t timeout deadline now
  | .exclusivity deadline => awaitExclusivity t deadline now
  | .drain deadline => awaitDrain t deadline now

end Routine

end ReentrantGate.Gate
