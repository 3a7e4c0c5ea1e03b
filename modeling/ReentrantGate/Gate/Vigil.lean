/-
**Waiting while others go on.**

A thread that waits is not alone.  Between parking and having the lock again it may have slept for
any time, others may have changed what the lock protects, and it is not told what woke it.  Such an
*interlude* follows whenever the thread parks, and then the loop of the wait goes round once more.
A *vigil* is the loop with its interludes: where it parked, and with what it returned.

Entering and closing are told here once more, as a caller would tell them: a wait is one call of the
loop, and the rest of the operation goes on with the state that the loop returns.

Main definitions:

* `ReentrantGate.Scene`, `ReentrantGate.Interlude` — what a thread finds, what comes in between;
* `ReentrantGate.Vigil`, `ReentrantGate.keepVigil` — the loop of a wait among interludes;
* `Gate.attend` — the segments of a call among interludes;
* `Gate.enterBy`, `Gate.closeBy` — entering and closing with waits that are calls of the loop.
-/

import ReentrantGate.Gate.Segment

set_option relaxedAutoImplicit false
set_option autoImplicit false

namespace ReentrantGate

/-! ### Interludes -/

section Waits

variable {σ : Type}

/-- What the lock protects, and the time, as a thread finds them when it has the lock. -/
structure Scene (σ : Type) where
  state : σ
  clock : Nat
  deriving DecidableEq

/-- What wakes a parked thread. -/
inductive Cause
  | notified
  | timedOut
  | spurious
  deriving DecidableEq

/-- What comes between parking and having the lock again: what wakes the thread, how much later it
has the lock, and what others have made of the state by then. -/
structure Interlude (σ : Type) where
  cause : Cause
  lapse : Nat
  others : σ → σ

namespace Scene

/-- The scene once the thread with the lock has changed the state. -/
def map (f : σ → σ) (x : Scene σ) : Scene σ := ⟨f x.state, x.clock⟩

/-- The scene after an interlude.  Nothing tells what woke the thread. -/
def after (x : Scene σ) (i : Interlude σ) : Scene σ := ⟨i.others x.state, x.clock + i.lapse⟩

/-- What a thread finds that is there from the first scene on and after every interlude. -/
def found (x : Scene σ) : List (Interlude σ) → List (σ × Nat)
  | [] => [(x.state, x.clock)]
  | i :: later => (x.state, x.clock) :: (x.after i).found later

end Scene

/-! ### The loop -/

/-- One stay of a parked thread: what it had found, and for how long at most it parked, unless that
was without end. -/
structure Stay (σ : Type) where
  scene : Scene σ
  remaining : Option Nat

/-- A wait: where it parked, the interludes that came, the scene at the last look, the answer unless
the thread is still parked, and the interludes that are still to come. -/
structure Vigil (σ : Type) where
  stays : List (Stay σ)
  past : List (Interlude σ)
  scene : Scene σ
  answer : Option Bool
  later : List (Interlude σ)

/-- A wait parks once more before what is known of it. -/
def Vigil.stayed (v : Vigil σ) (s : Stay σ) (i : Interlude σ) : Vigil σ :=
  { v with stays := s :: v.stays, past := i :: v.past }

/-- **The loop of a wait** that has the lock, with the interludes that come whenever it parks.  If
none is left the thread stays parked. -/
def keepVigil (ready : σ → Bool) (deadline : Deadline) (x : Scene σ)
    (interludes : List (Interlude σ)) : Vigil σ :=
  match look (ready x.state) deadline x.clock with
  | .ready => ⟨[], [], x, some true, interludes⟩
  | .expired => ⟨[], [], x, some false, interludes⟩
  | .park remaining =>
      match interludes with
      | [] => ⟨[⟨x, remaining⟩], [], x, none, []⟩
      | i :: later => (keepVigil ready deadline (x.after i) later).stayed ⟨x, remaining⟩ i

end Waits

namespace Gate

/-! ### Calls, segment by segment -/

/-- How far a call has come: its latest segment, the time of that, and the interludes that are still
to come. -/
structure Progress where
  segment : Segment
  clock : Nat
  later : List (Interlude Gate)

/-- **A call from one of its segments on.**  Whenever it parks there is an interlude, and the next
segment is made at the gate that others have left. -/
def attend (t : ThreadId) (s : Segment) (now : Nat) (interludes : List (Interlude Gate)) :
    Progress :=
  match s, interludes with
  | .park g w, i :: later =>
      attend t (resume t (now + i.lapse) w (i.others g)) (now + i.lapse) later
  | s, interludes => ⟨s, now, interludes⟩

/-! ### Calls, wait by wait -/

/-- A call is over at a scene. -/
def concludeAt (room : Option Room) (note : Option Note) (verdict : Verdict) (x : Scene Gate)
    (later : List (Interlude Gate)) : Progress :=
  ⟨.done x.state room note verdict, x.clock, later⟩

/-- A call makes a wait and goes on with what that returns, unless it is still parked for `w`. -/
def goOn (w : Waiting) (v : Vigil Gate)
    (granted denied : Scene Gate → List (Interlude Gate) → Progress) : Progress :=
  match v.answer with
  | none => ⟨.park v.scene.state w, v.scene.clock, v.later⟩
  | some true => granted v.scene v.later
  | some false => denied v.scene v.later

/-- Entering: a fresh entry waits until there is no closer. -/
def enterBy (t : ThreadId) (timeout : Timeout) (x : Scene Gate)
    (interludes : List (Interlude Gate)) : Progress :=
  if x.state.admits t then concludeAt none none .granted (x.map (·.raise t)) interludes
  else
    match timeout.deadline? x.clock with
    | none => concludeAt none none .overflowed x interludes
    | some deadline =>
        goOn (.entry timeout deadline) (keepVigil (·.closer.isNone) deadline x interludes)
          (fun y => concludeAt none none .granted (y.map (·.raise t)))
          (concludeAt none (some (.entryTimedOut timeout)) .timedOut)

/-- Closing: a thread that is not the closer waits until there is none, claims the gate, and waits
until the foreign entries have left. -/
def closeBy (t : ThreadId) (timeout : Timeout) (x : Scene Gate)
    (interludes : List (Interlude Gate)) : Progress :=
  if x.state.isCloser t then
    concludeAt none (some (.nested x.state.nest.closed)) .granted (x.map nest) interludes
  else
    match timeout.deadline? x.clock with
    | none => concludeAt none none .overflowed x interludes
    | some deadline =>
        goOn (.exclusivity deadline) (keepVigil (·.closer.isNone) deadline x interludes)
          (fun y later =>
            goOn (.drain deadline)
              (keepVigil (·.foreign = 0) deadline (y.map (·.claim t)) later)
              (fun z => concludeAt none (some (.closed (z.state.depth t))) .granted z)
              (fun z =>
                concludeAt (some .opened) (some (.rolledBack z.state.unclaim.foreign)) .timedOut
                  (z.map unclaim)))
          (concludeAt none (some .exclusivityTimedOut) .timedOut)

end Gate

end ReentrantGate
