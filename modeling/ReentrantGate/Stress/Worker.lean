/-
**Workers of a stress run.**

Enterers and closers share one gate.  In each round an enterer draws a depth, enters the gate as
often, works, and leaves as often; a closer closes the gate, checks twice that no enterer is inside,
and opens it.  A worker looks at the stop flag between rounds and drops its handle on the finishing
event when it ends.

A worker dies if the bound of a draw does not exist: a draw from `0` to `n` needs the word `n + 1`.
An enterer also dies of an entry that it cannot count, for it counts in 32 bits with a sign while
depths have 64.  A dying closer still opens the gate, since a guard does that; a dying enterer
leaves its entries behind.

A worker takes one *step* at a time: one segment at the gate, or one access to what is shared.  The
work that is left to a worker becomes less with each step that does not park it, so a worker that
nobody disturbs comes to an end.

Main definitions:

* `Stress.Plan` — what all workers of a run go by;
* `Stress.hasBound`, `Stress.maxHeld` — the draws that can be made, and the entries that can be
  counted;
* `Stress.Tally`, `Stress.Shared` — the counters, and everything that workers share;
* `Stress.Stage`, `Stress.Worker` — where a worker is in its program;
* `Worker.step` — one step, and `Worker.alone` — all steps while nobody else takes one.

Main results:

* `Worker.cost_step_lt` — a step that does not park leaves less to do.
-/

import ReentrantGate.Event.Basic
import ReentrantGate.Gate.Crowd
import ReentrantGate.Stress.Settings

set_option relaxedAutoImplicit false
set_option autoImplicit false

namespace ReentrantGate.Stress

/-! ### What is shared -/

/-- What all workers go by: the largest depth, the largest number of spins, and the timeout. -/
structure Plan where
  depth : Nat
  spins : Nat
  timeout : Timeout

/-- The counters of a run. -/
structure Tally where
  entries : Nat := 0
  enterTimeouts : Nat := 0
  closes : Nat := 0
  closeTimeouts : Nat := 0
  overlaps : Nat := 0
  violations : Nat := 0
  deriving DecidableEq

/-- What workers share: the gate with its threads, the notes of the gate with the latest first, the
number of enterers inside, the counters, the stop flag, and the finishing event with the number of
live handles on it. -/
structure Shared where
  crowd : Gate.Crowd := {}
  notes : List Gate.Note := []
  inside : Nat := 0
  tally : Tally := {}
  stop : Bool := false
  finish : Event := {}
  handles : Nat
  deriving DecidableEq

namespace Shared

/-- What happened at the gate, with the note that was left. -/
def withOccurrence (s : Shared) (c : Gate.Crowd) (o : Option Gate.Occurrence) : Shared :=
  { s with crowd := c, notes := (o.bind (·.note)).toList ++ s.notes }

/-- One more enterer is inside. -/
def arrive (s : Shared) : Shared := { s with inside := s.inside + 1 }

/-- One enterer less is inside. -/
def depart (s : Shared) : Shared := { s with inside := s.inside - 1 }

/-- A closer that holds the close looks for enterers inside. -/
def check (s : Shared) : Shared :=
  if s.inside = 0 then s
  else { s with tally := { s.tally with overlaps := s.tally.overlaps + 1 } }

/-- An entry or an exit was refused where it must not be. -/
def violate (s : Shared) : Shared :=
  { s with tally := { s.tally with violations := s.tally.violations + 1 } }

/-- A round of an enterer is over. -/
def countEntry (s : Shared) : Shared :=
  { s with tally := { s.tally with entries := s.tally.entries + 1 } }

/-- An enterer gave up its round. -/
def countEnterTimeout (s : Shared) : Shared :=
  { s with tally := { s.tally with enterTimeouts := s.tally.enterTimeouts + 1 } }

/-- A closer has made its checks. -/
def countClose (s : Shared) : Shared :=
  { s with tally := { s.tally with closes := s.tally.closes + 1 } }

/-- A closer gave up its round. -/
def countCloseTimeout (s : Shared) : Shared :=
  { s with tally := { s.tally with closeTimeouts := s.tally.closeTimeouts + 1 } }

/-- A handle on the finishing event is dropped; the last one signals it. -/
def dropHandle (s : Shared) : Shared :=
  { s with
    handles := s.handles - 1
    finish := if s.handles = 1 then s.finish.signal else s.finish }

end Shared

/-! ### Programs -/

/-- Whether a draw from `0` to `n`, or from `1` to `n`, has a bound: the word after `n` exists. -/
def hasBound (n : Nat) : Bool := n < maxWord

/-- The most entries that an enterer can count, in 32 bits with a sign. -/
def maxHeld : Nat := UInt32.size / 2 - 1

/-- Where a worker is.  An enterer has drawn a depth and asks for its first entry (`entering`), has
it (`arrived`), has further entries to ask for (`nesting`), works (`working`), is done with that
(`departing`) and has entries to give back (`exiting`).  A closer asks for the close (`closing`),
makes its first check (`checking`), works (`holding`), makes its second check (`rechecking`) and
gives the close back (`opening`).  The flag of the last stages tells whether the worker
dies. -/
inductive Stage
  | poll
  | entering (depth : Nat)
  | arrived (depth : Nat)
  | nesting (more held : Nat)
  | working (held : Nat)
  | departing (held : Nat)
  | exiting (held : Nat)
  | closing
  | checking
  | holding
  | rechecking
  | opening (dying : Bool)
  | ending (dying : Bool)
  | finished (died : Bool)
  deriving DecidableEq

/-- Where an enterer is that counted `held` entries and has been granted one more: it has `more` to
ask for, unless it cannot count this one. -/
def Stage.nested (more held : Nat) : Stage :=
  if held < maxHeld then nesting more (held + 1) else ending true

/-- A worker: its thread, whether it is a closer, the rounds that it has left, and its stage. -/
structure Worker where
  thread : ThreadId
  closer : Bool
  rounds : Nat
  stage : Stage := .poll
  deriving DecidableEq

/-- One step of a worker: it has nothing to do, it parks or is still parked, or it moves on. -/
inductive Progress
  | finished
  | parked (shared : Shared)
  | moved (shared : Shared) (worker : Worker)

namespace Worker

/-- The worker at another stage. -/
def goto (w : Worker) (stage : Stage) : Worker := { w with stage := stage }

/-- The depth that a draw stands for, from `1` to the largest depth. -/
def drawDepth (p : Plan) (draw : Nat) : Nat := min draw (p.depth - 1) + 1

/-- The worker's next segment at the gate, for a request; `next` says how its verdict moves the
worker on. -/
def ask (w : Worker) (s : Shared) (r : Gate.Request)
    (next : Gate.Verdict → Shared → Shared × Worker) : Progress :=
  let action := if s.crowd.isWoken w.thread then .resume w.thread false else .call w.thread r false
  match s.crowd.act action with
  | none => .parked s
  | some (c, none) => .parked (s.withOccurrence c none)
  | some (c, some o) =>
      let (s', w') := next o.verdict (s.withOccurrence c (some o))
      .moved s' w'

/-- After the first entry of a round, which may have timed out. -/
def afterEntering (w : Worker) (depth : Nat) (verdict : Gate.Verdict) (s : Shared) :
    Shared × Worker :=
  match verdict with
  | .granted => (s, w.goto (.arrived depth))
  | .overflowed => (s, w.goto (.ending true))
  | _ => (s.countEnterTimeout, w.goto .poll)

/-- After a further entry, with `more` of them still to ask for. -/
def afterNesting (w : Worker) (more held : Nat) (verdict : Gate.Verdict) (s : Shared) :
    Shared × Worker :=
  match verdict with
  | .granted => (s, w.goto (.nested more held))
  | _ => (s.violate, w.goto (.nesting more held))

/-- After an exit, with `held` entries still to give back. -/
def afterExiting (w : Worker) (held : Nat) (verdict : Gate.Verdict) (s : Shared) :
    Shared × Worker :=
  match verdict with
  | .released => (s, w.goto (.exiting held))
  | _ => (s.violate, w.goto (.exiting held))

/-- After a close, which may have timed out. -/
def afterClosing (w : Worker) (verdict : Gate.Verdict) (s : Shared) : Shared × Worker :=
  match verdict with
  | .granted => (s, w.goto .checking)
  | .overflowed => (s, w.goto (.ending true))
  | _ => (s.countCloseTimeout, w.goto .poll)

/-- After opening, which ends a round, or a dying worker. -/
def afterOpening (w : Worker) (dying : Bool) (verdict : Gate.Verdict) (s : Shared) :
    Shared × Worker :=
  match verdict, dying with
  | .released, false => (s, w.goto .poll)
  | _, _ => (s, w.goto (.ending true))

/-- One step of a worker, with the number that it draws if it draws one. -/
def step (p : Plan) (draw : Nat) (s : Shared) (w : Worker) : Progress :=
  match w.stage with
  | .poll =>
      match w.rounds with
      | 0 => .moved s (w.goto (.ending false))
      | n + 1 =>
          if s.stop then .moved s (w.goto (.ending false))
          else if w.closer then .moved s { w with rounds := n, stage := .closing }
          else if hasBound p.depth then
            .moved s { w with rounds := n, stage := .entering (drawDepth p draw) }
          else .moved s { w with rounds := n, stage := .ending true }
  | .entering depth => w.ask s (.enter p.timeout) (w.afterEntering depth)
  | .arrived depth => .moved s.arrive (w.goto (.nesting (depth - 1) 1))
  | .nesting 0 held => .moved s (w.goto (.working held))
  | .nesting (more + 1) held => w.ask s (.enter p.timeout) (w.afterNesting more held)
  | .working held =>
      if hasBound p.spins then .moved s (w.goto (.departing held))
      else .moved s (w.goto (.ending true))
  | .departing held => .moved s.depart (w.goto (.exiting held))
  | .exiting 0 => .moved s.countEntry (w.goto .poll)
  | .exiting (held + 1) => w.ask s .exit (w.afterExiting held)
  | .closing => w.ask s (.close p.timeout) w.afterClosing
  | .checking => .moved s.check (w.goto .holding)
  | .holding =>
      if hasBound p.spins then .moved s (w.goto .rechecking)
      else .moved s (w.goto (.opening true))
  | .rechecking => .moved s.check.countClose (w.goto (.opening false))
  | .opening dying => w.ask s .reopen (w.afterOpening dying)
  | .ending dying => .moved s.dropHandle (w.goto (.finished dying))
  | .finished _ => .finished

/-! ### The work that is left -/

/-- The work that is left in a stage, and in the round that it belongs to. -/
def stageCost : Stage → Nat
  | .poll => 2
  | .entering depth => 2 * depth + 9
  | .arrived depth => 2 * depth + 8
  | .nesting more held => 2 * more + held + 6
  | .working held => held + 5
  | .departing held => held + 4
  | .exiting held => held + 3
  | .closing => 7
  | .checking => 6
  | .holding => 5
  | .rechecking => 4
  | .opening _ => 3
  | .ending _ => 1
  | .finished _ => 0

theorem stageCost_nested_lt (more held : Nat) :
    stageCost (.nested more held) < stageCost (.nesting (more + 1) held) := by
  unfold Stage.nested
  split <;> simp only [stageCost] <;> omega

/-- The work that is left to a worker. -/
def cost (p : Plan) (w : Worker) : Nat := w.rounds * (2 * p.depth + 10) + stageCost w.stage

theorem cost_lt_of_ask {p : Plan} {n : Nat} {w w' : Worker} {s s' : Shared} {r : Gate.Request}
    {next : Gate.Verdict → Shared → Shared × Worker} (h : w.ask s r next = .moved s' w')
    (hn : ∀ verdict s₀, (next verdict s₀).2.cost p < n) : w'.cost p < n := by
  simp only [ask] at h
  split at h
  · simp at h
  · simp at h
  · cases h
    exact hn ..

/-- **A step that does not park leaves less to do.** -/
theorem cost_step_lt {p : Plan} {draw : Nat} {s s' : Shared} {w w' : Worker}
    (h : w.step p draw s = .moved s' w') : w'.cost p < w.cost p := by
  obtain ⟨t, closer, rounds, stage⟩ := w
  cases stage with
  | poll =>
      have hd : drawDepth p draw ≤ p.depth + 1 := by
        unfold drawDepth
        omega
      cases rounds with
      | zero =>
          cases h
          simp [cost, goto, stageCost]
      | succ n =>
          have hn : (n + 1) * (2 * p.depth + 10) = n * (2 * p.depth + 10) + (2 * p.depth + 10) :=
            Nat.succ_mul ..
          simp only [step] at h
          repeat' split at h
          all_goals
            cases h
            simp only [cost, goto, stageCost, hn]
            omega
  | entering depth =>
      simp only [step] at h
      refine cost_lt_of_ask h fun v s₀ => ?_
      cases v <;> simp only [afterEntering, cost, goto, stageCost] <;> omega
  | arrived depth =>
      cases h
      simp only [cost, goto, stageCost]
      omega
  | nesting more held =>
      cases more with
      | zero =>
          cases h
          simp only [cost, goto, stageCost]
          omega
      | succ more =>
          simp only [step] at h
          refine cost_lt_of_ask h fun v s₀ => ?_
          have hnested := stageCost_nested_lt more held
          cases v <;> simp only [afterNesting, cost, goto, stageCost] at hnested ⊢ <;> omega
  | working held =>
      simp only [step] at h
      split at h <;> cases h <;> simp only [cost, goto, stageCost] <;> omega
  | departing held =>
      cases h
      simp only [cost, goto, stageCost]
      omega
  | exiting held =>
      cases held with
      | zero =>
          cases h
          simp only [cost, goto, stageCost]
          omega
      | succ held =>
          simp only [step] at h
          refine cost_lt_of_ask h fun v s₀ => ?_
          cases v <;> simp only [afterExiting, cost, goto, stageCost] <;> omega
  | closing =>
      simp only [step] at h
      refine cost_lt_of_ask h fun v s₀ => ?_
      cases v <;> simp only [afterClosing, cost, goto, stageCost] <;> omega
  | checking =>
      cases h
      simp only [cost, goto, stageCost]
      omega
  | holding =>
      simp only [step] at h
      split at h <;> cases h <;> simp only [cost, goto, stageCost] <;> omega
  | rechecking =>
      cases h
      simp only [cost, goto, stageCost]
      omega
  | opening dying =>
      simp only [step] at h
      refine cost_lt_of_ask h fun v s₀ => ?_
      cases v <;> cases dying <;> simp only [afterOpening, cost, goto, stageCost] <;> omega
  | ending dying =>
      cases h
      simp only [cost, goto, stageCost]
      omega
  | finished died => cases h

/-! ### Steps in a row -/

/-- Time passes until a parked thread's deadline, and the thread is woken. -/
def wakeAt (t : ThreadId) (deadline : Nat) (s : Shared) : Shared :=
  match s.crowd.run [.tick (deadline - s.crowd.clock), .rouse t] with
  | none => s
  | some (c, _) => { s with crowd := c }

/-- All steps of a worker while nobody else takes one.  When it parks, time passes until its
deadline; without a deadline it stays where it is. -/
def alone (p : Plan) (draw : Nat) (s : Shared) (w : Worker) : Shared × Worker :=
  match _ : w.step p draw s with
  | .finished => (s, w)
  | .moved s' w' => w'.alone p draw s'
  | .parked s' =>
      match (s'.crowd.parkedFor? w.thread).bind (·.deadline) with
      | none => (s', w)
      | some d =>
          match _ : w.step p draw (wakeAt w.thread d s') with
          | .moved s'' w' => w'.alone p draw s''
          | _ => (s', w)
termination_by w.cost p
decreasing_by
  · exact cost_step_lt ‹_›
  · exact cost_step_lt ‹_›

end Worker

end ReentrantGate.Stress
