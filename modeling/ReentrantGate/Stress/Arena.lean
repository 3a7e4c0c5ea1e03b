/-
**A stress run.**

The main thread starts all workers, each with a handle on the finishing event, drops the handle that
it kept itself, waits for the event, and then reports.  In an arena anything may happen next that
the workers, the clock and an interrupt allow; `Arena.sequential` is the run in which the workers
take their turns one after another, each drawing the largest depth.

Main definitions:

* `Stress.Arena`, `Arena.Action`, `Arena.act`, `Arena.Reachable` — all runs;
* `Arena.sequential` — one of them;
* `Stress.Report`, `Arena.report?` — what the main thread reports when it may.
-/

import ReentrantGate.Gate.Snapshot
import ReentrantGate.Stress.Worker

set_option relaxedAutoImplicit false
set_option autoImplicit false

namespace ReentrantGate.Stress

/-! ### The report -/

/-- What is reported after a run. -/
structure Report where
  settings : Settings
  tally : Tally
  elapsedMs : Nat
  interrupted : Bool
  gate : Gate.Snapshot
  deriving DecidableEq

namespace Report

/-- The counters of a tally, in the order in which they are written. -/
def counters (t : Tally) : List (String × Nat) :=
  [("entries", t.entries), ("enter_timeouts", t.enterTimeouts), ("closes", t.closes),
    ("close_timeouts", t.closeTimeouts), ("overlaps", t.overlaps), ("violations", t.violations)]

/-- The report as a JSON object. -/
def toJson (r : Report) : Json :=
  .object <|
    ("settings", r.settings.toJson) ::
      (counters r.tally).map (fun c => (c.1, .ofNat c.2)) ++
      [("elapsed_ms", .ofNat r.elapsedMs), ("interrupted", .bool r.interrupted),
        ("gate", r.gate.toJson)]

/-- A run is sound if no enterer was inside together with a closer, nothing was refused that must
not be, and nobody holds anything any more. -/
def sound (r : Report) : Bool :=
  r.tally.overlaps = 0 && r.tally.violations = 0 && r.gate.entered = 0 && r.gate.closed = 0

end Report

/-! ### All runs -/

/-- Where the main thread is. -/
inductive MainStage
  | starting
  | waiting
  | reporting
  deriving DecidableEq

/-- A run at one moment. -/
structure Arena where
  shared : Shared
  workers : List Worker
  main : MainStage := .starting
  deriving DecidableEq

namespace Arena

/-- The timeout of all calls, if the settings have one. -/
def plan? (s : Settings) : Option Plan :=
  (Timeout.ofMillis? s.timeout).map fun timeout => ⟨s.depth, s.spins, timeout⟩

/-- The workers at their start. -/
def crew (s : Settings) : List Worker :=
  let enterer := fun i => Worker.mk ⟨"enterer " ++ toString i⟩ false s.iterations .poll
  let closer := fun i => Worker.mk ⟨"closer " ++ toString i⟩ true (s.iterations / 10) .poll
  (List.range s.enterers).map enterer ++ (List.range s.closers).map closer

/-- A run at its start: every worker has a handle, and the main thread has one. -/
def start (s : Settings) : Arena :=
  { shared := { handles := s.enterers + s.closers + 1 }, workers := crew s }

/-- What can happen next. -/
inductive Action
  | worker (index draw : Nat)
  | rouse (thread : ThreadId)
  | tick (ns : Nat)
  | interrupt
  | main

/-- The main thread drops its handle, or looks at the event. -/
def stepMain (a : Arena) : Option Arena :=
  match a.main with
  | .starting => some { a with shared := a.shared.dropHandle, main := .waiting }
  | .waiting =>
      match a.shared.finish.await none a.shared.crowd.clock with
      | .park => none
      | .done e _ => some { a with shared := { a.shared with finish := e }, main := .reporting }
  | .reporting => none

/-- Something happens at the gate that is no segment of a worker. -/
def disturb (a : Arena) (action : Gate.Action) : Option Arena :=
  (a.shared.crowd.act action).map fun p => { a with shared := { a.shared with crowd := p.1 } }

/-- One thing happens, if it can. -/
def act (p : Plan) (a : Arena) : Action → Option Arena
  | .worker i draw =>
      match a.workers[i]? with
      | none => none
      | some w =>
          match w.step p draw a.shared with
          | .finished => none
          | .parked s => some { a with shared := s }
          | .moved s w' => some { a with shared := s, workers := a.workers.set i w' }
  | .rouse t => a.disturb (.rouse t)
  | .tick ns => a.disturb (.tick ns)
  | .interrupt => some { a with shared := { a.shared with stop := true } }
  | .main => a.stepMain

/-- The moments of all runs with given settings. -/
inductive Reachable (s : Settings) (p : Plan) : Arena → Prop
  | start : Reachable s p (Arena.start s)
  | act {a b : Arena} {action : Action} : Reachable s p a → a.act p action = some b →
      Reachable s p b

/-- What the main thread reports, once it has been woken. -/
def report? (s : Settings) (a : Arena) : Option Report :=
  match a.main with
  | .reporting =>
      some ⟨s, a.shared.tally, a.shared.crowd.clock / 1000000, a.shared.stop,
        a.shared.crowd.gate.snapshot⟩
  | _ => none

/-! ### One run -/

/-- Workers take all their steps one after another. -/
def playAll (p : Plan) (s : Shared) : List Worker → Shared × List Worker
  | [] => (s, [])
  | w :: ws =>
      let (s, w) := w.alone p p.depth s
      let (s, ws) := playAll p s ws
      (s, w :: ws)

/-- The main thread takes all the steps that it can. -/
def conclude (a : Arena) : Arena := (a.stepMain.bind stepMain).getD a

/-- The run in which the workers go one after another, interrupted at its start or not at all. -/
def sequential (s : Settings) (p : Plan) (interrupted : Bool) : Arena :=
  let a := start s
  let (shared, workers) := playAll p { a.shared with stop := interrupted } a.workers
  conclude { a with shared := shared, workers := workers }

end Arena

end ReentrantGate.Stress
