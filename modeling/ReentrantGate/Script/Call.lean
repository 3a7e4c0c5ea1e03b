/-
**Calls of a script.**

A script makes threads perform calls on numbered gates and events.  A call is an operation at a
*site*, the gate and the event that it is about with a label, or a scope: a guard taken for the time
of a list of calls.  A scope may be told to panic after its calls; its guard is dropped in any case.

Main definitions:

* `ReentrantGate.Script.Site`, `ReentrantGate.Script.Operation`, `ReentrantGate.Script.Call`;
* `Call.name` — the name under which a call is reported;
* `Script.Result` — what a call answers;
* `Call.weight` — a bound on the segments that calls in a body can still finish.
-/

import ReentrantGate.Failure
import ReentrantGate.Gate.Snapshot
import ReentrantGate.Timeout

set_option relaxedAutoImplicit false
set_option autoImplicit false

namespace ReentrantGate.Script

/-- The gate and the event that a call is about, and a label by which its caller finds it again in
the journal. -/
structure Site where
  gate : Nat := 0
  event : Nat := 0
  label : Nat := 0
  deriving DecidableEq

/-- A call without a body. -/
inductive Operation
  | enter (ms : Int)
  | enterFor (timeout : Timeout)
  | exit
  | close (ms : Int)
  | closeFor (timeout : Timeout)
  | reopen
  | entries
  | isClosed
  | snapshot
  | guarded (hold : Hold) (timeout : Timeout) (name : String)
  | drop (name : String)
  | forget (name : String)
  | signal (times : Nat)
  | wait
  | waitFor (duration : Duration)
  | createHandle (name : String)
  | cloneHandle (source name : String)
  | dropHandle (name : String)
  | failRecords (count : Nat)
  deriving DecidableEq

/-- The name of an operation in reports. -/
def Operation.name : Operation → String
  | enter _ => "enter"
  | enterFor _ => "enter_for"
  | exit => "exit"
  | close _ => "close"
  | closeFor _ => "close_for"
  | reopen => "open"
  | entries => "entries"
  | isClosed => "is_closed"
  | snapshot => "snapshot"
  | guarded .entry .. => "entered"
  | guarded .close .. => "closed"
  | drop _ => "drop"
  | forget _ => "forget"
  | signal _ => "signal"
  | wait => "wait"
  | waitFor _ => "wait_for"
  | createHandle _ => "guard"
  | cloneHandle .. => "clone"
  | dropHandle _ => "unguard"
  | failRecords _ => "fail_logs"

/-- A call: an operation, or a scope with the calls inside it. -/
inductive Call
  | single (site : Site) (op : Operation)
  | scope (site : Site) (hold : Hold) (timeout : Timeout) (body : List Call) (panics : Bool)

namespace Call

/-- The site of a call. -/
def site : Call → Site
  | single s _ => s
  | scope s .. => s

/-- The name of a call in reports. -/
def name : Call → String
  | single _ op => op.name
  | scope .. => "scope"

mutual

/-- A bound on the work in a call: a call without a body may end by releasing a guard, a scope
acquires one, runs its body, and releases it. -/
def weight : Call → Nat
  | single .. => 2
  | scope _ _ _ body _ => weights body + 2

/-- The weight of a list of calls. -/
def weights : List Call → Nat
  | [] => 0
  | c :: cs => c.weight + weights cs

end

theorem weight_pos (c : Call) : 0 < c.weight := by
  cases c <;> simp [weight]

end Call

/-- Why a call cannot even be tried. -/
inductive Unknown
  | guard
  | event
  | gate
  deriving DecidableEq

/-- The text for something unknown. -/
def Unknown.message : Unknown → String
  | guard => "no such guard"
  | event => "no such ev"
  | gate => "no such gate"

/-- What a call answers. -/
inductive Result
  | ok
  | flag (value : Bool)
  | count (value : Nat)
  | view (snapshot : Gate.Snapshot)
  | refused (refusal : Refusal)
  | panicked (panic : Panic)
  | unknown (what : Unknown)
  deriving DecidableEq

end ReentrantGate.Script
