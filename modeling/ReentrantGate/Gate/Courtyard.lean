/-
**A gate behind its lock, and what the callers see.**

The crowd at a gate says who is where; what is left out there is the lock itself and the answer that
each caller gets.  A thread that unwinds while it has the lock leaves it *poisoned*: from then on
taking it is an error, which still hands over the gate.  A *courtyard* is a crowd with such a lock.
Each time a thread has had the lock there is a *stint* to record: what it did, deed by deed, and how
it ended for the caller.

Main definitions:

* `Gate.Call`, `Gate.Reply` — what callers ask, guards included, and what they are told;
* `Gate.Stint` — what a thread did while it had the lock;
* `Gate.Courtyard`, with `Courtyard.lock` and `Gate.recover` — the lock and its poison;
* `Courtyard.act`, `Courtyard.run` — one thing that happens, and several in a row.

Main results:

* `Courtyard.run_concat` — a run goes on where the one before it ended.
-/

import ReentrantGate.Gate.Routine

set_option relaxedAutoImplicit false
set_option autoImplicit false

namespace ReentrantGate.Gate

/-! ### Calls and replies -/

/-- What a caller asks of a gate: with a timeout in the signed convention or as a value, a release,
or a release by dropping a guard. -/
inductive Call
  | enter (ms : Int)
  | enterFor (timeout : Timeout)
  | exit
  | close (ms : Int)
  | closeFor (timeout : Timeout)
  | reopen
  | drop (hold : Hold)
  deriving DecidableEq

/-- What a caller is told. -/
inductive Reply
  | flag (success : Bool)
  | ok
  | refused (refusal : Refusal)
  | unwound (panic : Panic)
  deriving DecidableEq

/-- A timeout in the signed convention; a number that is none is refused. -/
def timeoutOf (ms : Int) : Except Refusal Timeout :=
  match Timeout.ofMillis? ms with
  | none => .error (.invalidTimeout ms)
  | some timeout => .ok timeout

namespace Call

/-- The kind of hold that a call is about. -/
def hold : Call → Hold
  | enter _ => .entry
  | enterFor _ => .entry
  | exit => .entry
  | close _ => .close
  | closeFor _ => .close
  | reopen => .close
  | drop hold => hold

/-- What a call asks of the gate, unless it is refused before that. -/
def request : Call → Except Refusal Request
  | enter ms => (timeoutOf ms).map .enter
  | enterFor timeout => .ok (.enter timeout)
  | exit => .ok .exit
  | close ms => (timeoutOf ms).map .close
  | closeFor timeout => .ok (.close timeout)
  | reopen => .ok .reopen
  | drop .entry => .ok .exit
  | drop .close => .ok .reopen

end Call

/-- What the caller is told about a verdict. -/
def Verdict.reply : Verdict → Reply
  | granted => .flag true
  | timedOut => .flag false
  | released => .ok
  | misused usage => .refused (.misuse usage)
  | overflowed => .unwound .instantOverflow

/-- What the caller is told at the end of a call; a guard that finds its hold gone unwinds.  A call
that was parked is no guard's release, so nothing has to be known about it. -/
def conclusion : Option Call → Verdict → Reply
  | some (.drop hold), .misused _ => .unwound (.guardOutlived hold)
  | _, verdict => verdict.reply

/-- Only a misuse is told differently when a guard is dropped. -/
theorem conclusion_eq_reply {started : Option Call} {verdict : Verdict}
    (h : ∀ usage, verdict ≠ .misused usage) : conclusion started verdict = verdict.reply := by
  unfold conclusion
  split
  · exact absurd rfl (h _)
  · rfl

@[simp] theorem conclusion_granted (started : Option Call) :
    conclusion started .granted = .flag true :=
  conclusion_eq_reply (by simp)

@[simp] theorem conclusion_released (started : Option Call) :
    conclusion started .released = .ok :=
  conclusion_eq_reply (by simp)

@[simp] theorem conclusion_timedOut (started : Option Call) :
    conclusion started .timedOut = .flag false :=
  conclusion_eq_reply (by simp)

/-- A misuse is neither told as a success nor as a failed attempt. -/
theorem conclusion_misused (started : Option Call) (usage : Usage) (success : Bool) :
    conclusion started (.misused usage) ≠ .flag success ∧
      conclusion started (.misused usage) ≠ .ok := by
  unfold conclusion
  split <;> simp [Verdict.reply]

/-! ### Stints -/

/-- How a stint ends: the thread has parked, or its caller has been told something. -/
inductive Ending
  | parked (waiting : Waiting)
  | replied (reply : Reply)
  deriving DecidableEq

/-- What a thread did while it had the lock: for the first stint of a call the call, and in any case
the kind of hold it is about, the deeds, and the ending. -/
structure Stint where
  thread : ThreadId
  hold : Hold
  started : Option Call
  deeds : List Deed
  ending : Ending
  deriving DecidableEq

/-- The ending of a stint whose routine ended so. -/
def ending (started : Option Call) : Except Panic Outcome → Ending
  | .ok (.parked w) => .parked w
  | .ok (.returned verdict) => .replied (conclusion started verdict)
  | .error panic => .replied (.unwound panic)

/-! ### The lock -/

/-- A crowd at a gate, and whether the lock of the gate is poisoned. -/
structure Courtyard where
  crowd : Crowd := {}
  poisoned : Bool := false

/-- All that can be seen of a courtyard without taking the lock, with what has been recorded. -/
def Courtyard.seen {α : Type} (p : Courtyard × α) : Crowd × α := (p.1.crowd, p.2)

/-- What is behind a lock, poisoned or not. -/
def recover : Except Gate Gate → Gate
  | .ok g => g
  | .error g => g

namespace Courtyard

/-- Taking the lock; with a poisoned lock that is an error. -/
def lock (y : Courtyard) : Except Gate Gate :=
  if y.poisoned then .error y.crowd.gate else .ok y.crowd.gate

/-- Thread `t`, of a call about `hold`, takes the lock and goes through a routine, with the others
in `rest`.  Unwinding gives the lock up poisoned. -/
def stint (y : Courtyard) (sink : Sink) (t : ThreadId) (hold : Hold) (started : Option Call)
    (rest : Crowd) (routine : Locked Outcome) : Courtyard × Option Stint :=
  let (outcome, left) := routine.play sink { crowd := { rest with gate := recover y.lock } }
  (⟨left.crowd.leftBy t outcome, y.poisoned || outcome.isOk.not⟩,
    some ⟨t, hold, started, left.deeds, ending started outcome⟩)

/-! ### What can happen -/

/-- What can happen: a call, a stint of a thread that has been woken, a wakeup without any notice,
or the passing of time. -/
inductive Action
  | call (thread : ThreadId) (call : Call)
  | resume (thread : ThreadId)
  | rouse (thread : ThreadId)
  | tick (ns : Nat)
  deriving DecidableEq

/-- One thing happens, if it can, with the sink as it is then; a thread may have had a stint after
it.  A call that is refused before it asks for anything does not take the lock. -/
def act (y : Courtyard) (sink : Sink) : Action → Option (Courtyard × Option Stint)
  | .call t call =>
      if y.crowd.idle t then
        match call.request with
        | .error refusal =>
            some (y, some ⟨t, call.hold, some call, [], .replied (.refused refusal)⟩)
        | .ok r =>
            some (y.stint sink t call.hold (some call) y.crowd (Routine.begin t y.crowd.clock r))
      else none
  | .resume t =>
      match y.crowd.woken.find? (·.thread = t) with
      | none => none
      | some v =>
          some (y.stint sink t v.waiting.hold none
            { y.crowd with woken := y.crowd.woken.eraseP (·.thread = t) }
            (Routine.resume t y.crowd.clock v.waiting))
  | .rouse t => (y.crowd.act (.rouse t)).map fun p => ({ y with crowd := p.1 }, none)
  | .tick ns => (y.crowd.act (.tick ns)).map fun p => ({ y with crowd := p.1 }, none)

/-- Several things happen in a row, each with the sink as it is then; the answer has for each of
them the stint that there was, if there was one. -/
def run (y : Courtyard) : List (Sink × Action) → Option (Courtyard × List (Option Stint))
  | [] => some (y, [])
  | a :: as =>
      (y.act a.1 a.2).bind fun p => (p.1.run as).map fun q => (q.1, p.2 :: q.2)

/-- A run goes on where the one before it ended. -/
theorem run_concat (y : Courtyard) (as : List (Sink × Action)) (a : Sink × Action) :
    y.run (as ++ [a]) = (y.run as).bind fun p =>
      (p.1.act a.1 a.2).map fun q => (q.1, p.2 ++ [q.2]) := by
  induction as generalizing y with
  | nil =>
      simp only [List.nil_append, run, Option.bind_some, Option.map_some]
      cases y.act a.1 a.2 <;> rfl
  | cons b as ih =>
      simp only [List.cons_append, run, ih]
      cases y.act b.1 b.2 with
      | none => rfl
      | some p =>
          simp only [Option.bind_some, Option.map_bind, Option.bind_map]
          cases p.1.run as with
          | none => rfl
          | some q => simp [Function.comp_def]

end Courtyard

end ReentrantGate.Gate
