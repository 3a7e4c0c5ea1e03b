/-
**Why a call does not do what it was asked.**

A *refusal* is an answer to the caller: a release without its acquisition, or an argument that is
no timeout.  A *panic* unwinds the call: the log sink failed, a guard was dropped after its hold had
been released by hand, a scope was told to panic, or a deadline does not exist.

Main definitions:

* `ReentrantGate.Usage`, `ReentrantGate.Refusal` — with `Refusal.code` and `Refusal.message`;
* `ReentrantGate.Hold` — the two kinds of hold, an entry or a close;
* `ReentrantGate.Panic` — with `Panic.message`.
-/

set_option relaxedAutoImplicit false
set_option autoImplicit false

namespace ReentrantGate

/-- The two releases that need a matching acquisition by the same thread. -/
inductive Usage
  | exit
  | reopen
  deriving DecidableEq

/-- The error values of a gate. -/
inductive Refusal
  | misuse (usage : Usage)
  | invalidTimeout (ms : Int)
  deriving DecidableEq

namespace Refusal

/-- The name of the error with its argument. -/
def code : Refusal → String
  | misuse .exit => "UsageViolation(Exit)"
  | misuse .reopen => "UsageViolation(Open)"
  | invalidTimeout ms => "InvalidArgument(" ++ toString ms ++ ")"

/-- The sentence shown for the error. -/
def message : Refusal → String
  | misuse .exit => "exit() without a matching enter()"
  | misuse .reopen => "open() without a matching close()"
  | invalidTimeout ms => "invalid timeout " ++ toString ms ++ "ms (must be >= -1)"

end Refusal

/-- What a thread can hold of a gate. -/
inductive Hold
  | entry
  | close
  deriving DecidableEq

/-- What unwinds a call. -/
inductive Panic
  | sinkFailed
  | guardOutlived (hold : Hold)
  | scope
  | instantOverflow
  deriving DecidableEq

/-- The text that a panic carries. -/
def Panic.message : Panic → String
  | sinkFailed => "log sink failed"
  | guardOutlived .entry => "entry guard dropped after a manual exit()"
  | guardOutlived .close => "close guard dropped after a manual open()"
  | scope => "scope panic"
  | instantOverflow => "overflow when adding duration to instant"

end ReentrantGate
