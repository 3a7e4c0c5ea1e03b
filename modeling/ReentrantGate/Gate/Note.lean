/-
**What a gate tells its log.**

Each attempt that gives up, each release that is refused and each change of the close is noted.
A note becomes a log record with a level, a message and values.

Main definitions:

* `Gate.Note` — the causes;
* `Gate.Note.record` — their records.
-/

import ReentrantGate.Record
import ReentrantGate.Thread
import ReentrantGate.Timeout

set_option relaxedAutoImplicit false
set_option autoImplicit false

namespace ReentrantGate.Gate

/-- Something worth a log record. -/
inductive Note
  | entryTimedOut (timeout : Timeout)
  | unbalancedExit (thread : ThreadId)
  | unbalancedOpen (thread : ThreadId)
  | nested (depth : Nat)
  | exclusivityTimedOut
  | rolledBack (pending : Nat)
  | closed (own : Nat)
  | opened
  deriving DecidableEq

/-- The record of a note. -/
def Note.record : Note → Record
  | entryTimedOut timeout => ⟨.debug, "enter() timed out", [("timeout", timeout.text)]⟩
  | unbalancedExit t => ⟨.warning, "unbalanced exit()", [("thread", t.name)]⟩
  | unbalancedOpen t => ⟨.warning, "unbalanced open()", [("thread", t.name)]⟩
  | nested depth => ⟨.debug, "close() nested", [("depth", toString depth)]⟩
  | exclusivityTimedOut => ⟨.debug, "close() timed out waiting for exclusivity", []⟩
  | rolledBack pending =>
      ⟨.debug, "close() timed out draining, rolled back", [("pending", toString pending)]⟩
  | closed own => ⟨.debug, "closed", [("own", toString own)]⟩
  | opened => ⟨.debug, "opened", []⟩

end ReentrantGate.Gate
