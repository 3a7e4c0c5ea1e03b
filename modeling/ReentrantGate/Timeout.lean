/-
**Timeouts, durations and deadlines.**

A call that may block is given a *timeout*: wait for ever, or for a number of milliseconds, where
zero means a single attempt.  When the call starts, its timeout becomes a *deadline*, an instant of
the clock that stays the same however often the call is woken and parked again.  Instants count
nanoseconds; the clock holds whole seconds below `2 ^ 63`, so a deadline may fail to exist.

Main definitions:

* `ReentrantGate.maxWord`, `Words.mul`, `Words.add` — words, their products and sums that stop at
  the largest one, and `Words.millis`, milliseconds computed with words alone;
* `ReentrantGate.Duration` — seconds and nanoseconds, and `Duration.toNanos`;
* `ReentrantGate.Timeout` — `Timeout.ofMillis?` for the signed millisecond convention and
  `Timeout.ofDuration` for durations;
* `ReentrantGate.Instant.add?`, `ReentrantGate.Timeout.deadline?` — instants that may not exist.
-/

set_option relaxedAutoImplicit false
set_option autoImplicit false

namespace ReentrantGate

/-! ### Words and durations -/

/-- The largest value of a 64-bit word. -/
def maxWord : Nat := UInt64.size - 1

namespace Words

/-- The product of two words, or the largest word if the product is larger. -/
def mul (a b : UInt64) : UInt64 :=
  if a.toNat * b.toNat ≤ maxWord then a * b else .ofNat maxWord

/-- The sum of two words, or the largest word if the sum is larger. -/
def add (a b : UInt64) : UInt64 :=
  if a.toNat + b.toNat ≤ maxWord then a + b else .ofNat maxWord

/-- The milliseconds of some seconds and nanoseconds. -/
def millis (secs : UInt64) (nanos : UInt32) : UInt64 :=
  add (mul secs 1000) (nanos / 1000000).toUInt64

end Words

/-- A length of time: whole seconds and the nanoseconds beyond them. -/
structure Duration where
  secs : Nat
  nanos : Nat
  deriving DecidableEq

/-- The length in nanoseconds. -/
def Duration.toNanos (d : Duration) : Nat := d.secs * 1000000000 + d.nanos

/-! ### Instants -/

/-- An instant is a number of nanoseconds; the clock holds fewer than `2 ^ 63` whole seconds. -/
def Instant.limit : Nat := UInt64.size / 2 * 1000000000

/-- The instant `ns` nanoseconds after `now`, if the clock can hold it. -/
def Instant.add? (now : Nat) (ns : Nat) : Option Nat :=
  if now + ns < Instant.limit then some (now + ns) else none

/-- Until when a wait may last; `none` is a wait without end. -/
abbrev Deadline := Option Nat

/-! ### Timeouts -/

/-- How long a call may stay parked; `millis 0` is a single attempt. -/
inductive Timeout
  | infinite
  | millis (ms : Nat)
  deriving DecidableEq

namespace Timeout

/-- The signed convention: `-1` waits for ever, `0` tries once, a positive number is a budget in
milliseconds, and anything else is no timeout. -/
def ofMillis? (ms : Int) : Option Timeout :=
  if ms = -1 then some .infinite
  else if 0 ≤ ms then some (.millis ms.toNat)
  else none

/-- A duration in milliseconds, cut to whole ones; the product and the sum each stop at the
largest word. -/
def ofDuration (d : Duration) : Timeout :=
  .millis (min maxWord (min maxWord (d.secs * 1000) + d.nanos / 1000000))

/-- The deadline of a call that starts at `now`; `none` if the clock cannot hold it. -/
def deadline? (now : Nat) : Timeout → Option Deadline
  | infinite => some none
  | millis ms => (Instant.add? now (ms * 1000000)).map some

/-- The text of a timeout in log records. -/
def text : Timeout → String
  | infinite => "Infinite"
  | millis ms => "Millis(" ++ toString ms ++ ")"

end Timeout

end ReentrantGate
