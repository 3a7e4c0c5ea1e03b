/-
**What a call waits for, and until when.**

A call that may be parked wants a hold of its gate or the flag of its event.  Its deadline is
reckoned once, from the clock at which it starts, and it goes by no other.  Whether a call can have
what it wants is a matter of the gate or the event alone, and can be asked at any moment.

Main definitions:

* `Script.Want`, `Call.want?` — what a call waits for, with its timeout;
* `Want.span?`, `Want.deadline?` — how long a call may wait, and until when if it starts now;
* `Gate.Grants`, `Want.Met` — a call can have what it wants;
* `Script.started?` — the call that a thread has started last, and when.
-/

import ReentrantGate.Script.Extension
import ReentrantGate.Script.Moments

set_option relaxedAutoImplicit false
set_option autoImplicit false

namespace ReentrantGate

/-- Whether a gate can give a thread a hold without delay: an entry if the thread is inside already
or nobody else is the closer, a close if nobody else is the closer or inside. -/
def Gate.Grants (g : Gate) (t : ThreadId) : Hold → Prop
  | .entry => g.closer = none ∨ g.closer = some t ∨ 0 < g.depth t
  | .close => (g.closer = none ∨ g.closer = some t) ∧ ∀ u, u ≠ t → g.depth u = 0

namespace Script

/-! ### Calls that wait -/

/-- What a call waits for: a hold of its gate, or the flag of its event, each for so long. -/
inductive Want
  | hold (hold : Hold) (timeout : Timeout)
  | flag (limit : Option Duration)
  deriving DecidableEq

/-- What an operation waits for, if it is one that waits. -/
def Operation.want? : Operation → Option Want
  | enter ms => (Timeout.ofMillis? ms).map (.hold .entry)
  | enterFor timeout => some (.hold .entry timeout)
  | close ms => (Timeout.ofMillis? ms).map (.hold .close)
  | closeFor timeout => some (.hold .close timeout)
  | guarded hold timeout _ => some (.hold hold timeout)
  | wait => some (.flag none)
  | waitFor duration => some (.flag (some duration))
  | _ => none

namespace Call

/-- What a call waits for, if it is one that waits; a scope waits for its guard. -/
def want? : Call → Option Want
  | single _ op => op.want?
  | scope _ hold timeout _ _ => some (.hold hold timeout)

/-- Whether a call has more to do after it has got what it wants: a scope has its body, and a guard
may take the place of another one. -/
def takesGuard : Call → Bool
  | single _ (.guarded ..) => true
  | single .. => false
  | scope .. => true

/-- What a call answers that has got what it wants. -/
def success : Call → Result
  | single _ .wait => .ok
  | _ => .flag true

theorem success_ne_refusal (c : Call) : c.success ≠ .flag false := by
  unfold success
  split <;> simp

end Call

namespace Want

/-- How many nanoseconds a call may wait, unless that is without end. -/
def span? : Want → Option Nat
  | hold _ .infinite => none
  | hold _ (.millis ms) => some (ms * 1000000)
  | flag limit => limit.map Duration.toNanos

/-- The deadline of a call that starts at `now`: that many nanoseconds later.  It is `none` if the
clock cannot hold it. -/
def deadline? (now : Nat) (want : Want) : Option Deadline :=
  match want.span? with
  | none => some none
  | some ns => (Instant.add? now ns).map some

@[simp] theorem deadline?_hold (now : Nat) (h : Hold) (timeout : Timeout) :
    (hold h timeout).deadline? now = timeout.deadline? now := by
  cases timeout <;> rfl

/-- No deadline lies before the start. -/
theorem le_of_deadline? {now d : Nat} {want : Want} (h : want.deadline? now = some (some d)) :
    now ≤ d := by
  unfold deadline? at h
  split at h
  · cases h
  · rename_i ns _
    obtain ⟨d', hadd, hd⟩ := Option.map_eq_some_iff.1 h
    cases hd
    rw [Instant.eq_of_add? hadd]
    exact Nat.le_add_right now ns

/-- Whether the call `c` of `t` can have what it wants. -/
def Met (w : World) (t : ThreadId) (c : Call) : Want → Prop
  | hold h _ => ∃ g, w.gates[c.site.gate]? = some g ∧ g.Grants t h
  | flag _ => ∃ e, w.events[c.site.event]? = some e ∧ e.set = true

/-- Whether there is no gate or event to have it from. -/
def Missing (w : World) (c : Call) : Want → Prop
  | hold .. => w.gates[c.site.gate]? = none
  | flag _ => w.events[c.site.event]? = none

theorem Missing.not_met {w : World} {t : ThreadId} {c : Call} {want : Want}
    (h : want.Missing w c) : ¬want.Met w t c := by
  cases want <;> simp_all [Missing, Met]

end Want

/-! ### When a call started -/

/-- The call that `t` is about to start, and the clock, if it is the first runner and starts one. -/
def System.startOf? (t : ThreadId) (s : System) : Option (Call × Nat) :=
  match s.runnable with
  | ⟨u, .start c :: _⟩ :: _ => if u = t then some (c, s.world.clock) else none
  | _ => none

/-- The call that `t` has started last in these moments, and the clock when it did. -/
def started? (t : ThreadId) (ms : List System) : Option (Call × Nat) :=
  (ms.filterMap (System.startOf? t)).getLast?

end Script

end ReentrantGate
