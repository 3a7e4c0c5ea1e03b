/-
**Looking at a condition before a deadline.**

Every wait in this library is the same loop.  Each time the waiting thread has the lock it takes one
*look*: if the condition holds the wait succeeds, even past the deadline; if it does not and the
deadline has come the wait fails; otherwise the thread parks, with a positive time left, until
something wakes it for the next look.

Main definitions:

* `ReentrantGate.Look`, `ReentrantGate.look` — what one look decides;
* `ReentrantGate.watch` — the loop, over the states and times that its looks find.

Main results:

* `ReentrantGate.look_eq_ready`, `ReentrantGate.look_eq_expired`, `ReentrantGate.look_eq_park` —
  when each of the three comes out;
* `ReentrantGate.look_ne_park` — nobody parks at or past a deadline.
-/

import ReentrantGate.Timeout

set_option relaxedAutoImplicit false
set_option autoImplicit false

namespace ReentrantGate

/-- The outcome of one look; a thread that parks knows how long it may, unless that is without
end. -/
inductive Look
  | ready
  | expired
  | park (remaining : Option Nat)
  deriving DecidableEq

/-- One look at a condition that holds or not, at time `now`. -/
def look (holds : Bool) (deadline : Deadline) (now : Nat) : Look :=
  if holds then .ready
  else
    match deadline with
    | none => .park none
    | some d => if d ≤ now then .expired else .park (some (d - now))

theorem look_eq_ready {holds : Bool} {deadline : Deadline} {now : Nat} :
    look holds deadline now = .ready ↔ holds = true := by
  unfold look
  repeat' split
  all_goals simp_all

theorem look_eq_expired {holds : Bool} {deadline : Deadline} {now : Nat} :
    look holds deadline now = .expired ↔ holds = false ∧ ∃ d, deadline = some d ∧ d ≤ now := by
  unfold look
  repeat' split
  all_goals simp_all

theorem look_eq_park {holds : Bool} {deadline : Deadline} {now : Nat} {left : Option Nat} :
    look holds deadline now = .park left ↔
      holds = false ∧ (∀ d, deadline = some d → now < d) ∧ deadline.map (· - now) = left := by
  cases holds with
  | true => simp [look]
  | false =>
      cases deadline with
      | none => simp [look]
      | some d =>
          by_cases h : d ≤ now
          · simp [look, h, Nat.not_lt.2 h]
          · simp [look, h, Nat.lt_of_not_le h]

theorem look_ne_park {holds : Bool} {d now : Nat} (h : d ≤ now) {left : Option Nat} :
    look holds (some d) now ≠ .park left := by
  intro hp
  have := (look_eq_park.1 hp).2.1 d rfl
  omega

/-- The loop of a wait: it looks at each state that it finds, at the time it finds it, and answers
with the state of the deciding look; `none` while it is still parked. -/
def watch {σ : Type} (ready : σ → Bool) (deadline : Deadline) :
    List (σ × Nat) → Option (σ × Bool)
  | [] => none
  | (s, now) :: later =>
      match look (ready s) deadline now with
      | .ready => some (s, true)
      | .expired => some (s, false)
      | .park _ => watch ready deadline later

end ReentrantGate
