/-
**Threads in any order.**

A script lets threads take turns in a fixed order.  Here nothing about the order is fixed: whoever
can go on may have the next turn, a thread may be woken by nobody, any amount of time may pass, and
a thread that is in the middle of nothing may start any calls.  Before any of the calls in the body
of a scope its thread may also panic, which leaves it with the release of the guard.

Main definitions:

* `World.gate` — a gate by its number;
* `Script.Turn` — a turn on record;
* `System.Happens` — what can happen next, with the turn on record if somebody takes one;
* `System.Runs`, `System.Reachable` — several things that happen in a row, and the systems that can
  come about from fresh gates and events.
-/

import ReentrantGate.Script.Moments

set_option relaxedAutoImplicit false
set_option autoImplicit false

namespace ReentrantGate.Script

/-- Gate number `i`; in place of one that does not exist a fresh one, to which nobody can come. -/
def World.gate (w : World) (i : Nat) : Gate := (w.gates[i]?).getD {}

/-! ### What can happen -/

/-- A turn on record: whose it was, the task, and the world that it found. -/
structure Turn where
  thread : ThreadId
  task : Task
  world : World

/-- The segment that was carried out in a turn. -/
def Turn.segment (x : Turn) : Segment := x.task.attempt x.thread x.world

namespace System

/-- **What can happen next** in a system. -/
inductive Happens (s : System) : Option Turn → System → Prop
  | turn {t : ThreadId} {task : Task} {rest : List Task} {rs : List Runner} :
      s.runnable = ⟨t, task :: rest⟩ :: rs → Happens s (some ⟨t, task, s.world⟩) s.turn
  | leave {t : ThreadId} {rs : List Runner} :
      s.runnable = ⟨t, []⟩ :: rs → Happens s none { s with runnable := rs }
  | shuffle {zs : List Sleeper} {rs : List Runner} :
      zs.Perm s.parked → rs.Perm s.runnable →
      Happens s none { s with parked := zs, runnable := rs }
  | rouse {z : Sleeper} {zs : List Sleeper} : s.parked = z :: zs →
      Happens s none { s with parked := zs, runnable := s.runnable ++ [z.wake] }
  | tick (ns : Nat) :
      Happens s none { s with world := { s.world with clock := s.world.clock + ns } }
  | enlist {t : ThreadId} (calls : List Call) : (∀ r ∈ s.everyone, r.thread ≠ t) →
      Happens s none (s.enlist t calls)
  | unwind {t : ThreadId} {skipped : List Call} {c : Call} {hold : Hold} {gate : Nat}
      {rest : List Task} {rs : List Runner} :
      s.runnable = ⟨t, skipped.map .start ++ .release c hold gate :: rest⟩ :: rs →
      Happens s none { s with runnable := ⟨t, .release c hold gate :: rest⟩ :: rs }
  | clear : Happens s none s.clear

/-- Things that happen in a row, with the turns that are taken.  Each of them happens while the
system meets a condition. -/
inductive Runs (P : System → Prop) (s : System) : List Turn → System → Prop
  | refl : Runs P s [] s
  | tail {turns : List Turn} {turn : Option Turn} {u v : System} : Runs P s turns u → P u →
      u.Happens turn v → Runs P s (turns ++ turn.toList) v

/-- A system that can come about from fresh gates and events, whatever happens. -/
def Reachable (s : System) : Prop :=
  ∃ gates events silent turns, Runs (fun _ => True) (fresh gates events silent) turns s

variable {s s' : System} {x : Option Turn} {turns : List Turn} {P : System → Prop}

theorem Reachable.fresh (gates events : Nat) (silent : Bool) :
    (fresh gates events silent).Reachable := ⟨gates, events, silent, [], .refl⟩

theorem Reachable.happens (h : s.Reachable) (hs : s.Happens x s') : s'.Reachable := by
  obtain ⟨gates, events, silent, turns, hruns⟩ := h
  exact ⟨gates, events, silent, _, hruns.tail trivial hs⟩

theorem Reachable.runs (h : s.Reachable) (hs : s.Runs P turns s') : s'.Reachable := by
  induction hs with
  | refl => exact h
  | tail _ _ hv ih => exact ih.happens hv

end System

end ReentrantGate.Script
