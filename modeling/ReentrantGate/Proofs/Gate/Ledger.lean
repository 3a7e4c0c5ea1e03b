/-
**Holds and histories.**

Every call that is over leaves an occurrence, so a history tells how often a thread was granted a
hold and how often it gave one back.  The difference is the *balance* of the thread.  Nothing else
moves what a gate says about the thread: its depth is its balance of entries, and the depth of a
close that it holds is its balance of closes, at every moment of every run.

Main definitions:

* `Gate.tally`, `Gate.balance` — calls of a thread with some verdict, and holds not given back;
* `Gate.closeDepth`, `Gate.Crowd.closeDepth` — the depth of a close, which counts only once it has
  drained.

Main results:

* `Gate.Move.depth_self`, `Gate.Move.closeDepth_self` — what a segment does to its own thread;
* `Gate.Crowd.depth_eq_balance`, `Gate.Crowd.closeDepth_eq_balance` — **holds equal history**.
-/

import ReentrantGate.Proofs.Gate.Orderly

set_option relaxedAutoImplicit false
set_option autoImplicit false

namespace ReentrantGate.Gate

open Crowd (occurrence?)

/-! ### Histories -/

/-- How many calls of `t` about a kind of hold ended with a verdict. -/
def tally (hold : Hold) (verdict : Verdict) (t : ThreadId) (history : List Occurrence) : Nat :=
  history.countP fun o => o.thread = t && o.hold = hold && o.verdict = verdict

/-- How many holds of a kind `t` was granted and has not given back. -/
def balance (hold : Hold) (t : ThreadId) (history : List Occurrence) : Int :=
  tally hold .granted t history - tally hold .released t history

@[simp] theorem balance_nil (hold : Hold) (t : ThreadId) : balance hold t [] = 0 := rfl

theorem balance_append (hold : Hold) (t : ThreadId) (before after : List Occurrence) :
    balance hold t (before ++ after) = balance hold t before + balance hold t after := by
  simp only [balance, tally, List.countP_append]
  omega

/-- What a verdict adds to the holds of a thread. -/
def Verdict.gain : Verdict → Int
  | granted => 1
  | released => -1
  | _ => 0

section Segments

variable {g : Gate} {t u : ThreadId} {hold hold' : Hold} {sinkFails : Bool} {s : Segment}

@[simp] theorem balance_park {w : Waiting} :
    balance hold t (occurrence? t hold' sinkFails (.park g w)).toList = 0 := rfl

@[simp] theorem balance_done {room : Option Room} {note : Option Note} {verdict : Verdict} :
    balance hold t (occurrence? t hold' sinkFails (.done g room note verdict)).toList =
      if hold' = hold then verdict.gain else 0 := by
  by_cases hh : hold' = hold
  · cases verdict <;> simp [occurrence?, balance, tally, Verdict.gain, hh]
  · simp [occurrence?, balance, tally, hh]

/-- The calls of others do not count. -/
theorem balance_of_ne (hu : u ≠ t) :
    balance hold u (occurrence? t hold' sinkFails s).toList = 0 := by
  cases s with
  | park g w => rfl
  | done g room note verdict => simp [occurrence?, balance, tally, hu.symm]

end Segments

/-- The depth of a close, for a thread that holds it; a thread that drains does not. -/
def closeDepth (g : Gate) (draining : Bool) (t : ThreadId) : Nat :=
  if g.closer = some t ∧ draining = false then g.closed else 0

theorem closeDepth_pos {g : Gate} {draining : Bool} {t : ThreadId}
    (h : 0 < g.closeDepth draining t) : g.closer = some t ∧ draining = false := by
  unfold closeDepth at h
  split at h
  · assumption
  · omega

/-! ### What a segment does to its own thread -/

namespace Move

variable {g : Gate} {t u : ThreadId} {d : Bool} {hold : Hold} {s : Segment}

/-- **A segment changes the depth of its thread by what it grants or gives back.** -/
theorem depth_self (m : Move t g d hold s) (h : g.Sound) (sinkFails : Bool) :
    (s.gate.depth t : Int) =
      g.depth t + balance .entry t (occurrence? t hold sinkFails s).toList := by
  cases m with
  | refuse e => cases e <;> simp [Segment.gate, Verdict.gain]
  | enter _ => simp [Segment.gate, depth_raise, Verdict.gain]
  -- a thread that leaves is inside, so its depth goes down by exactly one
  | exit h0 _ =>
      simp only [Segment.gate, h.depth_lower, balance_done, Verdict.gain, if_true]
      omega
  | lastExit h0 _ _ _ =>
      simp only [Segment.gate, h.depth_lower, balance_done, Verdict.gain, if_true]
      omega
  | _ => simp [Segment.gate, depth, Gate.nest, Gate.unnest, unclaim, Gate.claim]

/-- **A segment changes the depth of its thread's close by what it grants or gives back.** -/
theorem closeDepth_self (m : Move t g d hold s) (sinkFails : Bool) :
    (s.gate.closeDepth s.draining t : Int) =
      g.closeDepth d t + balance .close t (occurrence? t hold sinkFails s).toList := by
  cases m with
  | refuse e => cases e <;> simp [Segment.gate, Segment.draining, Verdict.gain]
  | enter _ => simp [Segment.gate, Segment.draining, closeDepth, Gate.raise]
  | exit _ _ => simp [Segment.gate, Segment.draining, closeDepth, Gate.lower]
  | lastExit _ _ _ _ => simp [Segment.gate, Segment.draining, closeDepth, Gate.lower]
  | nest hc => simp [Segment.gate, Segment.draining, closeDepth, Gate.nest, hc, Verdict.gain]
  | unnest hc h1 =>
      simp [Segment.gate, Segment.draining, closeDepth, Gate.unnest, hc, Verdict.gain]
      omega
  | reopen hc h1 =>
      simp [Segment.gate, Segment.draining, closeDepth, Gate.unclaim, hc, h1, Verdict.gain]
  | claim hc _ => simp [Segment.gate, Segment.draining, closeDepth, Gate.claim, hc, Verdict.gain]
  | probe hc _ => simp [Segment.gate, Segment.draining, closeDepth, hc, Verdict.gain]
  | drained hc h1 _ => simp [Segment.gate, Segment.draining, closeDepth, hc, h1, Verdict.gain]
  -- a claim that has not drained counts for nothing, neither before a roll back nor after parking
  | rollBack hc _ =>
      simp [Segment.gate, Segment.draining, closeDepth, Gate.unclaim, Verdict.gain]
  | park hw _ _ => simp [Segment.gate, Segment.draining, closeDepth, hw]
  | drain hc _ =>
      simp [Segment.gate, Segment.draining, Waiting.draining, Waiting.room, closeDepth, hc]
  | stay hc h1 _ =>
      simp [Segment.gate, Segment.draining, Waiting.draining, Waiting.room, closeDepth]

/-- A segment leaves the depth of another thread's close alone. -/
theorem closeDepth_of_ne (m : Move t g d hold s) (hu : u ≠ t) (draining : Bool) :
    s.gate.closeDepth draining u = g.closeDepth draining u := by
  simp only [closeDepth, m.closer_iff_of_ne hu]
  split
  · rename_i hc
    exact m.closed_of_ne hu hc.1
  · rfl

end Move

/-! ### Holds equal history -/

namespace Crowd

/-- The depth of the close that a thread holds. -/
def closeDepth (c : Crowd) (t : ThreadId) : Nat := c.gate.closeDepth (c.drains t) t

variable {c c' : Crowd} {a : Action} {o : Option Occurrence}

/-- An action changes the depth of a thread by what it grants the thread or takes back. -/
theorem Step.depth (hs : Step c a c' o) (h : c.Orderly) (u : ThreadId) :
    (c'.gate.depth u : Int) = c.gate.depth u + balance .entry u o.toList := by
  cases hs with
  | @segment t d hold s rest sinkFails _ hl m =>
      rw [gate_absorb]
      by_cases hu : u = t
      · subst hu
        exact m.depth_self h.sound sinkFails
      · rw [m.depth_of_ne h.sound hu, balance_of_ne hu, add_zero]
  | still _ hg _ _ => simp [hg]

/-- An action changes the depth of a thread's close by what it grants the thread or takes back. -/
theorem Step.closeDepth (hs : Step c a c' o) (u : ThreadId) :
    (c'.closeDepth u : Int) = c.closeDepth u + balance .close u o.toList := by
  cases hs with
  | @segment t d hold s rest sinkFails _ hl m =>
      simp only [Crowd.closeDepth, gate_absorb]
      by_cases hu : u = t
      · subst hu
        rw [drains_absorb_self hl.away, hl.drains]
        exact m.closeDepth_self sinkFails
      · rw [drains_absorb_of_ne hu, hl.drains_of_ne hu, m.closeDepth_of_ne hu, balance_of_ne hu,
          add_zero]
  | still _ hg hv _ => simp [Crowd.closeDepth, hg, drains_of_perm hv]

variable {as : List Action} {history : List Occurrence}

/-- **After every run the depth of a thread is its balance of entries.** -/
theorem depth_eq_balance (h : run {} as = some (c, history)) (t : ThreadId) :
    (c.gate.depth t : Int) = balance .entry t history := by
  refine run_steps (P := fun c history => (c.gate.depth t : Int) = balance .entry t history)
    rfl ?_ h
  intro c history a c' o ho ih hs
  rw [hs.depth ho, ih, balance_append]

/-- **After every run the depth of a close that a thread holds is its balance of closes.** -/
theorem closeDepth_eq_balance (h : run {} as = some (c, history)) (t : ThreadId) :
    (c.closeDepth t : Int) = balance .close t history := by
  refine run_steps (P := fun c history => (c.closeDepth t : Int) = balance .close t history)
    rfl ?_ h
  intro c history a c' o _ ih hs
  rw [hs.closeDepth, ih, balance_append]

end Crowd

end ReentrantGate.Gate
