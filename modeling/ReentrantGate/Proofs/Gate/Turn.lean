/-
**One thread's turn at a gate.**

A program that uses a gate takes one call after another, and between its calls other programs take
theirs.  What a program has to know about a gate is little.  Its own turn at the lock changes its
depths by what the verdict grants or takes back, and leaves the thread in the middle of a call
exactly if there is no verdict.  Everybody else's turn leaves all of this as it was.

Main definitions:

* `Gate.Crowd.Alike` — two crowds that a thread cannot tell apart by what it holds and waits for;
* `Gate.gained` — what a verdict adds to the holds of a kind;
* `Gate.Crowd.Turn` — what a thread's turn at the lock does to a crowd.

Main results:

* `Gate.Crowd.Step.alike` — **an action of one thread changes nothing for the others**;
* `Gate.Crowd.Orderly.turn_of_call`, `Gate.Crowd.Orderly.turn_of_resume` — **every segment is a
  turn**;
* `Gate.Crowd.deadline?_of_overflowed` — a call overflows only on a deadline that does not exist.
-/

import ReentrantGate.Proofs.Gate.Holds

set_option relaxedAutoImplicit false
set_option autoImplicit false

namespace ReentrantGate.Gate

open Crowd (occurrence?)

/-! ### What others see -/

namespace Crowd

/-- A thread has the same depths in both crowds, and waits for the same or not at all. -/
structure Alike (c c' : Crowd) (u : ThreadId) : Prop where
  depth : c'.gate.depth u = c.gate.depth u
  closeDepth : c'.closeDepth u = c.closeDepth u
  mem_iff : ∀ v : Visitor, v.thread = u → (v ∈ c'.visitors ↔ v ∈ c.visitors)

variable {c c' rest : Crowd} {a : Action} {o : Option Occurrence} {t u : ThreadId} {d : Bool}
  {hold : Hold} {s : Segment}

/-- The thread with the lock may park, and nobody else comes or goes. -/
theorem mem_visitors_segment (hl : Leaves c t d rest) (hu : u ≠ t) {v : Visitor}
    (hv : v.thread = u) : v ∈ (rest.absorb t s).visitors ↔ v ∈ c.visitors := by
  rw [mem_visitors_absorb, hl.mem_iff, or_iff_right, and_iff_left]
  · exact hv ▸ hu
  · intro hp
    exact hu (hv.symm.trans (thread_of_mem_parks hp))

/-- **An action of one thread changes nothing for the others.** -/
theorem Step.alike (hs : Step c a c' o) (h : c.Orderly) (hu : a.actor ≠ some u) :
    c.Alike c' u := by
  cases hs with
  | @segment t d hold s rest sinkFails ht hl m =>
      have hut : u ≠ t := by
        rintro rfl
        exact hu ht
      refine ⟨?_, ?_, fun v hv => mem_visitors_segment hl hut hv⟩
      · rw [gate_absorb, m.depth_of_ne h.sound hut]
      · simp only [Crowd.closeDepth, gate_absorb, drains_absorb_of_ne hut, hl.drains_of_ne hut,
          m.closeDepth_of_ne hut]
  | still _ hg hv _ =>
      exact ⟨by rw [hg], by simp [Crowd.closeDepth, hg, drains_of_perm hv], fun v _ => hv.mem_iff⟩

end Crowd

/-! ### What a thread gains -/

/-- What a call about `hold` adds to the holds of `kind`; without a verdict it adds nothing. -/
def gained (kind hold : Hold) : Option Verdict → Int
  | none => 0
  | some verdict => if hold = kind then verdict.gain else 0

theorem balance_occurrence {kind hold : Hold} {t : ThreadId} {sinkFails : Bool} {s : Segment} :
    balance kind t (occurrence? t hold sinkFails s).toList = gained kind hold s.verdict? := by
  cases s with
  | park g w => exact balance_park
  | done g room note verdict => exact balance_done

namespace Crowd

/-- **What a turn of `t` in a call about `hold` does**, with the verdict if the call is over. -/
structure Turn (c : Crowd) (t : ThreadId) (hold : Hold) (verdict? : Option Verdict)
    (c' : Crowd) : Prop where
  reachable : c'.Reachable
  clock : c'.clock = c.clock
  depth : (c'.gate.depth t : Int) = c.gate.depth t + gained .entry hold verdict?
  closeDepth : (c'.closeDepth t : Int) = c.closeDepth t + gained .close hold verdict?
  waits : ∀ v ∈ c'.visitors, v.thread = t → verdict? = none ∧ v.waiting.hold = hold
  alike : ∀ u, u ≠ t → c.Alike c' u

variable {c c' rest : Crowd} {a : Action} {t : ThreadId} {d : Bool} {hold : Hold} {s : Segment}
  {sinkFails : Bool} {o : Option Occurrence}

@[simp] theorem clock_absorb : (c.absorb t s).clock = c.clock := by
  cases s <;> rfl

theorem verdict_occurrence (t : ThreadId) (hold : Hold) (sinkFails : Bool) (s : Segment) :
    (occurrence? t hold sinkFails s).map (·.verdict) = s.verdict? := by
  cases s <;> rfl

/-- A move parks a thread for what its call is about. -/
theorem hold_of_park {g g' : Gate} {w : Waiting} (m : Move t g d hold (.park g' w)) :
    w.hold = hold := by
  cases m <;> rfl

/-- A segment of a thread that has the lock is a turn. -/
theorem Orderly.turn (h : c.Orderly) (hl : Leaves c t d rest) (m : Move t c.gate d hold s)
    (hclock : rest.clock = c.clock) (hreach : (rest.absorb t s).Reachable) :
    c.Turn t hold s.verdict? (rest.absorb t s) where
  reachable := hreach
  clock := by rw [clock_absorb, hclock]
  depth := by
    rw [gate_absorb, m.depth_self h.sound false, balance_occurrence]
  closeDepth := by
    simp only [Crowd.closeDepth, gate_absorb]
    rw [drains_absorb_self hl.away, hl.drains, m.closeDepth_self false, balance_occurrence]
  waits v hv hvt := by
    rcases mem_visitors_absorb.1 hv with hp | hv
    · obtain ⟨g, w, rfl, rfl⟩ := eq_of_mem_parks hp
      exact ⟨rfl, hold_of_park m⟩
    · exact absurd hvt (hl.away v hv)
  alike u hu := by
    have hs : Step c (.call t .exit false) (rest.absorb t s) _ := .segment false rfl hl m
    exact hs.alike h (by simpa [Action.actor] using hu.symm)

/-- **The first segment of a call is a turn.** -/
theorem Orderly.turn_of_call {r : Request} (h : c.Orderly) (hc : c.Reachable)
    (ha : c.act (.call t r sinkFails) = some (c', o)) :
    c.Turn t r.hold (o.map (·.verdict)) c' := by
  have hreach := hc.act ha
  simp only [act] at ha
  split at ha
  · rename_i hi
    cases ha
    rw [verdict_occurrence]
    exact h.turn (.of_idle hi) (begin_move h.sound _ r) rfl hreach
  · cases ha

/-- **So is every later segment.** -/
theorem Orderly.turn_of_resume (h : c.Orderly) (hc : c.Reachable)
    (hw : ∀ v ∈ c.visitors, v.thread = t → v.waiting.hold = hold)
    (ha : c.act (.resume t sinkFails) = some (c', o)) :
    c.Turn t hold (o.map (·.verdict)) c' := by
  have hreach := hc.act ha
  simp only [act] at ha
  split at ha
  · cases ha
  · rename_i v hf
    cases ha
    obtain ⟨hv, ht, hl⟩ := Leaves.of_find h.nodup hf
    rw [verdict_occurrence]
    have m := resume_move h.sound (ht ▸ h.fits v hv) c.clock
    rw [hw v hv ht] at m
    exact h.turn hl m rfl hreach

/-! ### Verdicts -/

end Crowd

/-- The timeout of a request that may have to wait. -/
def Request.timeout? : Request → Option Timeout
  | enter timeout => some timeout
  | close timeout => some timeout
  | _ => none

section Verdicts

variable {g : Gate} {t : ThreadId} {now : Nat} {deadline : Deadline} {verdict : Verdict}

theorem verdict_awaitEntry {timeout : Timeout}
    (h : (awaitEntry t timeout deadline now g).verdict? = some verdict) :
    verdict = .granted ∨ verdict = .timedOut := by
  unfold awaitEntry at h
  split at h
  · exact .inl (Option.some.inj h).symm
  · exact .inr (Option.some.inj h).symm
  · cases h

theorem verdict_awaitDrain (h : (awaitDrain t deadline now g).verdict? = some verdict) :
    verdict = .granted ∨ verdict = .timedOut := by
  unfold awaitDrain at h
  split at h
  · exact .inl (Option.some.inj h).symm
  · exact .inr (Option.some.inj h).symm
  · cases h

theorem verdict_awaitExclusivity
    (h : (awaitExclusivity t deadline now g).verdict? = some verdict) :
    verdict = .granted ∨ verdict = .timedOut := by
  unfold awaitExclusivity at h
  split at h
  · exact verdict_awaitDrain h
  · exact .inr (Option.some.inj h).symm
  · cases h

/-- **A thread that was parked gets what it waited for or gives up.** -/
theorem verdict_resume {w : Waiting} (h : (resume t now w g).verdict? = some verdict) :
    verdict = .granted ∨ verdict = .timedOut := by
  cases w with
  | entry timeout deadline => exact verdict_awaitEntry h
  | exclusivity deadline => exact verdict_awaitExclusivity h
  | drain deadline => exact verdict_awaitDrain h

/-- A request that may have to wait is granted or given up as well, unless it asks for a deadline
that the clock cannot hold. -/
theorem verdict_begin {r : Request} {timeout : Timeout} (hr : r.timeout? = some timeout)
    (h : (begin t now r g).verdict? = some verdict) :
    verdict = .granted ∨ verdict = .timedOut ∨
      verdict = .overflowed ∧ timeout.deadline? now = none := by
  cases r with
  | enter timeout' =>
      obtain rfl : timeout' = timeout := Option.some.inj hr
      simp only [begin, enter] at h
      split at h
      · exact .inl (Option.some.inj h).symm
      · split at h
        · exact .inr (.inr ⟨(Option.some.inj h).symm, ‹_›⟩)
        · exact (verdict_awaitEntry h).imp_right .inl
  | close timeout' =>
      obtain rfl : timeout' = timeout := Option.some.inj hr
      simp only [begin, close] at h
      split at h
      · exact .inl (Option.some.inj h).symm
      · split at h
        · exact .inr (.inr ⟨(Option.some.inj h).symm, ‹_›⟩)
        · exact (verdict_awaitExclusivity h).imp_right .inl
  | exit => cases hr
  | reopen => cases hr

/-- A call that overflows asks for a deadline that the clock cannot hold. -/
theorem begin_overflowed {r : Request} (h : (begin t now r g).verdict? = some .overflowed) :
    r.timeout?.bind (·.deadline? now) = none := by
  cases hr : r.timeout? with
  | none => rfl
  | some timeout =>
      rcases verdict_begin hr h with hv | hv | ⟨-, hnone⟩
      · cases hv
      · cases hv
      · exact hnone

/-- A thread that is inside enters once more without waiting. -/
theorem enter_eq_of_inside (h : 0 < g.depth t) (timeout : Timeout) (now : Nat) :
    enter t timeout now g = .done (g.raise t) none none .granted := by
  simp [enter, admits, h]

end Verdicts

/-- **A call overflows only on a deadline that the clock cannot hold**, in its first segment. -/
theorem Crowd.deadline?_of_overflowed {c c' : Crowd} {a : Action} {o : Occurrence}
    (ha : c.act a = some (c', some o)) (ho : o.verdict = .overflowed) :
    ∃ t r sinkFails, a = .call t r sinkFails ∧ r.timeout?.bind (·.deadline? c.clock) = none := by
  cases a with
  | call t r sinkFails =>
      simp only [act] at ha
      split at ha
      · have hv := verdict_occurrence t r.hold sinkFails (begin t c.clock r c.gate)
        simp only [Option.some.injEq, Prod.mk.injEq] at ha
        rw [ha.2] at hv
        exact ⟨t, r, sinkFails, rfl, begin_overflowed (hv.symm.trans (congrArg some ho))⟩
      · cases ha
  | resume t sinkFails =>
      simp only [act] at ha
      split at ha
      · cases ha
      · rename_i v _
        have hv := verdict_occurrence t v.waiting.hold sinkFails
          (Gate.resume t c.clock v.waiting c.gate)
        simp only [Option.some.injEq, Prod.mk.injEq] at ha
        rw [ha.2] at hv
        rcases verdict_resume (hv.symm.trans (congrArg some ho)) with hv | hv <;> cases hv
  | rouse t =>
      simp only [act] at ha
      split at ha <;> cases ha
  | tick ns => cases ha

end ReentrantGate.Gate
