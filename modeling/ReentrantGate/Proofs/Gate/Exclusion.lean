/-
**A close that is held excludes everybody else.**

A thread holds the close from the segment in which the drain of its outermost close succeeds to the
open that takes its last close back.  In between no other thread is inside or gets in, and nobody
else closes or claims the gate.  The holder may enter and leave as it likes.  None of this depends
on the sink of the log: a sink that fails unwinds a call after the gate has been changed, so a close
is held even if the record of it could not be written.

Main definitions:

* `Gate.HoldsClose` — whether a thread holds the close after a history.

Main results:

* `Gate.Crowd.holdsClose_iff` — a thread holds the close if it is the closer and does not drain;
* `Gate.Crowd.close_excludes_others` — **mutual exclusion**.
-/

import ReentrantGate.Proofs.Gate.Ledger

set_option relaxedAutoImplicit false
set_option autoImplicit false

namespace ReentrantGate.Gate

/-- A thread holds the close if it was granted more closes than it took back.  A close counts from
the segment that grants it, whether or not the sink then fails on the record. -/
def HoldsClose (history : List Occurrence) (t : ThreadId) : Prop := 0 < balance .close t history

instance (history : List Occurrence) (t : ThreadId) : Decidable (HoldsClose history t) :=
  inferInstanceAs (Decidable (_ < _))

namespace Crowd

variable {c c' : Crowd} {as : List Action} {history : List Occurrence} {t : ThreadId}

/-- **A thread holds the close exactly if it is the closer and has stopped draining.** -/
theorem holdsClose_iff (h : run {} as = some (c, history)) :
    HoldsClose history t ↔ c.gate.closer = some t ∧ c.drains t = false := by
  have hs := (run_orderly h).sound
  rw [HoldsClose, ← closeDepth_eq_balance h]
  constructor
  · intro hpos
    exact closeDepth_pos (Int.natCast_pos.1 hpos)
  · intro hc
    have hpos := hs.closed_pos hc.1
    simpa [closeDepth, Gate.closeDepth, hc] using hpos

/-- **Mutual exclusion.**  After any run in which thread `t` holds the close, every other thread is
outside, nobody else holds or has claimed the close or drains, and no segment of another thread that
can come next is granted an entry or a close; `t` itself may enter. -/
theorem close_excludes_others (h : run {} as = some (c, history)) (ht : HoldsClose history t) :
    (∀ u, u ≠ t → c.gate.depth u = 0) ∧ c.gate.foreign = 0 ∧
      c.gate.closer = some t ∧
      (∀ u, u ≠ t → ¬HoldsClose history u ∧ c.gate.isCloser u = false) ∧
      (∀ u, c.drains u = false) ∧
      (∀ a c' o, c.act a = some (c', some o) → o.thread ≠ t → o.verdict ≠ .granted) ∧
      c.gate.admits t = true := by
  have ho := run_orderly h
  obtain ⟨hc, hd⟩ := (holdsClose_iff h).1 ht
  have hf : c.gate.foreign = 0 := run_settled h t hc hd
  have hout := (ho.sound.foreign_eq_zero_iff hc).1 hf
  have hother : ∀ u, u ≠ t → c.gate.closer ≠ some u := by
    intro u hu
    rw [hc]
    simpa using hu.symm
  refine ⟨hout, hf, hc, fun u hu => ⟨fun hh => ?_, ?_⟩, fun u => ?_, ?_, ?_⟩
  · exact hother u hu ((holdsClose_iff h).1 hh).1
  · rw [Bool.eq_false_iff, ne_eq, ho.sound.isCloser_iff]
    exact hother u hu
  · by_cases hu : u = t
    · exact hu ▸ hd
    · rw [Bool.eq_false_iff]
      exact fun hdu => hother u hu (ho.closer_of_drains hdu).1
  · -- whoever acts next and is not `t` is outside, and a thread outside is granted nothing
    intro a c' o ha hot
    obtain ⟨-, d, room, m⟩ := act_occurrence ho ha
    have hverdict := (m.of_outside hc hot.symm (hout _ hot)).2
    exact fun hgranted => hverdict (congrArg some hgranted)
  · simp [admits, ho.sound.isCloser_iff.2 hc]

/-- A thread with an entry of its own closes twice, both times with a sink that fails, while another
thread waits to enter and is woken in vain. -/
theorem close_excludes_others_of_failing_sink :
    let c : Crowd :=
      ⟨⟨1, 2, some ⟨"a"⟩, [(⟨"a"⟩, 1)]⟩, [⟨⟨"b"⟩, .entry .infinite none⟩], [], 0⟩
    let history : List Occurrence :=
      [⟨⟨"a"⟩, .entry, .granted, none, false⟩, ⟨⟨"a"⟩, .close, .granted, some (.closed 1), true⟩,
        ⟨⟨"a"⟩, .close, .granted, some (.nested 2), true⟩]
    run {} [.call ⟨"a"⟩ (.enter .infinite) false, .call ⟨"a"⟩ (.close .infinite) true,
      .call ⟨"b"⟩ (.enter .infinite) false, .call ⟨"a"⟩ (.close .infinite) true,
      .rouse ⟨"b"⟩, .resume ⟨"b"⟩ false] = some (c, history) ∧
    HoldsClose history ⟨"a"⟩ ∧ ∀ u, u ≠ ⟨"a"⟩ → c.gate.depth u = 0 := by
  intro c history
  refine (fun h => ⟨h, ?_, (close_excludes_others h ?_).1⟩) rfl
  all_goals decide

end Crowd

end ReentrantGate.Gate
