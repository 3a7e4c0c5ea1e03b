/-
**A zero timeout is an atomic try.**

There is no separate path for a call that must not wait: an attempt with a zero timeout goes through
the same waits as any other, with a deadline that has come already.  A close even claims the gate
and takes the claim back, and it wakes a whole room doing so.  Nevertheless nothing of this can be
seen.  Whoever is parked in that room waits for a closer to go, and there was no closer when the
attempt began; so the room was empty.

Main results:

* `Gate.begin_enter_zero`, `Gate.begin_close_zero` — the segments of attempts with a zero timeout;
* `Gate.Crowd.Orderly.wake_opened` — waking the threads that wait for a closer to go has no effect
  if there was none;
* `Gate.Crowd.zero_timeout_is_atomic_try` — **a zero timeout is an atomic try**.
-/

import ReentrantGate.Proofs.Gate.Conduct
import ReentrantGate.Proofs.Gate.Exclusion
import ReentrantGate.Proofs.Gate.Wakeups

set_option relaxedAutoImplicit false
set_option autoImplicit false

namespace ReentrantGate.Gate

variable {g : Gate} {t : ThreadId} {now : Nat}

/-! ### Segments -/

/-- The deadline of an attempt with a zero timeout has come as soon as it is computed. -/
theorem deadline?_zero (h : now < Instant.limit) :
    (Timeout.millis 0).deadline? now = some (some now) := by
  simp [Timeout.deadline?, Instant.add?, h]

/-- At a deadline that has come a look decides. -/
theorem look_now (holds : Bool) :
    look holds (some now) now = if holds then .ready else .expired := by
  simp [look]

/-- **The segment of an entry with a zero timeout.** -/
theorem begin_enter_zero (h : g.Sound) (hnow : now < Instant.limit) :
    begin t now (.enter (.millis 0)) g =
      if g.closer = none ∨ g.closer = some t ∨ 0 < g.depth t then
        .done (g.raise t) none none .granted
      else .done g none (some (.entryTimedOut (.millis 0))) .timedOut := by
  simp only [begin, enter]
  split
  · rename_i ha
    rw [if_pos (h.admits_iff.1 ha)]
  · rename_i ha
    rw [h.admits_iff] at ha
    have hn : g.closer.isNone = false := by
      rw [Bool.eq_false_iff, ne_eq, Option.isNone_iff_eq_none]
      exact fun hn => ha (.inl hn)
    rw [if_neg ha, deadline?_zero hnow]
    simp only [awaitEntry, look_now, hn, Bool.false_eq_true, if_false]

/-- **The segment of a close with a zero timeout.** -/
theorem begin_close_zero (h : g.Sound) (hnow : now < Instant.limit) :
    begin t now (.close (.millis 0)) g =
      if g.closer = some t then .done g.nest none (some (.nested g.nest.closed)) .granted
      else if g.closer = none then
        if (g.claim t).foreign = 0 then
          .done (g.claim t) none (some (.closed (g.depth t))) .granted
        else .done g (some .opened) (some (.rolledBack g.entered)) .timedOut
      else .done g none (some .exclusivityTimedOut) .timedOut := by
  simp only [begin, close]
  by_cases hc : g.closer = some t
  · rw [if_pos (h.isCloser_iff.2 hc), if_pos hc]
  · rw [if_neg (by rwa [h.isCloser_iff]), if_neg hc, deadline?_zero hnow]
    simp only [awaitExclusivity, look_now]
    cases hn : g.closer with
    | some u => simp
    | none =>
        -- the claim is made, and taken back if somebody else is inside
        have hf : g.foreign = g.entered := by simp [foreign, hn]
        by_cases hz : (g.claim t).foreign = 0
        · simp only [Option.isNone_none, if_true, awaitDrain, look_now, hz, decide_true]
          rfl
        · simp only [Option.isNone_none, if_true, awaitDrain, look_now, hz, decide_false,
            Bool.false_eq_true, if_false, h.unclaim_claim hn, hf]

namespace Crowd

variable {c : Crowd} {as : List Action} {history : List Occurrence}

/-! ### Waking an empty room -/

/-- Nobody waits for a closer to go if there is none. -/
theorem Orderly.room_ne_opened (h : c.Orderly) (hc : c.gate.closer = none) :
    ∀ v ∈ c.parked, v.waiting.room ≠ .opened := by
  intro v hv hroom
  obtain ⟨u, -, hu⟩ := h.exists_closer hv hroom
  simp [hc] at hu

/-- **Waking those who wait for a closer to go has no effect if there was none.** -/
theorem Orderly.wake_opened (h : c.Orderly) (hc : c.gate.closer = none) :
    c.wake .opened = c := by
  have hroom := h.room_ne_opened hc
  have hstay : c.parked.filter (fun v => Room.opened ≠ v.waiting.room) = c.parked := by
    refine List.filter_eq_self.2 fun v hv => ?_
    simpa using (hroom v hv).symm
  have hwake : c.parked.filter (fun v => Room.opened = v.waiting.room) = [] := by
    refine List.filter_eq_nil_iff.2 fun v hv => ?_
    simpa using (hroom v hv).symm
  rw [wake, hstay, hwake, List.append_nil]

/-- A call whose first segment is its last is over at once. -/
theorem act_of_done {g : Gate} {room : Option Room} {note : Option Note} {verdict : Verdict}
    {r : Request} (ht : c.idle t = true) (hs : begin t c.clock r c.gate = .done g room note verdict)
    (sinkFails : Bool) :
    c.act (.call t r sinkFails) = some (c.absorb t (.done g room note verdict),
      some ⟨t, r.hold, verdict, note, sinkFails && note.isSome⟩) := by
  rw [act, if_pos ht, hs]
  rfl

/-- **A zero timeout is an atomic try.**  After any run, at an instant that the clock can show, for
a thread `t` that is not in the middle of a call, and whether or not the sink fails:

* an entry is granted if there is no closer, or `t` is the closer or has an entry, and then the
  entries of `t` are one more; else it fails, and the whole crowd is as before;
* a close is granted if `t` holds the close, which is then one deeper, or if there is no closer and
  no other thread has an entry, and then `t` has claimed the gate; else it fails, and the whole
  crowd is as before. -/
theorem zero_timeout_is_atomic_try (h : run {} as = some (c, history)) (ht : c.idle t = true)
    (hclock : c.clock < Instant.limit) (sinkFails : Bool) :
    let entry := c.act (.call t (.enter (.millis 0)) sinkFails)
    let close := c.act (.call t (.close (.millis 0)) sinkFails)
    let inside := c.gate.closer = none ∨ c.gate.closer = some t ∨ 0 < c.gate.depth t
    let clear := c.gate.closer = none ∧ ∀ u, u ≠ t → c.gate.depth u = 0
    (inside → entry = some (
      { c with gate := { c.gate with
          entered := c.gate.entered + 1
          depths := c.gate.depths.raise t } },
      some ⟨t, .entry, .granted, none, false⟩)) ∧
    (∀ u, (c.gate.depths.raise t).of u = if t = u then c.gate.depth u + 1 else c.gate.depth u) ∧
    (¬inside → entry =
      some (c, some ⟨t, .entry, .timedOut, some (.entryTimedOut (.millis 0)), sinkFails⟩)) ∧
    (HoldsClose history t → close = some (
      { c with gate := { c.gate with closed := c.gate.closed + 1 } },
      some ⟨t, .close, .granted, some (.nested (c.gate.closed + 1)), sinkFails⟩)) ∧
    (clear → close = some (
      { c with gate := { c.gate with closer := some t, closed := 1 } },
      some ⟨t, .close, .granted, some (.closed (c.gate.depth t)), sinkFails⟩)) ∧
    (¬HoldsClose history t → ¬clear → close = some (c,
      some ⟨t, .close, .timedOut, some (if c.gate.closer = none then .rolledBack c.gate.entered
        else .exclusivityTimedOut), sinkFails⟩)) := by
  have ho := run_orderly h
  intro entry close inside clear
  have hholds : HoldsClose history t ↔ c.gate.closer = some t := by
    rw [holdsClose_iff h, and_iff_left]
    exact drains_eq_false (idle_iff.1 ht)
  have hclear : clear ↔ c.gate.closer = none ∧ (c.gate.claim t).foreign = 0 := by
    rw [(ho.sound.claim t).foreign_eq_zero_iff rfl]
    rfl
  have henter := begin_enter_zero (t := t) ho.sound hclock
  have hclose := begin_close_zero (t := t) ho.sound hclock
  rw [hholds, hclear]
  refine ⟨fun hin => ?_, fun u => Depths.of_raise t u c.gate.depths, fun hout => ?_, fun hc => ?_,
    fun hc => ?_, fun hc hn => ?_⟩
  · rw [if_pos hin] at henter
    refine (act_of_done ht henter sinkFails).trans ?_
    rw [absorb_quiet, Option.isSome_none, Bool.and_false]
    rfl
  · rw [if_neg hout] at henter
    refine (act_of_done ht henter sinkFails).trans ?_
    rw [absorb_quiet, Option.isSome_some, Bool.and_true]
    rfl
  · rw [if_pos hc] at hclose
    refine (act_of_done ht hclose sinkFails).trans ?_
    rw [absorb_quiet, Option.isSome_some, Bool.and_true]
    rfl
  · rw [if_neg (by simp [hc.1]), if_pos hc.1, if_pos hc.2] at hclose
    refine (act_of_done ht hclose sinkFails).trans ?_
    rw [absorb_quiet, Option.isSome_some, Bool.and_true]
    rfl
  · rw [if_neg hc] at hclose
    by_cases hnone : c.gate.closer = none
    · -- the claim and its rollback wake a room in which nobody is
      rw [if_pos hnone, if_neg fun hf => hn ⟨hnone, hf⟩] at hclose
      refine (act_of_done ht hclose sinkFails).trans ?_
      rw [absorb_waking, Option.isSome_some, Bool.and_true, if_pos hnone]
      exact congrArg (fun c => some (c, _)) (ho.wake_opened hnone)
    · rw [if_neg hnone] at hclose
      refine (act_of_done ht hclose sinkFails).trans ?_
      rw [absorb_quiet, Option.isSome_some, Bool.and_true, if_neg hnone]
      rfl

/-- A close has been opened again, so a thread that waited for that has been woken; before it has
the lock another thread enters, and a third one tries to close. -/
theorem zero_timeout_is_atomic_try_of_entry :
    let c : Crowd :=
      ⟨⟨1, 0, none, [(⟨"a"⟩, 1)]⟩, [], [⟨⟨"c"⟩, .entry .infinite none⟩], 7⟩
    let history : List Occurrence :=
      [⟨⟨"b"⟩, .close, .granted, some (.closed 0), false⟩,
        ⟨⟨"b"⟩, .close, .released, some .opened, false⟩, ⟨⟨"a"⟩, .entry, .granted, none, false⟩]
    run {} [.call ⟨"b"⟩ (.close .infinite) false, .call ⟨"c"⟩ (.enter .infinite) false,
      .call ⟨"b"⟩ .reopen false, .call ⟨"a"⟩ (.enter .infinite) false, .tick 7] =
        some (c, history) ∧
      c.idle ⟨"b"⟩ = true ∧ c.clock < Instant.limit ∧
      c.act (.call ⟨"b"⟩ (.close (.millis 0)) true) =
        some (c, some ⟨⟨"b"⟩, .close, .timedOut, some (.rolledBack 1), true⟩) := by
  intro c history
  have hidle : c.idle ⟨"b"⟩ = true := by decide
  have hclock : c.clock < Instant.limit := by decide
  refine (fun h => ⟨h, hidle, hclock, ?_⟩) rfl
  have hrun : run {} _ = some (c, history) := h
  refine (zero_timeout_is_atomic_try hrun hidle hclock true).2.2.2.2.2 (by decide) fun hclear => ?_
  have hout := hclear.2 ⟨"a"⟩ (by decide)
  exact absurd hout (by decide)

end Crowd

end ReentrantGate.Gate
