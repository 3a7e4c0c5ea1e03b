/-
**Durations make safe deadlines.**

A duration has 64 bits of seconds, and as many milliseconds fit in 64 bits as make a timeout.  So a
duration may be cut short on its way to a deadline, first by the product and then by the sum, and it
loses what is beyond its last whole millisecond.  It is never made longer.  Where the clock has room
for the longest timeout, every duration has a deadline, and a call of a gate cannot fail for the
want of one.  A wait for an event does not go by timeouts: it adds the duration to the clock as it
is.

Main definitions:

* `Script.Segment.Overflows` — a call panics because its deadline does not exist.

Main results:

* `Timeout.ofDuration_eq` — **both stops together are one**;
* `Words.toNat_millis` — words are enough to compute it;
* `Timeout.exists_deadline` — **the deadline of a duration** lies within the duration, and less than
  a millisecond before its end unless that has been cut;
* `Script.Task.not_overflows_of_hold`, `Script.Task.overflows_waitFor_iff` — what panics;
* `Script.durations_make_safe_deadlines` — all of this at a clock with room for every timeout.
-/

import ReentrantGate.Proofs.Script.Rulings

set_option relaxedAutoImplicit false
set_option autoImplicit false

namespace ReentrantGate

/-! ### Milliseconds -/

/-- The whole milliseconds of a duration. -/
theorem Duration.toNanos_div (d : Duration) :
    d.toNanos / 1000000 = d.secs * 1000 + d.nanos / 1000000 := by
  unfold toNanos
  omega

/-- **The two stops are one**: a product that is stopped stays at the largest word when anything is
added. -/
theorem Timeout.ofDuration_eq (d : Duration) :
    ofDuration d = .millis (min maxWord (d.toNanos / 1000000)) := by
  rw [ofDuration, d.toNanos_div]
  congr 1
  omega

/-! ### Words -/

namespace Words

theorem toNat_maxWord : (UInt64.ofNat maxWord).toNat = maxWord := rfl

/-- What `n` is as a word: `word`, as long as that is right, and then the largest one. -/
theorem toNat_stopped {n : Nat} {word : UInt64} (h : n < UInt64.size → word.toNat = n) :
    (if n ≤ maxWord then word else .ofNat maxWord).toNat = min maxWord n := by
  split
  · rename_i hle
    rw [h (Nat.lt_of_le_of_lt hle (by decide)), Nat.min_eq_right hle]
  · rw [toNat_maxWord]
    omega

theorem toNat_mul (a b : UInt64) : (mul a b).toNat = min maxWord (a.toNat * b.toNat) :=
  toNat_stopped fun h => (UInt64.toNat_mul a b).trans (Nat.mod_eq_of_lt h)

theorem toNat_add (a b : UInt64) : (add a b).toNat = min maxWord (a.toNat + b.toNat) :=
  toNat_stopped fun h => (UInt64.toNat_add a b).trans (Nat.mod_eq_of_lt h)

/-- **Words are enough**: no step on the way from a duration to its timeout leaves them. -/
theorem toNat_millis (secs : UInt64) (nanos : UInt32) :
    Timeout.ofDuration ⟨secs.toNat, nanos.toNat⟩ = .millis (millis secs nanos).toNat := by
  rw [Timeout.ofDuration, millis, toNat_add, toNat_mul, UInt32.toNat_toUInt64, UInt32.toNat_div]
  rfl

end Words

/-! ### Deadlines -/

theorem Instant.add?_eq_none_iff {now ns : Nat} :
    Instant.add? now ns = none ↔ Instant.limit ≤ now + ns := by
  rw [Instant.add?, ite_eq_right_iff, ← Nat.not_lt]
  simp only [reduceCtorEq, imp_false]

/-- What is left of `n` nanoseconds in whole milliseconds, of which there may be `cap`. -/
theorem cut_nanos (cap n : Nat) :
    min cap (n / 1000000) * 1000000 ≤ cap * 1000000 ∧ min cap (n / 1000000) * 1000000 ≤ n ∧
      (n / 1000000 ≤ cap → n < min cap (n / 1000000) * 1000000 + 1000000) := by
  omega

/-- **The deadline of a duration**, where the clock has room for every timeout. -/
theorem Timeout.exists_deadline {now : Nat} (h : now + maxWord * 1000000 < Instant.limit)
    (d : Duration) :
    ∃ deadline, (ofDuration d).deadline? now = some (some deadline) ∧
      now ≤ deadline ∧ deadline ≤ now + d.toNanos ∧
      (d.toNanos / 1000000 ≤ maxWord → now + d.toNanos < deadline + 1000000) := by
  obtain ⟨hcap, hle, hlt⟩ := cut_nanos maxWord d.toNanos
  have hroom := Nat.lt_of_le_of_lt (Nat.add_le_add_left hcap now) h
  refine ⟨now + min maxWord (d.toNanos / 1000000) * 1000000, ?_, Nat.le_add_right .., ?_, ?_⟩
  · rw [ofDuration_eq, deadline?, Instant.add?, if_pos hroom]
    rfl
  · exact Nat.add_le_add_left hle now
  · intro hfits
    rw [Nat.add_assoc]
    exact Nat.add_lt_add_left (hlt hfits) now

namespace Script

/-! ### Panics -/

/-- The call `c` of `t` panics because its deadline does not exist. -/
def Segment.Overflows (t : ThreadId) (c : Call) (w : World) : Segment → Prop
  | .park .. => False
  | .done w' _ _ => w.Reports w' t c (.panicked .instantOverflow)

namespace Task

variable {t : ThreadId} {c : Call} {w w' : World} {hold : Hold} {timeout : Timeout}
  {deadline : Deadline} {wait : Wait} {ns : List Notice} {r : Result} {d : Duration}

theorem not_overflows_finish (h : w'.Notes w) (hr : r ≠ .panicked .instantOverflow) :
    ¬(finish t c r ns w').Overflows t c w :=
  fun hreports => hr ((reports_of_notes h r).inj hreports)

/-- Only an overflow is reported as one. -/
theorem not_overflows_conclude {verdict : Gate.Verdict} (hv : verdict ≠ .overflowed)
    (h : w'.Notes w) : ¬(conclude t c verdict ns w').Overflows t c w := by
  unfold conclude
  split
  · exact fun hr => hr.not_notes h
  · split
    · exact not_overflows_finish h (by simp)
    · exact fun hr => hr.not_notes h
  · refine not_overflows_finish h ?_
    cases verdict with
    | overflowed => exact absurd rfl hv
    | _ => simp [ofVerdict]

theorem not_overflows_atGate {i : Nat} {segment : Gate → Gate.Segment}
    (hs : ∀ g, (segment g).verdict? ≠ some .overflowed) :
    ¬(atGate t c i segment (conclude t c) w).Overflows t c w := by
  unfold atGate
  split
  · exact not_overflows_finish (World.notes_of_eq rfl) (by simp)
  · rename_i g _
    split
    · exact id
    · rename_i g' room note verdict hdone
      have hnotes := World.notes_emit (w.setGate i g') note
      have hv : verdict ≠ .overflowed := by
        rintro rfl
        exact hs g (by rw [hdone]; rfl)
      split
      · rename_i hx
        rw [hx] at hnotes
        exact not_overflows_finish hnotes (by simp)
      · rename_i hx
        rw [hx] at hnotes
        exact not_overflows_conclude hv hnotes

/-- **A call of a gate does not panic for its deadline** if that exists. -/
theorem not_overflows_of_hold (hwant : c.want? = some (.hold hold timeout))
    (hd : timeout.deadline? w.clock = some deadline) :
    ¬(attempt t (.start c) w).Overflows t c w := by
  rw [attempt_of_hold hwant]
  refine not_overflows_atGate fun g hv => ?_
  have htimeout : (acquisition timeout hold).timeout? = some timeout := by cases hold <;> rfl
  rcases Gate.verdict_begin htimeout hv with h | h | ⟨-, h⟩
  · cases h
  · cases h
  · rw [hd] at h
    cases h

/-- A look at an event reports no overflow. -/
theorem not_overflows_atEvent {i : Nat} : ¬(atEvent t c i deadline w).Overflows t c w := by
  unfold atEvent
  split
  · exact not_overflows_finish (World.notes_of_eq rfl) (by simp)
  · split
    · exact id
    · refine not_overflows_finish (World.notes_of_eq rfl) ?_
      unfold ofWait
      split <;> simp

/-- **A call that was parked has its deadline.** -/
theorem not_overflows_of_resume : ¬(attempt t (.resume c wait) w).Overflows t c w := by
  cases wait with
  | gate i waiting =>
      refine not_overflows_atGate fun g hv => ?_
      rcases Gate.verdict_resume hv with h | h <;> cases h
  | event i deadline => exact not_overflows_atEvent

/-- The first segment of a wait for an event that exists. -/
theorem attempt_waitFor {site : Site} (hsite : site.event < w.events.length) :
    attempt t (.start (.single site (.waitFor d))) w =
      match Instant.add? w.clock d.toNanos with
      | none => finish t (.single site (.waitFor d)) (.panicked .instantOverflow) [] w
      | some deadline => atEvent t (.single site (.waitFor d)) site.event (some deadline) w :=
  if_pos hsite

/-- **A wait for an event panics** exactly if the clock cannot hold the sum. -/
theorem overflows_waitFor_iff {site : Site} (hsite : site.event < w.events.length) :
    (attempt t (.start (.single site (.waitFor d))) w).Overflows t (.single site (.waitFor d)) w ↔
      Instant.limit ≤ w.clock + d.toNanos := by
  rw [attempt_waitFor hsite]
  cases hadd : Instant.add? w.clock d.toNanos with
  | none =>
      refine iff_of_true (reports_of_notes (World.notes_of_eq rfl) _) ?_
      exact Instant.add?_eq_none_iff.1 hadd
  | some deadline =>
      refine iff_of_false not_overflows_atEvent fun hle => ?_
      rw [Instant.add?_eq_none_iff.2 hle] at hadd
      cases hadd

end Task

/-! ### All together -/

/-- **Durations make safe deadlines.**  At a clock with room for the longest timeout, for every
duration `d`:

* as a timeout it has its whole milliseconds, or the largest word if they are more, words are enough
  to compute that, and a longer duration makes no shorter timeout;
* its deadline exists and lies between now and the end of `d`, less than a millisecond before that
  end unless the milliseconds were more than the largest word;
* no call that wants a hold of a gate with this timeout panics for its deadline, neither at its
  start nor later on;
* a wait for an event with `d` itself panics, at any clock, exactly if the end of `d` is no instant.
-/
theorem durations_make_safe_deadlines {now : Nat} (h : now + maxWord * 1000000 < Instant.limit)
    (d : Duration) :
    Timeout.ofDuration d = .millis (min maxWord (d.toNanos / 1000000)) ∧
      (∀ (secs : UInt64) (nanos : UInt32),
        Timeout.ofDuration ⟨secs.toNat, nanos.toNat⟩ = .millis (Words.millis secs nanos).toNat) ∧
      (∀ d' : Duration, d.toNanos ≤ d'.toNanos → ∃ ms ms', Timeout.ofDuration d = .millis ms ∧
        Timeout.ofDuration d' = .millis ms' ∧ ms ≤ ms') ∧
      (∃ deadline, (Timeout.ofDuration d).deadline? now = some (some deadline) ∧
        now ≤ deadline ∧ deadline ≤ now + d.toNanos ∧
        (d.toNanos / 1000000 ≤ maxWord → now + d.toNanos < deadline + 1000000)) ∧
      (∀ (t : ThreadId) (c : Call) (hold : Hold) (w : World), w.clock = now →
        c.want? = some (.hold hold (.ofDuration d)) →
        ¬(Task.attempt t (.start c) w).Overflows t c w) ∧
      (∀ (t : ThreadId) (c : Call) (wait : Wait) (w : World),
        ¬(Task.attempt t (.resume c wait) w).Overflows t c w) ∧
      ∀ (t : ThreadId) (site : Site) (w : World), site.event < w.events.length →
        ((Task.attempt t (.start (.single site (.waitFor d))) w).Overflows t
          (.single site (.waitFor d)) w ↔ Instant.limit ≤ w.clock + d.toNanos) := by
  have hdeadline := Timeout.exists_deadline h d
  refine ⟨Timeout.ofDuration_eq d, Words.toNat_millis, ?_, hdeadline, ?_,
    fun _ _ _ _ => Task.not_overflows_of_resume,
    fun _ _ _ hsite => Task.overflows_waitFor_iff hsite⟩
  · intro d' hle
    refine ⟨_, _, Timeout.ofDuration_eq d, Timeout.ofDuration_eq d', ?_⟩
    have hms := Nat.div_le_div_right (c := 1000000) hle
    omega
  · rintro t c hold w rfl hwant
    obtain ⟨deadline, hd, -⟩ := hdeadline
    exact Task.not_overflows_of_hold hwant hd

/-- At the last clock that has room for it the longest duration makes the last instant the deadline
of a close, and a wait for an event panics. -/
theorem durations_make_safe_deadlines_of_longest :
    let d : Duration := ⟨maxWord, 999999999⟩
    let w : World := { World.fresh 1 1 false with clock := 9204925292781066256384999999 }
    let close : Call := .single {} (.closeFor (.ofDuration d))
    let wait : Call := .single {} (.waitFor d)
    w.clock + maxWord * 1000000 < Instant.limit ∧
      (Timeout.ofDuration d).deadline? w.clock = some (some (Instant.limit - 1)) ∧
      Instant.limit - 1 ≤ w.clock + d.toNanos ∧
      ¬(Task.attempt ⟨"a"⟩ (.start close) w).Overflows ⟨"a"⟩ close w ∧
      (Task.attempt ⟨"a"⟩ (.start wait) w).Overflows ⟨"a"⟩ wait w := by
  intro d w close wait
  have hroom : w.clock + maxWord * 1000000 < Instant.limit := by decide
  have hdeadline : (Timeout.ofDuration d).deadline? w.clock = some (some (Instant.limit - 1)) := by
    decide
  have hpanics : Instant.limit ≤ w.clock + d.toNanos := by decide
  have hexists : (Site.mk 0 0 0).event < w.events.length := by decide
  obtain ⟨-, -, -, ⟨deadline, hd, -, hle, -⟩, hgate, -, hevent⟩ :=
    durations_make_safe_deadlines hroom d
  obtain rfl : Instant.limit - 1 = deadline := by
    rw [hdeadline] at hd
    exact Option.some.inj (Option.some.inj hd)
  -- the clock has been computed with, and is only in the way of unification from here on
  clear_value w
  exact ⟨hroom, hdeadline, hle, hgate ⟨"a"⟩ close .close w rfl rfl,
    (hevent ⟨"a"⟩ {} w hexists).2 hpanics⟩

end Script

end ReentrantGate
