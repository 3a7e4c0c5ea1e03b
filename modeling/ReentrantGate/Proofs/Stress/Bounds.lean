/-
**Settings that kill workers.**

Every accepted setting is safe unless it is the largest word, which leaves a draw without a bound,
or a depth that an enterer cannot count.  With such a setting some run lets a worker die: an enterer
outside the gate, or inside, where it leaves its entries for ever, and a closer after it has opened
the gate.

Main results:

* `Stress.Arena.exists_dying_inside` — **some run lets an enterer die inside**;
* `Stress.Arena.exists_dying_of_not_bounded` — **some run lets a worker die** unless the settings
  are bounded;
* `Stress.Arena.nobody_dies_iff_bounded` — **nobody dies of bounded settings, and of no others**;
* `Stress.Arena.entries_left_by_largest_spins` — a run in which one dies inside.
-/

import ReentrantGate.Proofs.Stress.Deaths
import ReentrantGate.Proofs.Stress.Resolution
import ReentrantGate.Proofs.Stress.Roster

set_option relaxedAutoImplicit false
set_option autoImplicit false

namespace ReentrantGate.Stress

open Gate Relation

variable {s : Settings} {p : Plan}

/-- **The clock of a new run can hold the deadlines of all accepted timeouts.** -/
theorem Settings.Accepted.exists_deadline (h : s.Accepted p) :
    ∃ deadline, p.timeout.deadline? 0 = some deadline := by
  have hsigned : isSigned s.timeout = true := h.holds .timeout
  simp only [isSigned, Bool.and_eq_true, decide_eq_true_eq] at hsigned
  obtain ⟨timeout, htimeout, rfl⟩ := Option.map_eq_some_iff.1 h.plan
  unfold Timeout.ofMillis? at htimeout
  split at htimeout
  · cases htimeout
    exact ⟨none, rfl⟩
  · split at htimeout
    · cases htimeout
      have hlimit : 0 + s.timeout.toNat * 1000000 < Instant.limit := by
        have : Instant.limit = 9223372036854775808000000000 := by decide
        omega
      exact ⟨_, by rw [Timeout.deadline?, Instant.add?, if_pos hlimit]; rfl⟩
    · cases htimeout

namespace Arena

variable {a : Arena}

/-- The first of the enterers, which has a round to make. -/
theorem crew_enterer (hhands : 0 < s.enterers) (hrounds : 0 < s.iterations) :
    ∃ t n, (crew s)[0]? = some ⟨t, false, n + 1, .poll⟩ := by
  refine ⟨⟨"enterer " ++ toString 0⟩, s.iterations - 1, ?_⟩
  simp [crew, hhands, Nat.sub_add_cancel hrounds]

/-- The first of the closers, which has a round to make. -/
theorem crew_closer (hhands : 0 < s.closers) (hrounds : 10 ≤ s.iterations) :
    ∃ t n, (crew s)[s.enterers]? = some ⟨t, true, n + 1, .poll⟩ := by
  have hquota : 1 ≤ s.iterations / 10 := by omega
  refine ⟨⟨"closer " ++ toString 0⟩, s.iterations / 10 - 1, ?_⟩
  simp [crew, hhands, Nat.sub_add_cancel hquota]

/-- Some run begins with several steps of one worker. -/
theorem exists_of_takes {i : Nat} {w : Worker} {x : Shared × Worker} (hi : (crew s)[i]? = some w)
    (ht : ReflTransGen (Worker.Takes p) ((start s).shared, w) x) :
    ∃ a, Reachable s p a ∧ a.shared = x.1 ∧ x.2 ∈ a.workers :=
  ⟨_, Reachable.start.takes hi ht, rfl, List.mem_of_getElem? (getElem?_placed hi)⟩

/-- **Some run lets an enterer die inside**, if it can draw its depth, and cannot draw its work or
cannot count its entries. -/
theorem exists_dying_inside (hp : plan? s = some p) (hhands : 0 < s.enterers)
    (hrounds : 0 < s.iterations) (hdepth : s.depth < maxWord)
    (hno : ¬s.spins < maxWord ∨ maxHeld < s.depth) :
    ∃ a, Reachable s p a ∧ a.shared.crowd.clock = 0 ∧
      ∃ w ∈ a.workers, w.stage = .ending true ∧ 0 < a.shared.crowd.gate.depth w.thread := by
  obtain ⟨hd, hs⟩ := plan_eq hp
  obtain ⟨t, n, ht⟩ := crew_enterer hhands hrounds
  have hbdepth : hasBound p.depth = true := hd ▸ decide_eq_true hdepth
  obtain ⟨k, hk, htakes⟩ : ∃ k, 0 < k ∧ ReflTransGen (Worker.Takes p)
      ((start s).shared, ⟨t, false, n + 1, .poll⟩)
      ((Shared.enteredBy t k (s.enterers + s.closers + 1)).arrive,
        ⟨t, false, n, .ending true⟩) := by
    rcases hno with hspins | hdeep
    · exact ⟨1, Nat.one_pos, takes_collapse t n _ hbdepth (hs ▸ decide_eq_false hspins)⟩
    · exact ⟨maxHeld + 1, Nat.succ_pos _, takes_overrun t n _ hbdepth (hd ▸ hdeep)⟩
  obtain ⟨a, ha, hshared, hw⟩ := exists_of_takes ht htakes
  refine ⟨a, ha, by rw [hshared]; rfl, _, hw, rfl, ?_⟩
  rw [hshared]
  exact hk.trans_eq (Shared.depth_enteredBy t k (s.enterers + s.closers + 1)).symm

/-- **Some run lets a worker die** of its settings, unless they are bounded. -/
theorem exists_dying_of_not_bounded (h : s.Accepted p) (hno : ¬s.Bounded) :
    ∃ a, Reachable s p a ∧ a.shared.crowd.clock = 0 ∧ ∃ w ∈ a.workers, w.stage.dying = true := by
  obtain ⟨hd, hs⟩ := plan_eq h.plan
  rw [Settings.Bounded, Decidable.not_and_iff_not_or_not] at hno
  rcases hno with henterer | hcloser
  · push Not at henterer
    obtain ⟨hhands, hrounds, hbad⟩ := henterer
    by_cases hdepth : s.depth < maxWord
    · have hinside : ¬s.spins < maxWord ∨ maxHeld < s.depth := by
        by_cases hcount : s.depth ≤ maxHeld
        · exact .inl (Nat.not_lt.2 (hbad hcount))
        · exact .inr (Nat.not_le.1 hcount)
      obtain ⟨a, ha, hclock, w, hw, hstage, -⟩ :=
        exists_dying_inside h.plan hhands hrounds hdepth hinside
      exact ⟨a, ha, hclock, w, hw, by rw [hstage]; rfl⟩
    · obtain ⟨t, n, ht⟩ := crew_enterer hhands hrounds
      have hbdepth : hasBound p.depth = false := hd ▸ decide_eq_false hdepth
      obtain ⟨a, ha, hshared, hw⟩ := exists_of_takes ht (.single (takes_crash t n _ hbdepth))
      exact ⟨a, ha, by rw [hshared], _, hw, rfl⟩
  · push Not at hcloser
    obtain ⟨hhands, hrounds, hspins⟩ := hcloser
    obtain ⟨t, n, ht⟩ := crew_closer hhands hrounds
    obtain ⟨deadline, hdeadline⟩ := h.exists_deadline
    have hbspins : hasBound p.spins = false := hs ▸ decide_eq_false (Nat.not_lt.2 hspins)
    obtain ⟨a, ha, hshared, hw⟩ := exists_of_takes ht (takes_faint t n _ hdeadline hbspins)
    exact ⟨a, ha, by rw [hshared]; rfl, _, hw, rfl⟩

/-- **Nobody dies of bounded settings, and of no others.**  Let a command accept the settings.
Whatever an enterer draws, its depth lies between one and the depth of the settings, and each of
these depths can be drawn.  As long as the clock can hold the deadlines of the calls, nobody dies
in any run if and only if every draw that comes up has its bound and every entry can be counted.
Whoever dies leaves no close behind, and no entry either if spins have a bound and every entry can
be counted; otherwise, if depths have a bound and there is a round to make, some run lets an enterer
die with an entry. -/
theorem nobody_dies_iff_bounded (h : s.Accepted p) :
    (∀ draw, 1 ≤ Worker.drawDepth p draw ∧ Worker.drawDepth p draw ≤ s.depth) ∧
    (∀ depth, 1 ≤ depth → depth ≤ s.depth → ∃ draw, Worker.drawDepth p draw = depth) ∧
    ((∀ a, Reachable s p a → ∀ w ∈ a.workers, w.stage.dying = true →
      p.timeout.deadline? a.shared.crowd.clock = none) ↔ s.Bounded) ∧
    (∀ a, Reachable s p a → ∀ w ∈ a.workers, w.stage.died = true →
      a.shared.crowd.closeDepth w.thread = 0 ∧
      (s.spins < maxWord → s.depth ≤ maxHeld → a.shared.crowd.gate.depth w.thread = 0)) ∧
    (0 < s.enterers → 0 < s.iterations → s.depth < maxWord →
      ¬s.spins < maxWord ∨ maxHeld < s.depth →
      ∃ a, Reachable s p a ∧ ∃ w ∈ a.workers, w.stage.died = true ∧
        0 < a.shared.crowd.gate.depth w.thread) := by
  obtain ⟨hdepth, hspins⟩ := plan_eq h.plan
  have hpos := h.depth_pos
  refine ⟨fun draw => ?_, fun depth hone hle => ⟨depth - 1, ?_⟩, ⟨fun hnobody => ?_, ?_⟩, ?_, ?_⟩
  · unfold Worker.drawDepth
    omega
  · unfold Worker.drawDepth
    omega
  · by_contra hno
    obtain ⟨a, ha, hclock, w, hw, hdying⟩ := exists_dying_of_not_bounded h hno
    obtain ⟨deadline, hdeadline⟩ := h.exists_deadline
    have hnone := hnobody a ha w hw hdying
    rw [hclock, hdeadline] at hnone
    cases hnone
  · exact fun hbounded a ha w hw hdying => ha.deadline_of_dying h.plan hbounded hw hdying
  · intro a ha w hw hdied
    have hcloses : w.stage.closes = 0 := by
      cases hs : w.stage <;> simp_all [Stage.died, Stage.closes]
    refine ⟨(ha.manned.fits w hw).closeDepth.trans hcloses, fun hlt hle => ?_⟩
    refine ha.manned.depth_of_died hw hdied fun _ => ?_
    simp [Plan.safe, hasBound, hspins, hlt, hdepth, hle]
  · intro hhands hrounds hdepth hno
    obtain ⟨a, ha, -, w, hw, hstage, hinside⟩ :=
      exists_dying_inside h.plan hhands hrounds hdepth hno
    exact ⟨a, ha, w, hw, by rw [hstage]; rfl, hinside⟩

/-- One enterer makes one round, with the largest word as spins. -/
theorem nobody_dies_iff_bounded_at_largest_spins :
    let args := ["-e", "1", "-c", "0", "-n", "1", "-d", "1", "-t", "-1", "-s",
      "18446744073709551615"]
    let s : Settings :=
      { enterers := 1, closers := 0, iterations := 1, depth := 1, timeout := -1, spins := maxWord }
    let p : Plan := ⟨1, maxWord, .infinite⟩
    (∃ a, Arguments.split args = .ok a ∧ Settings.resolve {} a.options = s) ∧
      s.Accepted p ∧ ¬s.Bounded ∧ ∃ a, Reachable s p a ∧ ∃ w ∈ a.workers,
        w.stage.died = true ∧ 0 < a.shared.crowd.gate.depth w.thread := by
  intro args s p
  have hsplit : Arguments.split args = .ok ⟨false, none, [(.enterers, "1"), (.closers, "0"),
      (.iterations, "1"), (.depth, "1"), (.timeout, "-1"), (.spins, "18446744073709551615")]⟩ := by
    rfl
  have hresolve : Settings.resolve {} [(.enterers, "1"), (.closers, "0"), (.iterations, "1"),
      (.depth, "1"), (.timeout, "-1"), (.spins, "18446744073709551615")] = s := by
    decide +kernel
  have haccepted : s.Accepted p :=
    ⟨fun _ => none, args, _, {}, hsplit, rfl, hresolve, rfl⟩
  obtain ⟨-, -, -, -, hinside⟩ := nobody_dies_iff_bounded haccepted
  refine ⟨⟨_, hsplit, hresolve⟩, haccepted, ?_, ?_⟩
  · rw [Settings.Bounded]
    decide
  · exact hinside (by decide) (by decide) (by decide) (by decide)

/-- **With the largest word as spins a worker dies inside.**  It leaves its entry in the gate, and
the run ends with a report of that and with code one, although nobody has broken the gate. -/
theorem entries_left_by_largest_spins :
    let s : Settings :=
      { enterers := 1, closers := 0, iterations := 1, depth := 1, timeout := -1, spins := maxWord }
    let p : Plan := ⟨1, maxWord, .infinite⟩
    let w : Worker := ⟨⟨"enterer 0"⟩, false, 0, .finished true⟩
    let a : Arena :=
      { shared := { crowd := { gate := raise {} w.thread }, inside := 1, handles := 0 }
        workers := [w]
        main := .reporting }
    let r : Report := ⟨s, {}, 0, false, ⟨1, 0, 1, false⟩⟩
    s.Accepted p ∧ Reachable s p a ∧ w.stage.died = true ∧
      a.shared.crowd.gate.depth w.thread = 1 ∧ a.report? s = some r ∧
      ∀ log, (Outcome.reported log r).code? = some 1 := by
  intro s p w a r
  have haccepted : s.Accepted p :=
    ⟨fun _ => none, ["-e", "1", "-c", "0", "-n", "1", "-d", "1", "-t", "-1", "-s",
      "18446744073709551615"], _, {}, rfl, rfl, by decide +kernel, rfl⟩
  have hr : Reachable s p a := .of_run .start
    (.main :: List.replicate 6 (.worker 0 0) ++ [.main]) (by decide +kernel)
  exact ⟨haccepted, hr, rfl, rfl, by decide, fun _ => rfl⟩

end Arena

end ReentrantGate.Stress
