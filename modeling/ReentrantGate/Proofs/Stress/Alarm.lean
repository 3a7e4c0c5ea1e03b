/-
**A stress run raises no false alarm.**

The run counts an overlap when a worker that has the close finds an enterer inside, and a violation
when an entry or an exit is refused that must not be.  Both stay at zero, under any settings,
draws, timing, interrupts and deaths of workers: a worker that checks has the gate to itself, and
whoever is inside is admitted again and let go.  So a run that reports one of the two has found a
broken gate.

Main results:

* `Stress.Worker.Moves.alarms` — only a worker that has the close can raise an alarm;
* `Stress.Arena.no_false_alarm` — **no alarm is raised**.
-/

import ReentrantGate.Proofs.Stress.Crew

set_option relaxedAutoImplicit false
set_option autoImplicit false

namespace ReentrantGate.Stress

/-! ### Alarms -/

/-- A check that finds nobody inside changes nothing. -/
theorem Shared.check_eq {s : Shared} (h : s.inside = 0) : s.check = s := if_pos h

/-- **A move raises no alarm**, if nobody is inside while the worker has the close. -/
theorem Worker.Moves.alarms {p : Plan} {s s' : Shared} {w w' : Worker} (m : w.Moves p s s' w')
    (h : 0 < w.stage.closes → s.inside = 0) :
    s'.tally.overlaps = s.tally.overlaps ∧ s'.tally.violations = s.tally.violations := by
  cases m with
  | check hs =>
      rw [Shared.check_eq (h (by rw [hs]; exact Nat.one_pos))]
      exact ⟨rfl, rfl⟩
  | recheck hs =>
      rw [Shared.check_eq (h (by rw [hs]; exact Nat.one_pos))]
      exact ⟨rfl, rfl⟩
  | _ => exact ⟨rfl, rfl⟩

namespace Arena

variable {p : Plan} {a b : Arena} {s : Settings}

/-- What can happen next raises no alarm. -/
theorem Manned.alarms (h : a.Manned p) (hs : Step p a b) :
    b.shared.tally.overlaps = a.shared.tally.overlaps ∧
      b.shared.tally.violations = a.shared.tally.violations := by
  cases hs with
  | worker hws m =>
      refine m.alarms fun hc => h.inside_eq_zero ?_ hc
      rw [hws]
      simp
  | disturb _ _ _ => exact ⟨rfl, rfl⟩
  | interrupt => exact ⟨rfl, rfl⟩
  | start _ => exact ⟨rfl, rfl⟩
  | wake _ _ => exact ⟨rfl, rfl⟩

/-- **No run has raised an alarm.** -/
theorem Reachable.alarms (h : Reachable s p a) :
    a.shared.tally.overlaps = 0 ∧ a.shared.tally.violations = 0 := by
  induction h with
  | start => exact ⟨rfl, rfl⟩
  | act hr ha ih =>
      have hm := hr.manned
      obtain ⟨ho, hv⟩ := hm.alarms (hm.act_step ha)
      exact ⟨ho.trans ih.1, hv.trans ih.2⟩

/-- **No false alarm.**  At every moment of every run, under any settings: enterers are counted
inside only while the thread of an enterer is inside the gate; a worker that has closed the gate and
comes to one of its checks finds nobody; an enterer that asks for a further entry is granted it in
that same step, and goes on if it can count it; an enterer that gives an entry back is not refused;
and so neither an overlap nor a violation has been counted. -/
theorem no_false_alarm (h : Reachable s p a) :
    (0 < a.shared.inside →
      ∃ w ∈ a.workers, w.closer = false ∧ 0 < a.shared.crowd.gate.depth w.thread) ∧
    (∀ w ∈ a.workers, w.stage = .checking ∨ w.stage = .rechecking → a.shared.inside = 0) ∧
    (∀ w ∈ a.workers, ∀ more held, w.stage = .nesting (more + 1) held →
      ∃ c' o, a.shared.crowd.act (.call w.thread (.enter p.timeout) false) = some (c', some o) ∧
        o.verdict = .granted ∧ ∀ draw, w.step p draw a.shared =
          .moved (a.shared.withOccurrence c' (some o)) (w.goto (.nested more held))) ∧
    (∀ w ∈ a.workers, ∀ held, w.stage = .exiting (held + 1) →
      ∃ c' o, a.shared.crowd.act (.call w.thread .exit false) = some (c', some o) ∧
        o.verdict = .released ∧ ∀ draw, w.step p draw a.shared =
          .moved (a.shared.withOccurrence c' (some o)) (w.goto (.exiting held))) ∧
    a.shared.tally.overlaps = 0 ∧ a.shared.tally.violations = 0 := by
  have hm := h.manned
  refine ⟨hm.exists_inside, fun w hw hs => hm.inside_eq_zero hw ?_, fun w hw more held hs => ?_,
    fun w hw held hs => ?_, h.alarms⟩
  · rcases hs with hs | hs
    · rw [hs]
      exact Nat.one_pos
    · rw [hs]
      exact Nat.one_pos
  · exact (hm.fits w hw).step_nesting hs
  · exact (hm.fits w hw).step_exiting hs

/-- A closer has claimed the gate and drains behind an enterer, which has one entry and asks for a
second. -/
theorem no_false_alarm_of_drain :
    let enterer : ThreadId := ⟨"enterer 0"⟩
    let closer : ThreadId := ⟨"closer 0"⟩
    let s : Settings :=
      { enterers := 1, closers := 1, iterations := 10, depth := 2, timeout := -1, spins := 0 }
    let p : Plan := ⟨2, 0, .infinite⟩
    let w : Worker := ⟨enterer, false, 9, .nesting 1 1⟩
    let a : Arena :=
      { shared := {
          crowd := ⟨⟨1, 1, some closer, [(enterer, 1)]⟩, [⟨closer, .drain none⟩], [], 0⟩
          inside := 1
          handles := 3 }
        workers := [w, ⟨closer, true, 0, .closing⟩] }
    plan? s = some p ∧ Reachable s p a ∧ 0 < a.shared.inside ∧
      (∃ c' o, a.shared.crowd.act (.call enterer (.enter .infinite) false) = some (c', some o) ∧
        o.verdict = .granted) ∧
      a.shared.tally.overlaps = 0 ∧ a.shared.tally.violations = 0 := by
  intro enterer closer s p w a
  have hr : Reachable s p a := .of_run .start
    [.worker 0 1, .worker 1 0, .worker 0 0, .worker 0 0, .worker 1 0] (by decide)
  obtain ⟨-, -, hnest, -, halarms⟩ := no_false_alarm hr
  obtain ⟨c', o, ha, hv, -⟩ := hnest w (List.mem_cons_self ..) 0 1 rfl
  exact ⟨rfl, hr, Nat.one_pos, ⟨c', o, ha, hv⟩, halarms⟩

end Arena

end ReentrantGate.Stress
