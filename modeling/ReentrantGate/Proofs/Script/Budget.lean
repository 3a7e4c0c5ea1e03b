/-
**A longer budget changes nothing for a call that succeeds.**

Two runs are compared, of a script and of the same script with more time for some calls.  As long as
nothing but success is reported of these calls, the second run is in the same system as the first
with the deadlines of these calls moved.  Each turn takes the same segment in both.  When the clock
moves, the next sleeper that is due is the same in both: it cannot be one of the calls that get more
time, since at rest what it waits for is not the case, so that it would have given up; and for any
other, the deadlines of these calls were not before its own and have only moved to later times.

Main definitions:

* `Script.Extension.Startable` — the deadline of a call that is about to start exists.

Main results:

* `Script.Extension.popDue_sleepers` — **whoever is due is due in both runs**;
* `Script.Extension.not_marks_of_popDue` — a call that succeeds is not woken by the clock;
* `Script.Extension.run_extend` — with more time for calls of which only success is reported, all
  steps are answered the same.
-/

import Mathlib
import ReentrantGate.Proofs.Script.Extension
import ReentrantGate.Proofs.Script.Relabel
import ReentrantGate.Proofs.Script.Reports

set_option relaxedAutoImplicit false
set_option autoImplicit false

namespace ReentrantGate.Script

namespace Extension

variable (x : Extension)

/-! ### Turns -/

/-- Whenever a call with the label is about to start, there is a deadline for the new
operation. -/
def Startable (s : System) : Prop :=
  ∀ now, s.starting? x.label = some now → (x.new.deadline? now).isSome = true

/-- The next segment is translated if its journal reports only successes. -/
theorem respects {s : System} (hd : x.Startable s)
    (hs : Succeeds x.label s.turn.world.journal) : x.translation.Respects s := by
  intro t task rest rs hr
  refine x.attempt_extend t task s.world ?_ ?_
  · rintro c rfl hm
    refine hd s.world.clock ?_
    obtain ⟨site, hl, rfl, -⟩ := eq_single_of_marks hm
    simp [System.starting?, hr, Call.site, hl]
  · have hworld := System.world_carryOut { s with runnable := rs } t task rest
    have hturn : s.turn = { s with runnable := rs }.carryOut t task rest := by
      simp only [System.turn, hr]
    rw [hturn, hworld] at hs
    exact hs

/-- So is every segment until the system comes to rest. -/
theorem respects_of_mem_turns {s : System} (hd : ∀ u ∈ s.turns, x.Startable u)
    (hs : Succeeds x.label s.settle.world.journal) :
    ∀ u ∈ s.turns, x.translation.Respects u :=
  fun u hu => x.respects (hd u hu) (hs.of_prefix (System.prefix_journal_turns hu))

/-! ### The clock -/

theorem le_of_deadline_sleeper {z : Sleeper} {d : Nat}
    (h : (x.translation.sleeper z).wait.deadline = some d) :
    ∃ a, z.wait.deadline = some a ∧ a ≤ d := by
  have hwait : (x.translation.sleeper z).wait = x.wait z.call z.wait := rfl
  cases hm : x.marks z.call with
  | false =>
      rw [hwait, wait_of_not_marks hm] at h
      exact ⟨d, h, Nat.le_refl d⟩
  | true =>
      rw [hwait, wait_of_marks hm] at h
      cases hw : z.wait with
      | event i deadline =>
          rw [hw] at h
          exact x.le_of_deadline h
      | gate i waiting =>
          rw [hw] at h
          cases waiting with
          | entry timeout deadline => exact x.le_of_deadline h
          | exclusivity deadline => exact x.le_of_deadline h
          | drain deadline => exact x.le_of_deadline h

/-- Nobody is due in the second run who is not due in the first. -/
theorem popDue_sleepers_eq_none {target : Nat} {zs : List Sleeper}
    (h : System.popDue target zs = none) :
    System.popDue target (zs.map x.translation.sleeper) = none := by
  rw [System.popDue_eq_none_iff] at h ⊢
  intro z' hz' d hd
  obtain ⟨z, hz, rfl⟩ := List.mem_map.1 hz'
  obtain ⟨a, ha, hle⟩ := x.le_of_deadline_sleeper hd
  exact Nat.lt_of_lt_of_le (h z hz a ha) hle

/-- **Whoever is due is due in both runs**, unless it gets more time. -/
theorem popDue_sleepers {target : Nat} {zs : List Sleeper} {p : System.Due}
    (h : System.popDue target zs = some p) (hm : x.marks p.sleeper.call = false) :
    System.popDue target (zs.map x.translation.sleeper) = some (x.translation.due p) := by
  rw [System.popDue_eq_some_iff] at h ⊢
  obtain ⟨before, after, rfl, hp⟩ := h
  refine ⟨before.map x.translation.sleeper, after.map x.translation.sleeper,
    by simp [Translation.due], ?_, ?_, hp.le_target, ?_, ?_⟩
  · simp [Translation.due, hp.others]
  · have hwait : (x.translation.due p).sleeper.wait = x.wait p.sleeper.call p.sleeper.wait := rfl
    rw [hwait, wait_of_not_marks hm]
    exact hp.deadline
  · intro z' hz' d hd
    obtain ⟨z, hz, rfl⟩ := List.mem_map.1 hz'
    obtain ⟨a, ha, hle⟩ := x.le_of_deadline_sleeper hd
    exact Nat.lt_of_lt_of_le (hp.lt_before z hz a ha) hle
  · intro z' hz' d hd
    obtain ⟨z, hz, rfl⟩ := List.mem_map.1 hz'
    obtain ⟨a, ha, hle⟩ := x.le_of_deadline_sleeper hd
    exact Nat.le_trans (hp.le_after z hz a ha) hle

/-- **A call that succeeds is not woken by the clock**, since it would give up. -/
theorem not_marks_of_popDue {s : System} {target : Nat} {p : System.Due} (hl : s.Lawful)
    (hr : s.runnable = []) (hp : System.popDue target s.parked = some p)
    (hs : Succeeds x.label (s.rouse p).world.journal) : x.marks p.sleeper.call = false := by
  by_contra hm
  rw [Bool.not_eq_false] at hm
  obtain ⟨before, after, hparked, hearliest⟩ := System.popDue_eq_some_iff.1 hp
  have hready : ¬p.sleeper.wait.Ready (s.awake p).world :=
    hl.not_ready hr (by simp [hparked])
  have hworld := System.world_carryOut { s with
    world := { s.world with clock := max s.world.clock p.deadline }
    parked := p.others } p.sleeper.thread (.resume p.sleeper.call p.sleeper.wait) p.sleeper.rest
  rw [System.rouse, hworld] at hs
  exact not_succeeds_of_expired hm hready hearliest.deadline (Nat.le_max_right ..) hs

/-- **Moving the clock leads from the one system to the other.** -/
theorem advance_extend {s : System} {target : Nat} (hl : s.Lawful) (hr : s.runnable = [])
    (hd : ∀ u ∈ s.turnsUntil target, x.Startable u)
    (hs : Succeeds x.label (s.advance target).world.journal) :
    (x.translation.system s).advance target = x.translation.system (s.advance target) := by
  fun_induction System.advance s target with
  | case1 s hp =>
      have hsame := Translation.advance_system_of_none hp (x.popDue_sleepers_eq_none hp)
      rwa [System.advance_of_none hp] at hsame
  | case2 s p hp ih =>
      have hsettled := hs.of_prefix (System.prefix_journal_advance (s.rouse p).settle target)
      have hroused := hsettled.of_prefix (System.prefix_journal_settle (s.rouse p))
      have hm := x.not_marks_of_popDue hl hr hp hroused
      rw [System.turnsUntil_of_some hp] at hd
      have hturns : ∀ u ∈ (s.rouse p).turns, x.translation.Respects u :=
        x.respects_of_mem_turns (fun u hu => hd u (by simp [hu])) hsettled
      have hawake : x.translation.Respects (s.awake p) :=
        x.respects (hd _ (by simp)) hroused
      rw [Translation.advance_system_of_some (x.popDue_sleepers hp hm) hawake hturns]
      exact ih (hl.settle_rouse hr hp) (System.runnable_settle _)
        (fun u hu => hd u (by simp [hu])) hs

/-! ### Steps and scripts -/

/-- **A step leads from the one system to the other**, and is skipped in both or in neither. -/
theorem take_extend {s : System} {step : Step} (hl : s.Lawful) (hr : s.runnable = [])
    (hd : ∀ u ∈ s.turnsIn step, x.Startable u)
    (hs : Succeeds x.label (s.take step).1.world.journal) :
    (x.translation.system s).take (x.step step) =
      (x.translation.system (s.take step).1, (s.take step).2) := by
  have hstep : x.step step = x.translation.step step := by cases step <;> rfl
  rw [hstep]
  refine Translation.take_system (fun _ => rfl) ?_ ?_
  · rintro ns rfl
    exact x.advance_extend hl.clear hr hd hs
  · rintro t cs rfl
    cases ht : s.isParked t with
    | true => simp [System.turnsIn, ht]
    | false =>
        rw [System.take_of_not_parked ht] at hs
        simp only [System.turnsIn, ht, Bool.false_eq_true, if_false] at hd ⊢
        exact x.respects_of_mem_turns hd hs

/-- Scripts that go on from the two systems give the same answers. -/
theorem answers_extend {s : System} {steps : List Step} (hl : s.Lawful) (hr : s.runnable = [])
    (hd : ∀ u ∈ moments s steps, x.Startable u)
    (hs : ∀ r ∈ results x.label (answers s steps), r = .flag true) :
    answers (x.translation.system s) (steps.map x.step) = answers s steps := by
  induction steps generalizing s with
  | nil => rfl
  | cons step steps ih =>
      simp only [moments, List.mem_append] at hd
      simp only [answers, results, List.flatMap_cons, List.mem_append] at hs
      have htake := x.take_extend hl hr (fun u hu => hd u (.inl hu)) fun r hr => hs r (.inl hr)
      have hlater := ih (hl.take hr step) (System.runnable_take hr) (fun u hu => hd u (.inr hu))
        fun r hr => hs r (.inr hr)
      have hobserve : ∀ busy, (x.translation.system (s.take step).1).observe busy =
          (s.take step).1.observe busy := fun busy => Translation.observe_system ..
      simp only [List.map_cons, answers, htake, hobserve, hlater]

/-- **More time changes nothing for calls of which only success is reported**, if the deadlines of
the new operation exist when these calls start. -/
theorem run_extend {gates events : Nat} {silent : Bool} {steps : List Step}
    (hd : ∀ now ∈ starts x.label gates events silent steps, (x.new.deadline? now).isSome = true)
    (hs : ∀ r ∈ results x.label (run gates events silent steps), r = .flag true) :
    run gates events silent (steps.map x.step) = run gates events silent steps :=
  x.answers_extend (System.lawful_fresh gates events silent) rfl
    (fun u hu now hnow => hd now (List.mem_filterMap.2 ⟨u, hu, hnow⟩)) hs

/-- **A longer budget changes nothing for a call that succeeds.**  In a script with one call of a
label, a timed one with a finite timeout, let success be reported of that call.  If the call is
given a longer timeout, or for a gate none at all, and the new deadline exists when the call starts,
then all steps are answered the same: with the same results and records in the same order, the same
threads parked, the same clock and the same gates.  The label is only a mark, so the same is true of
the script with any other labels. -/
theorem run_eq_of_success {gates events : Nat} {silent : Bool} {steps : List Step} {site : Site}
    (hcall : called x.label steps = [.single site x.old])
    (hresult : .flag true ∈ results x.label (run gates events silent steps))
    (hdeadline : ∀ now ∈ starts x.label gates events silent steps,
      (x.new.deadline? now).isSome = true) :
    run gates events silent (steps.map x.step) = run gates events silent steps ∧
      ∀ f, run gates events silent ((steps.map x.step).map (Step.relabel f)) =
        run gates events silent (steps.map (Step.relabel f)) := by
  have hle := length_results_le x.label gates events silent steps
  rw [hcall] at hle
  have honly : ∀ r ∈ results x.label (run gates events silent steps), r = .flag true := by
    obtain ⟨r, hr⟩ := List.length_eq_one_iff.1
      (Nat.le_antisymm hle (List.length_pos_of_mem hresult))
    rw [hr] at hresult ⊢
    intro r' hr'
    rw [List.mem_singleton.1 hr', List.mem_singleton.1 hresult]
  have hsame := x.run_extend hdeadline honly
  refine ⟨hsame, fun f => ?_⟩
  rw [run_relabel, run_relabel, hsame]

/-- Thread `c` closes while `b` is closer and inside: it waits for `b` to open the gate, claims it,
and waits for `b` to leave, all before its deadline.  Meanwhile two others give up entering.  With a
minute in place of ten milliseconds the answers are the same. -/
theorem run_eq_of_success_of_two_waits :
    let b : ThreadId := ⟨"b"⟩
    let x : Extension := ⟨1, .closeFor (.millis 10), .closeFor (.millis 60000),
      .closeFor (.millis (by decide))⟩
    let call (t : ThreadId) (op : Operation) : Step := .perform t [.single {} op]
    let close : Call := .single { label := 1 } (.closeFor (.millis 10))
    let steps := [call b (.closeFor .infinite), call b (.enterFor .infinite),
      .perform ⟨"c"⟩ [close], call ⟨"d"⟩ (.enterFor (.millis 2)), .advance 3000000, call b .reopen,
      call ⟨"e"⟩ (.enterFor (.millis 5)), .advance 6000000, call b .exit]
    called x.label steps = [close] ∧ .flag true ∈ results x.label (run 1 0 false steps) ∧
      (∀ now ∈ starts x.label 1 0 false steps, (x.new.deadline? now).isSome = true) ∧
      run 1 0 false (steps.map x.step) = run 1 0 false steps := by
  intro b x call close steps
  have hcall : called x.label steps = [close] := rfl
  have hresults : results x.label (run 1 0 false steps) = [.flag true] := by cbv
  have hresult : .flag true ∈ results x.label (run 1 0 false steps) := by simp [hresults]
  have hstarts : starts x.label 1 0 false steps = [0] := by cbv
  have hdeadline : ∀ now ∈ starts x.label 1 0 false steps,
      (x.new.deadline? now).isSome = true := by
    rw [hstarts]
    decide
  exact ⟨hcall, hresult, hdeadline, (x.run_eq_of_success hcall hresult hdeadline).1⟩

end Extension

end ReentrantGate.Script
