/-
**A stress run comes to its report, and the report balances.**

As long as a worker has not finished, some worker can take a step or is parked with a deadline.
Whoever is parked without one waits for somebody who is at work: enterers leave before they enter
again, and closers do not enter, so nobody closes while it is inside, and the one deadlock that a
gate has cannot come about.  When the main thread reports, everybody has finished.  A worker that
finished alive has given back what it had, and with bounded settings nobody dies inside, so the gate
is as fresh as at the start, and the counters account for every round.

Settings can be accepted that are not bounded, also below the largest word: a depth beyond what an
enterer can count.  Then an enterer may die inside, and the report shows the entries that it left.

Main results:

* `Stress.Worker.Fits.step_ne_self` — a worker that is not parked is not held up;
* `Stress.Arena.Manned.progress` — **somebody can go on until all have finished**;
* `Stress.Arena.Manned.gate_eq_fresh` — **the gate is fresh once all have finished**;
* `Stress.Arena.report_balances` — **the report comes after all work, and balances**;
* `Stress.Arena.report_unbalanced_by_uncounted_entries` — with a depth that cannot be counted it may
  not.
-/

import ReentrantGate.Proofs.Gate.Deadlock
import ReentrantGate.Proofs.Stress.Alarm
import ReentrantGate.Proofs.Stress.Deaths
import ReentrantGate.Proofs.Stress.Handles
import ReentrantGate.Proofs.Stress.Resolution
import ReentrantGate.Proofs.Stress.Roster
import ReentrantGate.Stress.Command

set_option relaxedAutoImplicit false
set_option autoImplicit false

namespace ReentrantGate

/-! ### Closers, and threads that are not parked -/

namespace Gate.Crowd

variable {c c' : Crowd} {t : ThreadId}

/-- A closer that does not drain has the close. -/
theorem closeDepth_pos_of_closer (h : c.gate.Sound) (hc : c.gate.closer = some t)
    (hd : c.drains t = false) : 0 < c.closeDepth t := by
  have hpos := h.closed_pos hc
  simpa [closeDepth, Gate.closeDepth, hc, hd] using hpos

/-- A thread parks at the end of the line. -/
theorem parked_of_act {a : Action} {t : ThreadId} (ht : a.actor = some t)
    (ha : c.act a = some (c', none)) : c'.parked.length = c.parked.length + 1 := by
  cases a with
  | call u r f =>
      simp only [act] at ha
      split at ha
      · cases hs : begin u c.clock r c.gate with
        | park g w =>
            rw [hs] at ha
            cases ha
            simp [absorb]
        | done g room note verdict => simp [hs, occurrence?] at ha
      · cases ha
  | resume u f =>
      simp only [act] at ha
      split at ha
      · cases ha
      · rename_i v _
        cases hs : Gate.resume u c.clock v.waiting c.gate with
        | park g w =>
            rw [hs] at ha
            cases ha
            simp [absorb]
        | done g room note verdict => simp [hs, occurrence?] at ha
  | rouse u => cases ht
  | tick ns => cases ht

/-- **A thread that is not parked can take the lock**: for a new call, or since it was woken. -/
theorem act_of_not_parked (h : ∀ v ∈ c.parked, v.thread ≠ t) (r : Request) :
    ∃ q, c.act (if c.isWoken t then .resume t false else .call t r false) = some q := by
  cases hw : c.isWoken t with
  | true =>
      obtain ⟨v, hv, hvt⟩ := List.any_eq_true.1 hw
      have hsome : (c.woken.find? (·.thread = t)).isSome = true :=
        List.find?_isSome.2 ⟨v, hv, hvt⟩
      obtain ⟨x, hx⟩ := Option.isSome_iff_exists.1 hsome
      simp only [if_true, act, hx]
      exact ⟨_, rfl⟩
  | false =>
      have hidle : c.idle t = true := by
        rw [idle_iff]
        intro v hv
        rcases List.mem_append.1 hv with hv | hv
        · exact h v hv
        · rw [isWoken, List.any_eq_false] at hw
          simpa using hw v hv
      simp only [Bool.false_eq_true, if_false, act, if_pos hidle]
      exact ⟨_, rfl⟩

end Gate.Crowd

namespace Stress

open Gate

/-! ### A worker that is not parked -/

namespace Worker

variable {p : Plan} {s : Shared} {w : Worker}

theorem ask_ne_self {r : Request} {next : Verdict → Shared → Shared × Worker}
    (h : ∀ v ∈ s.crowd.parked, v.thread ≠ w.thread) : w.ask s r next ≠ .parked s := by
  obtain ⟨⟨c', o⟩, ha⟩ := Crowd.act_of_not_parked h r
  simp only [ask, ha]
  cases o with
  | some o =>
      intro heq
      cases heq
  | none =>
      intro heq
      injection heq with heq
      have hactor : (if s.crowd.isWoken w.thread then Gate.Action.resume w.thread false
          else .call w.thread r false).actor = some w.thread := by
        split <;> rfl
      have hlength := Crowd.parked_of_act hactor ha
      rw [← heq] at hlength
      simp [Shared.withOccurrence] at hlength

/-- **A worker that is not parked is not held up.** -/
theorem step_ne_self (h : ∀ v ∈ s.crowd.parked, v.thread ≠ w.thread) (draw : Nat) :
    w.step p draw s ≠ .parked s := by
  unfold step
  repeat' split
  all_goals first
    | exact ask_ne_self h
    | nofun

theorem step_of_finished (hfin : w.stage.isFinished = true) (draw : Nat) :
    w.step p draw s = .finished := by
  cases hs : w.stage with
  | finished died => simp only [step, hs]
  | _ => simp [hs, Stage.isFinished] at hfin

/-- **A worker that has finished holds nothing**, unless it died inside. -/
theorem Fits.released {c : Crowd} (h : w.Fits p c)
    (hdied : w.stage.died = true → c.gate.depth w.thread = 0)
    (hfin : w.stage.isFinished = true) :
    c.gate.depth w.thread = 0 ∧ c.closeDepth w.thread = 0 ∧ w.stage.wants = none := by
  cases hs : w.stage with
  | finished died =>
      have hcd := h.closeDepth
      rw [hs] at hcd
      refine ⟨?_, hcd, rfl⟩
      rcases h.depth with hd | ⟨hd, -, -⟩
      · rw [hd, hs]
        rfl
      · exact hdied hd
  | _ => simp [hs, Stage.isFinished] at hfin

end Worker

namespace Arena

variable {p : Plan} {a b : Arena} {s : Settings}

namespace Manned

/-- **A worker that is not parked and has not finished can take a step.** -/
theorem act_worker (h : a.Manned p) {i : Nat} {w : Worker} (hi : a.workers[i]? = some w)
    (hfin : w.stage.isFinished = false) (hpark : ∀ v ∈ a.shared.crowd.parked, v.thread ≠ w.thread)
    (draw : Nat) : ∃ b, a.act p (.worker i draw) = some b ∧ b ≠ a := by
  have hw : w ∈ a.workers := List.mem_of_getElem? hi
  have hstep := (h.fits w hw).step h.reachable draw
  simp only [act, hi]
  cases hs : w.step p draw a.shared with
  | finished =>
      rw [hs] at hstep
      obtain ⟨died, hst⟩ := hstep
      rw [hst] at hfin
      cases hfin
  | parked s' =>
      refine ⟨_, rfl, fun heq => ?_⟩
      have hshared : s' = a.shared := congrArg Arena.shared heq
      exact Worker.step_ne_self hpark draw (hshared ▸ hs)
  | moved s' w' =>
      refine ⟨_, rfl, fun heq => ?_⟩
      -- a step leaves less to do, so the worker is not the same
      have hworkers : a.workers.set i w' = a.workers := congrArg Arena.workers heq
      have hget : (a.workers.set i w')[i]? = some w' := by
        rw [List.getElem?_set_self]
        exact (List.getElem?_eq_some_iff.1 hi).1
      rw [hworkers, hi] at hget
      have hcost := Worker.cost_step_lt hs
      rw [Option.some.inj hget] at hcost
      exact absurd hcost (lt_irrefl _)

/-! ### Somebody can go on -/

/-- Whoever is in the middle of a call is a worker that wants something. -/
theorem worker_of_visitor (h : a.Manned p) {v : Visitor} (hv : v ∈ a.shared.crowd.visitors) :
    ∃ w ∈ a.workers, w.thread = v.thread ∧ w.stage.wants = some v.waiting.hold := by
  have hmem : v.thread ∈ a.workers.map (·.thread) := by
    by_contra hno
    exact (h.outside _ hno).2.2 v hv rfl
  obtain ⟨w, hw, hwt⟩ := List.mem_map.1 hmem
  exact ⟨w, hw, hwt, (h.fits w hw).waits v hv hwt.symm⟩

/-- Whoever is inside, or has the close, is a worker that has not finished. -/
theorem worker_of_holder (h : a.Manned p) (hout : a.Vacated) {t : ThreadId}
    (ht : 0 < a.shared.crowd.gate.depth t ∨ 0 < a.shared.crowd.closeDepth t) :
    ∃ w ∈ a.workers, w.thread = t ∧ w.stage.isFinished = false := by
  have hmem : t ∈ a.workers.map (·.thread) := by
    by_contra hno
    obtain ⟨hd, hcd, -⟩ := h.outside t hno
    omega
  obtain ⟨w, hw, rfl⟩ := List.mem_map.1 hmem
  refine ⟨w, hw, rfl, ?_⟩
  rw [Bool.eq_false_iff]
  intro hfin
  obtain ⟨hd, hcd, -⟩ := (h.fits w hw).released (hout w hw) hfin
  omega

/-- Nobody waits for the close of another while it is inside. -/
theorem not_upgradeDeadlock (h : a.Manned p) : ¬a.shared.crowd.UpgradeDeadlock := by
  rintro ⟨v, -, -, -, ⟨u, hu, hpos⟩, hall⟩
  obtain ⟨x, hx, rfl, deadline, hwait⟩ := hall u hu hpos
  obtain ⟨w, hw, hwt, hwants⟩ := h.worker_of_visitor (List.mem_append_left _ hx)
  rw [hwait] at hwants
  -- a worker that wants to close has no entry
  have hstage : w.stage = .closing := by
    cases hs : w.stage <;> simp [hs, Stage.wants, Waiting.hold] at hwants
    rfl
  have h0 := (h.fits w hw).depth_eq hstage rfl
  rw [hwt] at h0
  simp only [Stage.entries] at h0
  omega

/-- **Until all have finished, somebody who has not is not parked.** -/
theorem exists_not_parked (h : a.Manned p) (hout : a.Vacated) {w : Worker}
    (hw : w ∈ a.workers) (hfin : w.stage.isFinished = false) :
    ∃ u ∈ a.workers, u.stage.isFinished = false ∧
      ∀ v ∈ a.shared.crowd.parked, v.thread ≠ u.thread := by
  by_contra hno
  have hparked : ∀ u ∈ a.workers, u.stage.isFinished = false →
      ∃ v ∈ a.shared.crowd.parked, v.thread = u.thread := by
    intro u hu hufin
    by_contra hnone
    exact hno ⟨u, hu, hufin, fun v hv hvu => hnone ⟨v, hv, hvu⟩⟩
  have ho := h.reachable.orderly
  -- a woken thread is that of a worker at work, and would be parked as well
  have hwoken : a.shared.crowd.woken = [] := by
    refine List.eq_nil_iff_forall_not_mem.2 fun v hv => ?_
    obtain ⟨u, hu, huv, hwants⟩ := h.worker_of_visitor (List.mem_append_right _ hv)
    have hufin : u.stage.isFinished = false := by
      cases hs : u.stage <;> simp [hs, Stage.wants] at hwants <;> rfl
    obtain ⟨x, hx, hxu⟩ := hparked u hu hufin
    have hn := ho.nodup
    rw [Crowd.visitors, List.map_append] at hn
    exact List.disjoint_of_nodup_append hn (List.mem_map_of_mem hx)
      (List.mem_map.2 ⟨v, hv, huv.symm.trans hxu.symm⟩)
  obtain ⟨v, hv, -⟩ := hparked w hw hfin
  rcases ho.waits_or_upgradeDeadlock hwoken (List.ne_nil_of_mem hv) with
    ⟨t, hidle, hholds, -⟩ | hup
  · -- the thread that all wait for is idle, so it is not parked
    have hholds : 0 < a.shared.crowd.gate.depth t ∨ 0 < a.shared.crowd.closeDepth t :=
      hholds.imp_right fun hc => Crowd.closeDepth_pos_of_closer ho.sound hc.1 hc.2
    obtain ⟨u, hu, rfl, hufin⟩ := h.worker_of_holder hout hholds
    obtain ⟨x, hx, hxu⟩ := hparked u hu hufin
    exact Crowd.idle_iff.1 hidle x (List.mem_append_left _ hx) hxu
  · exact h.not_upgradeDeadlock hup

/-- **Until all have finished, some worker can take a step.** -/
theorem progress (h : a.Manned p) (hout : a.Vacated) {w : Worker}
    (hw : w ∈ a.workers) (hfin : w.stage.isFinished = false) :
    ∃ i, ∀ draw, ∃ b, a.act p (.worker i draw) = some b ∧ b ≠ a := by
  obtain ⟨u, hu, hufin, hpark⟩ := h.exists_not_parked hout hw hfin
  obtain ⟨i, hi, hget⟩ := List.getElem_of_mem hu
  exact ⟨i, h.act_worker (hget ▸ List.getElem?_eq_getElem hi) hufin hpark⟩

/-! ### The gate at the end -/

/-- **Once all have finished the gate is fresh, and nobody is there.** -/
theorem gate_eq_fresh (h : a.Manned p) (hout : a.Vacated)
    (hall : ∀ w ∈ a.workers, w.stage.isFinished = true) :
    a.shared.crowd.gate = {} ∧ a.shared.crowd.visitors = [] := by
  have hfree : ∀ t, a.shared.crowd.gate.depth t = 0 ∧ a.shared.crowd.closeDepth t = 0 := by
    intro t
    by_contra hno
    obtain ⟨w, hw, -, hfin⟩ := h.worker_of_holder hout (t := t) (by omega)
    rw [hall w hw] at hfin
    cases hfin
  have hnobody : a.shared.crowd.visitors = [] := by
    refine List.eq_nil_iff_forall_not_mem.2 fun v hv => ?_
    obtain ⟨w, hw, -, hwants⟩ := h.worker_of_visitor hv
    rw [((h.fits w hw).released (hout w hw) (hall w hw)).2.2] at hwants
    cases hwants
  have hs := h.reachable.orderly.sound
  have hcloser : a.shared.crowd.gate.closer = none := by
    refine Option.eq_none_iff_forall_ne_some.2 fun t hc => ?_
    have hdrains : a.shared.crowd.drains t = false := by
      simp [Crowd.drains, hnobody]
    have hpos := Crowd.closeDepth_pos_of_closer hs hc hdrains
    have h0 := (hfree t).2
    omega
  exact ⟨hs.eq_fresh hcloser fun t => (hfree t).1, hnobody⟩

end Manned

/-! ### The report -/

/-- A report is made by the main thread, and says what is shared at that time. -/
theorem of_report {r : Report} (hr : a.report? s = some r) :
    a.main = .reporting ∧ r.tally = a.shared.tally ∧ r.interrupted = a.shared.stop ∧
      r.gate = a.shared.crowd.gate.snapshot := by
  unfold report? at hr
  split at hr
  · cases hr
    exact ⟨‹_›, rfl, rfl, rfl⟩
  · cases hr

/-- No worker that has finished takes another step. -/
theorem act_worker_of_finished (hall : ∀ w ∈ a.workers, w.stage.isFinished = true) (i draw : Nat) :
    a.act p (.worker i draw) = none := by
  simp only [act]
  split
  · rfl
  · rename_i w hi
    rw [Worker.step_of_finished (hall w (List.mem_of_getElem? hi))]

/-- A worker that finished without being stopped, while the clock could hold its deadlines, owes
nothing, if the settings are bounded. -/
theorem Reachable.owed_of_finished (h : Reachable s p a) (hp : plan? s = some p) (hb : s.Bounded)
    {w : Worker} (hw : w ∈ a.workers) (hstop : a.shared.stop = false)
    (hclock : p.timeout.deadline? a.shared.crowd.clock ≠ none)
    (hfin : w.stage.isFinished = true) (closer : Bool) : w.owed closer = 0 := by
  cases hs : w.stage with
  | finished died =>
      cases died with
      | true =>
          have hd : w.stage.dying = true := by rw [hs]; rfl
          exact absurd (h.deadline_of_dying hp hb hw hd) hclock
      | false =>
          have hrounds : w.rounds = 0 := by
            rcases h.accounted.excused w hw (by rw [hs]; rfl) with hr | hr
            · exact hr
            · rw [hstop] at hr
              cases hr
          simp [Worker.owed, hs, hrounds, Stage.pending]
  | _ => simp [hs, Stage.isFinished] at hfin

/-- **The report comes after all work, and balances.**  Let the settings be bounded.  At every
moment of every run, until all workers have finished some worker can take a step; the main thread
reports only after every worker has finished, so that nobody is at the gate any more and no worker
takes another step; and once all have finished, even if there are none, the main thread goes on to
its report.  The report shows a fresh gate and no alarm, and the exit code is zero.  The rounds that
were counted are never more than those of the settings, and in the report of a run that was not
interrupted they are exactly those, if at that time the clock could still hold the deadline of a
call. -/
theorem report_balances (hp : plan? s = some p) (hb : s.Bounded) (h : Reachable s p a) :
    ((∃ w ∈ a.workers, w.stage.isFinished = false) →
      ∃ i, ∀ draw, ∃ b, a.act p (.worker i draw) = some b ∧ b ≠ a) ∧
    (a.main = .reporting → (∀ w ∈ a.workers, w.stage.isFinished = true) ∧
      a.shared.crowd.visitors = [] ∧ ∀ i draw, a.act p (.worker i draw) = none) ∧
    ((∀ w ∈ a.workers, w.stage.isFinished = true) → a.main ≠ .reporting →
      ∃ b, a.act p .main = some b) ∧
    (∀ r, a.report? s = some r → r.gate = ⟨0, 0, 0, false⟩ ∧ r.tally.overlaps = 0 ∧
      r.tally.violations = 0 ∧ ∀ log, (Outcome.reported log r).code? = some 0) ∧
    a.shared.tally.entries + a.shared.tally.enterTimeouts ≤ s.enterers * s.iterations ∧
    a.shared.tally.closes + a.shared.tally.closeTimeouts ≤ s.closers * (s.iterations / 10) ∧
    (∀ r, a.report? s = some r → r.interrupted = false →
      p.timeout.deadline? a.shared.crowd.clock ≠ none →
      r.tally.entries + r.tally.enterTimeouts = s.enterers * s.iterations ∧
      r.tally.closes + r.tally.closeTimeouts = s.closers * (s.iterations / 10)) := by
  have hout := h.vacated hp hb
  have hm := h.manned
  have hh := h.handed
  have hacc := h.accounted
  have hentries := hacc.rounds false
  have hcloses := hacc.rounds true
  rw [owed_crew] at hentries hcloses
  simp only [Tally.rounds, if_true, Bool.false_eq_true, if_false] at hentries hcloses
  refine ⟨?_, fun hmain => ?_, fun hall hmain => hh.stepMain hall hmain, fun r hr => ?_, ?_, ?_,
    fun r hr hstop hclock => ?_⟩
  · rintro ⟨w, hw, hfin⟩
    exact hm.progress hout hw hfin
  · have hall := hh.finished hmain
    exact ⟨hall, (hm.gate_eq_fresh hout hall).2, act_worker_of_finished hall⟩
  · obtain ⟨hmain, htally, -, hgate⟩ := of_report hr
    have hfresh := (hm.gate_eq_fresh hout (hh.finished hmain)).1
    have halarms := h.alarms
    rw [← htally] at halarms
    rw [hfresh] at hgate
    refine ⟨hgate, halarms.1, halarms.2, fun log => ?_⟩
    simp [Outcome.code?, Report.sound, halarms, hgate, snapshot]
  · omega
  · omega
  · obtain ⟨hmain, htally, hinterrupted, -⟩ := of_report hr
    have hnone : ∀ closer, total (Worker.owed closer) a.workers = 0 := fun closer =>
      total_eq_zero fun w hw => h.owed_of_finished hp hb hw (hinterrupted ▸ hstop) hclock
        (hh.finished hmain w hw) closer
    rw [htally]
    rw [hnone] at hentries hcloses
    exact ⟨hentries, hcloses⟩

/-- The main thread drops its handle at once, an enterer makes ten rounds and a closer one. -/
theorem report_balances_of_ten_rounds :
    let s : Settings :=
      { enterers := 1, closers := 1, iterations := 10, depth := 1, timeout := 50, spins := 0 }
    let p : Plan := ⟨1, 0, .millis 50⟩
    let a : Arena :=
      { shared := {
          notes := [.opened, .closed 0]
          tally := { entries := 10, closes := 1 }
          handles := 0 }
        workers := [⟨⟨"enterer 0"⟩, false, 0, .finished false⟩,
          ⟨⟨"closer 0"⟩, true, 0, .finished false⟩]
        main := .reporting }
    let r : Report := ⟨s, { entries := 10, closes := 1 }, 0, false, ⟨0, 0, 0, false⟩⟩
    plan? s = some p ∧ s.Bounded ∧ Reachable s p a ∧
      a.report? s = some r ∧ (∀ log, (Outcome.reported log r).code? = some 0) ∧
      p.timeout.deadline? a.shared.crowd.clock ≠ none ∧
      r.tally.entries + r.tally.enterTimeouts = s.enterers * s.iterations ∧
      r.tally.closes + r.tally.closeTimeouts = s.closers * (s.iterations / 10) := by
  intro s p a r
  have hp : plan? s = some p := rfl
  have hb : s.Bounded := ⟨fun _ _ => by decide, fun _ _ => by decide⟩
  have hr : Reachable s p a := .of_run .start
    (.main :: List.replicate 82 (.worker 0 0) ++ List.replicate 8 (.worker 1 0) ++ [.main])
    (by decide +kernel)
  have hreport : a.report? s = some r := by decide
  have hclock : p.timeout.deadline? a.shared.crowd.clock ≠ none := by decide
  obtain ⟨-, -, -, hsound, -, -, hsums⟩ := report_balances hp hb hr
  exact ⟨hp, hb, hr, hreport, (hsound r hreport).2.2.2, hclock, hsums r hreport rfl hclock⟩

/-- **An enterer that cannot count its entries leaves them in the report.**  With the largest depth
that can be drawn it may die inside, so that its round is not counted, and the run ends with code
one, although neither depth nor spins are the largest word. -/
theorem report_unbalanced_by_uncounted_entries :
    let s : Settings :=
      { enterers := 1, closers := 0, iterations := 1, depth := 18446744073709551614, timeout := -1,
        spins := 0 }
    let p : Plan := ⟨18446744073709551614, 0, .infinite⟩
    let w : Worker := ⟨⟨"enterer 0"⟩, false, 0, .finished true⟩
    let a : Arena :=
      { shared := {
          crowd := { gate := ⟨maxHeld + 1, 0, none, [(w.thread, maxHeld + 1)]⟩ }
          inside := 1
          handles := 0 }
        workers := [w]
        main := .reporting }
    let r : Report := ⟨s, {}, 0, false, ⟨maxHeld + 1, 0, 1, false⟩⟩
    s.depth < maxWord ∧ s.spins < maxWord ∧ s.Accepted p ∧ Reachable s p a ∧
      a.report? s = some r ∧ (∀ log, (Outcome.reported log r).code? = some 1) ∧
      r.tally.entries + r.tally.enterTimeouts < s.enterers * s.iterations := by
  intro s p w a r
  have haccepted : s.Accepted p :=
    ⟨fun _ => none, ["-e", "1", "-c", "0", "-n", "1", "-d", "18446744073709551614", "-t", "-1",
      "-s", "0"], _, {}, rfl, rfl, by decide +kernel, rfl⟩
  let begun : Arena :=
    { shared := { handles := 1 }, workers := [⟨w.thread, false, 1, .poll⟩], main := .waiting }
  have hbegun : (start s).act p .main = some begun := by decide +kernel
  have hdeep : maxHeld < p.depth := by decide
  have hinside := (Reachable.start.act hbegun).takes (i := 0) rfl
    (takes_overrun w.thread 0 1 (by decide) hdeep)
  have hr : Reachable s p a := .of_run hinside [.worker 0 0, .main] rfl
  exact ⟨by decide, by decide, haccepted, hr, by decide, fun _ => rfl, by decide⟩

end Arena

end Stress

end ReentrantGate
