/-
**Deadlines are kept.**

In every script a thread that waits does so in the call that it has started last, for what that
call wants, and until the one deadline that was reckoned when the call started.  However often it
is woken and parks again, and whichever of the two waits of a close it is in, the deadline stays the
same, and the clock never gets past it with the thread still waiting.  So a call gives up exactly at
its deadline, for want of what it wants in that very segment, and gets what is there even then.

A close logs that it succeeds.  If the sink of the log fails on that record, the call does not come
to answer.

Main definitions:

* `Script.Along` — every moment has a property, together with what came up to it;
* `Script.Underway` — the call that a thread has started last, with its deadline;
* `System.OnTime` — everybody who waits keeps to the deadline of the call;
* `System.Punctual` — how the turns of calls that wait come out.

Main results:

* `System.OnTime.turn`, `System.OnTime.advance`, `System.OnTime.take` — **turns, the clock and steps
  keep everybody on time**;
* `Script.deadlines_are_kept` — **every moment of a script is punctual**;
* `Script.denied_at_deadline` — a call that finds the gate free at its deadline answers nothing if
  the sink of the log fails.
-/

import Mathlib
import ReentrantGate.Proofs.Script.Rulings

set_option relaxedAutoImplicit false
set_option autoImplicit false

namespace ReentrantGate.Script

/-! ### What came up to a moment -/

section Along

variable {P : List System → System → Prop} {ms later : List System} {s : System}

/-- Every moment of a list that goes on after `ms` has a property, together with all that came up to
it. -/
def Along (P : List System → System → Prop) (ms : List System) : List System → Prop
  | [] => True
  | s :: later => P (ms ++ [s]) s ∧ Along P (ms ++ [s]) later

theorem along_append {now : List System} :
    Along P ms (now ++ later) ↔ Along P ms now ∧ Along P (ms ++ now) later := by
  induction now generalizing ms with
  | nil => simp [Along]
  | cons s now ih => simp [Along, ih, and_assoc]

theorem Along.at {i : Nat} (h : Along P ms later) (hi : later[i]? = some s) :
    P (ms ++ later.take (i + 1)) s := by
  induction later generalizing ms i with
  | nil => cases hi
  | cons u later ih =>
      cases i with
      | zero =>
          cases hi
          simpa using h.1
      | succ i => simpa using ih h.2 hi

end Along

/-! ### The call that a thread is in -/

/-- The call `c` is the last that `t` has started in these moments; it did so at `now`, wants
`want`, and may wait until `deadline`. -/
structure Underway (ms : List System) (t : ThreadId) (c : Call) (now : Nat) (want : Want)
    (deadline : Deadline) : Prop where
  started : started? t ms = some (c, now)
  wants : c.want? = some want
  reckoned : want.deadline? now = some deadline

section Started

variable {ms : List System} {s : System} {t : ThreadId} {c : Call} {rest : List Task}
  {rs : List Runner}

theorem started?_concat (h : s.startOf? t = none) : started? t (ms ++ [s]) = started? t ms := by
  simp [started?, h]

theorem started?_of_start (hs : s.runnable = ⟨t, .start c :: rest⟩ :: rs) :
    started? t (ms ++ [s]) = some (c, s.world.clock) := by
  have hstart : s.startOf? t = some (c, s.world.clock) := by simp [System.startOf?, hs]
  simp [started?, List.filterMap_append, hstart]

/-- Who waits does not start a call. -/
theorem System.Lawful.startOf?_eq_none {wait : Wait} (h : s.Lawful)
    (hr : ⟨t, .resume c wait :: rest⟩ ∈ s.everyone) : s.startOf? t = none := by
  unfold System.startOf?
  split
  · rename_i u c' rest' rs hs
    rw [if_neg]
    rintro rfl
    rcases List.mem_cons.1 ((System.everyone_perm_of_runnable hs).subset hr) with heq | hr
    · cases heq
    · exact (h.of_runnable hs).2 _ hr rfl
  · rfl

end Started

namespace System

/-- **Everybody who waits keeps to the deadline**: in the call started last, for what that call
wants, until the deadline reckoned at its start.  That lay ahead then, and has not passed. -/
def OnTime (ms : List System) (s : System) : Prop :=
  ∀ t c wait rest, ⟨t, .resume c wait :: rest⟩ ∈ s.everyone →
    ∃ now want, Underway ms t c now want wait.deadline ∧ wait.Serves c want ∧
      ∀ d, wait.deadline = some d → now < d ∧ s.world.clock ≤ d

/-- **A punctual moment**, with all that came up to it. -/
structure Punctual (ms : List System) (s : System) : Prop where
  /-- Nobody waits for anything else than the call wants or until any other deadline than its own,
  and nobody waits past it. -/
  waits : s.OnTime ms
  /-- Whoever parks could not have what the call wants, and goes by its deadline as before. -/
  parks : ∀ {t c task rest rs now want deadline w c' wait},
    s.runnable = ⟨t, task :: rest⟩ :: rs → task = .start c ∨ (∃ wait, task = .resume c wait) →
    Underway ms t c now want deadline → task.attempt t s.world = .park w c' wait →
    c' = c ∧ wait.Serves c want ∧ wait.deadline = deadline ∧ ¬want.Met s.world t c ∧
      ∀ d, deadline = some d → s.world.clock < d
  /-- A call that was given no time does not park. -/
  atOnce : ∀ {t c task rest rs now want w c' wait},
    s.runnable = ⟨t, task :: rest⟩ :: rs → task = .start c ∨ (∃ wait, task = .resume c wait) →
    Underway ms t c now want (some now) → task.attempt t s.world ≠ .park w c' wait
  /-- A call gives up only at its deadline, and only if it cannot have what it wants right then; one
  without a deadline never does. -/
  refuses : ∀ {t c task rest rs now want deadline},
    s.runnable = ⟨t, task :: rest⟩ :: rs → task = .start c ∨ (∃ wait, task = .resume c wait) →
    Underway ms t c now want deadline → s.world.Reports s.turn.world t c (.flag false) →
    deadline = some s.world.clock ∧ ¬want.Met s.world t c
  /-- A call that can have what it wants gets it, at its deadline too, and reports success unless
  there is more to do.  Only a close logs that, to a sink that must not fail on it. -/
  gets : ∀ {t c task rest rs now want deadline},
    s.runnable = ⟨t, task :: rest⟩ :: rs → task = .start c ∨ (∃ wait, task = .resume c wait) →
    Underway ms t c now want deadline → want.Met s.world t c →
    (∀ timeout, want = .hold .close timeout → s.world.silent = true ∨ s.world.failing = 0) →
    s.world.Reports s.turn.world t c c.success ∨
      c.takesGuard = true ∧
        ∃ w ns follow, task.attempt t s.world = .done w ns follow ∧ follow ≠ .nothing

variable {ms : List System} {s : System} {t : ThreadId} {c : Call} {task : Task}
  {rest : List Task} {rs : List Runner} {now : Nat} {want : Want} {deadline : Deadline}

/-! ### Rulings in lawful systems -/

/-- A gate is sound, and a closer that starts a call has it to itself. -/
theorem Lawful.gate_of_start {i : Nat} {g : Gate} (h : s.Lawful)
    (hs : s.runnable = ⟨t, .start c :: rest⟩ :: rs) (hg : s.world.gates[i]? = some g) :
    g.Sound ∧ (g.closer = some t → g.foreign = 0) := by
  have hreach := h.gates i g hg
  have hgate : (s.crowdAt i).gate = g := by simp [crowdAt, hg]
  have hsame : { s with runnable := rs }.crowdAt i = s.crowdAt i := crowdAt_of_unseen hs rfl
  have hidle : (s.crowdAt i).idle t = true := hsame ▸ idle_crowdAt (h.of_runnable hs).2
  have hdrains := Gate.Crowd.drains_eq_false (Gate.Crowd.idle_iff.1 hidle)
  have hsettled := hreach.settled t
  rw [hgate] at hsettled
  exact ⟨hgate ▸ hreach.orderly.sound, fun hc => hsettled hc hdrains⟩

/-- A gate is sound, and what a thread waits for fits it. -/
theorem Lawful.gate_of_resume {i : Nat} {waiting : Gate.Waiting} {g : Gate} (h : s.Lawful)
    (hs : s.runnable = ⟨t, .resume c (.gate i waiting) :: rest⟩ :: rs)
    (hg : s.world.gates[i]? = some g) : g.Sound ∧ waiting.Fits g t := by
  have horderly := (h.gates i g hg).orderly
  have hgate : (s.crowdAt i).gate = g := by simp [crowdAt, hg]
  have hmem : (⟨t, waiting⟩ : Gate.Visitor) ∈ (s.crowdAt i).visitors :=
    List.mem_append_right _ <| List.mem_filterMap.2
      ⟨_, hs ▸ List.mem_cons_self, by simp [Runner.seen, Wait.visitor?]⟩
  exact ⟨hgate ▸ horderly.sound, hgate ▸ horderly.fits _ hmem⟩

/-- **The first runner is ruled on** by the deadline of the call that it is in. -/
theorem Lawful.ruling (h : s.Lawful) (hon : s.OnTime (ms ++ [s]))
    (hs : s.runnable = ⟨t, task :: rest⟩ :: rs)
    (htask : task = .start c ∨ ∃ wait, task = .resume c wait)
    (hu : Underway (ms ++ [s]) t c now want deadline) :
    Ruling t c want deadline s.world (task.attempt t s.world) ∧
      ∀ d, deadline = some d → s.world.clock ≤ d := by
  rcases htask with rfl | ⟨wait, rfl⟩
  · have hstarted := hu.started
    rw [started?_of_start hs] at hstarted
    cases hstarted
    refine ⟨Task.ruling_of_start hu.wants hu.reckoned fun g hg => h.gate_of_start hs hg, ?_⟩
    rintro d rfl
    exact want.le_of_deadline? hu.reckoned
  · have hmem : (⟨t, .resume c wait :: rest⟩ : Runner) ∈ s.everyone :=
      List.mem_append_right _ (hs ▸ List.mem_cons_self)
    obtain ⟨now', want', hu', hserves, hahead⟩ := hon t c wait rest hmem
    have hstarted := hu.started
    rw [hu'.started] at hstarted
    cases hstarted
    obtain rfl : want' = want := Option.some.inj (hu'.wants.symm.trans hu.wants)
    obtain rfl : wait.deadline = deadline :=
      Option.some.inj (hu'.reckoned.symm.trans hu.reckoned)
    refine ⟨Task.ruling_of_resume hu.wants hserves hu.reckoned ?_, fun d hd => (hahead d hd).2⟩
    rintro i waiting rfl g hg
    exact h.gate_of_resume hs hg

/-- **Whoever parks is on time**, since its first turn in the call or still. -/
theorem Lawful.onTime_of_park {w : World} {wait : Wait} (h : s.Lawful)
    (hon : s.OnTime (ms ++ [s])) (hs : s.runnable = ⟨t, task :: rest⟩ :: rs)
    (hpark : task.attempt t s.world = .park w c wait) :
    ∃ now want, Underway (ms ++ [s]) t c now want wait.deadline ∧ wait.Serves c want ∧
      ∀ d, wait.deadline = some d → now < d ∧ s.world.clock ≤ d := by
  obtain rfl := Task.call_of_park hpark
  cases task with
  | release c hold gate => exact absurd hpark Task.dispose_ne_park
  | resume c wait₀ =>
      have hmem : (⟨t, .resume c wait₀ :: rest⟩ : Runner) ∈ s.everyone :=
        List.mem_append_right _ (hs ▸ List.mem_cons_self)
      obtain ⟨now, want, hu, -, hahead⟩ := hon t c wait₀ rest hmem
      have hruling := (h.ruling hon hs (.inr ⟨_, rfl⟩) hu).1
      rw [hpark] at hruling
      cases hruling with
      | parked _ _ hserves hd _ => exact ⟨now, want, hd ▸ hu, hserves, hd ▸ hahead⟩
  | start c =>
      by_cases hnever : ∀ want, c.want? = some want → want.deadline? s.world.clock = none
      · exact absurd hpark (Task.start_ne_park hnever)
      · simp only [not_forall] at hnever
        obtain ⟨want, hwants, hd⟩ := hnever
        obtain ⟨deadline, hd⟩ := Option.ne_none_iff_exists'.1 hd
        have hu : Underway (ms ++ [s]) t c s.world.clock want deadline :=
          ⟨started?_of_start hs, hwants, hd⟩
        have hruling := (h.ruling hon hs (.inl rfl) hu).1
        rw [hpark] at hruling
        cases hruling with
        | parked _ hahead hserves hd _ =>
            subst hd
            exact ⟨_, want, hu, hserves, fun d hd => ⟨hahead d hd, Nat.le_of_lt (hahead d hd)⟩⟩

/-- **A moment at which everybody is on time is punctual.** -/
theorem Lawful.punctual (h : s.Lawful) (hon : s.OnTime (ms ++ [s])) :
    s.Punctual (ms ++ [s]) where
  waits := hon
  parks {t c task rest rs now want deadline w c' wait} hs htask hu hpark := by
    have hruling := (h.ruling hon hs htask hu).1
    rw [hpark] at hruling
    cases hruling with
    | parked hm hahead hserves hd _ => exact ⟨rfl, hserves, hd, hm, hahead⟩
  atOnce {t c task rest rs now want w c' wait} hs htask hu hpark := by
    have hruling := (h.ruling hon hs htask hu).1
    obtain ⟨now', want', hu', -, hahead⟩ := h.onTime_of_park hon hs hpark
    rw [hpark] at hruling
    cases hruling with
    | parked _ _ _ hd _ =>
        have hnow : now' = now :=
          congrArg Prod.snd (Option.some.inj (hu'.started.symm.trans hu.started))
        exact absurd (hahead now hd).1 (hnow ▸ Nat.lt_irrefl now')
  refuses {t c task rest rs now want deadline} hs htask hu hreports := by
    obtain ⟨hruling, hclock⟩ := h.ruling hon hs htask hu
    rw [turn_of_cons hs, world_carryOut] at hreports
    generalize task.attempt t _ = segment at hruling hreports
    cases hruling with
    | granted hm hsuccess => exact absurd (hreports.inj hsuccess).symm (c.success_ne_refusal)
    | more _ _ _ hnotes => exact absurd hnotes hreports.not_notes
    | refused hm hd hle _ =>
        subst hd
        exact ⟨congrArg some (Nat.le_antisymm hle (hclock _ rfl)), hm⟩
    | unwound _ _ _ hpanic => cases hreports.inj hpanic
    | missing _ hmissing => cases hreports.inj hmissing
    | parked _ _ _ _ hnotes => exact absurd hnotes hreports.not_notes
  gets {t c task rest rs now want deadline} hs htask hu hm hsink := by
    have hruling := (h.ruling hon hs htask hu).1
    rw [turn_of_cons hs, world_carryOut]
    generalize task.attempt t _ = segment at hruling ⊢
    cases hruling with
    | granted _ hsuccess => exact .inl hsuccess
    | more _ hguard hmore _ => exact .inr ⟨hguard, _, _, _, rfl, hmore⟩
    | refused hfails _ _ _ => exact absurd hm hfails
    | unwound hruled hsilent hfailing _ =>
        rcases hruled with ⟨-, timeout, hclose⟩ | ⟨hfails, -⟩
        · rcases hsink timeout hclose with hquiet | hzero
          · rw [hsilent] at hquiet
            cases hquiet
          · exact absurd hzero (Nat.ne_of_gt hfailing)
        · exact absurd hm hfails
    | missing hmissing _ => exact absurd hm hmissing.not_met
    | parked hfails _ _ _ _ => exact absurd hm hfails

/-! ### Everybody stays on time -/

/-- A moment is one of those that came up to it, and starts no call of anybody who waits. -/
theorem OnTime.here (hon : s.OnTime ms) (h : s.Lawful) : s.OnTime (ms ++ [s]) := by
  intro t c wait rest hr
  obtain ⟨now, want, hu, hrest⟩ := hon t c wait rest hr
  refine ⟨now, want, ⟨?_, hu.wants, hu.reckoned⟩, hrest⟩
  rw [started?_concat (h.startOf?_eq_none hr)]
  exact hu.started

/-- **A turn keeps everybody on time.** -/
theorem OnTime.turn (hon : s.OnTime (ms ++ [s])) (h : s.Lawful) : s.turn.OnTime (ms ++ [s]) := by
  intro u c wait rest' hu
  rw [clock_turn]
  cases hs : s.runnable with
  | nil =>
      have hturn : s.turn = s := by simp only [System.turn, hs]
      exact hon u c wait rest' (hturn ▸ hu)
  | cons r rs =>
      obtain ⟨t, tasks⟩ := r
      rcases mem_everyone_turn hs hu with ⟨task, rest, rfl, heq⟩ | hold
      · obtain ⟨rfl, htasks⟩ := Runner.mk.inj heq
        obtain ⟨w, hseg⟩ := park_of_afterwards (h.of_runnable hs).1 htasks
        exact h.onTime_of_park hon hs hseg
      · exact hon u c wait rest' hold

/-- **Coming to rest keeps everybody on time**, and every moment on the way is punctual. -/
theorem OnTime.settle (hon : s.OnTime ms) (h : s.Lawful) :
    Along Punctual ms s.turns ∧ s.settle.OnTime (ms ++ s.turns) := by
  fun_induction System.settle s generalizing ms with
  | case1 s hs =>
      rw [turns_of_nil hs]
      exact ⟨trivial, by simpa using hon⟩
  | case2 s hs ih =>
      have hhere := hon.here h
      obtain ⟨hturns, hrest⟩ := ih (hhere.turn h) h.turn
      rw [turns_of_ne_nil hs]
      exact ⟨⟨h.punctual hhere, hturns⟩, by simpa using hrest⟩

/-- The clock that comes to the first deadline keeps everybody on time. -/
theorem OnTime.awake {target : Nat} {p : Due} (hon : s.OnTime ms) (hs : s.runnable = [])
    (hp : popDue target s.parked = some p) : (s.awake p).OnTime ms := by
  obtain ⟨before, after, hparked, hearliest⟩ := popDue_eq_some_iff.1 hp
  intro t c wait rest hr
  have hr : ⟨t, .resume c wait :: rest⟩ ∈ s.everyone :=
    (everyone_awake hparked hearliest.others).subset hr
  obtain ⟨now, want, hu, hserves, hahead⟩ := hon t c wait rest hr
  refine ⟨now, want, hu, hserves, fun d hd => ⟨(hahead d hd).1, ?_⟩⟩
  obtain ⟨z, hz, hwake⟩ : ∃ z ∈ s.parked, z.wake = ⟨t, .resume c wait :: rest⟩ := by
    simpa [everyone, hs] using hr
  cases hwake
  exact max_le (hahead d hd).2 (le_of_earliest hearliest (hparked ▸ hz) hd)

/-- **The clock keeps everybody on time**, and every moment on the way is punctual. -/
theorem OnTime.advance {target : Nat} (hon : s.OnTime ms) (h : s.Lawful) (hs : s.runnable = []) :
    Along Punctual ms (s.turnsUntil target) ∧
      (s.advance target).OnTime (ms ++ s.turnsUntil target) := by
  fun_induction System.advance s target generalizing ms with
  | case1 s hp =>
      rw [turnsUntil_of_none hp, List.append_nil]
      refine ⟨trivial, fun t c wait rest hr => ?_⟩
      obtain ⟨now, want, hu, hserves, hahead⟩ := hon t c wait rest hr
      refine ⟨now, want, hu, hserves, fun d hd => ⟨(hahead d hd).1, ?_⟩⟩
      obtain ⟨z, hz, hwake⟩ : ∃ z ∈ s.parked, z.wake = ⟨t, .resume c wait :: rest⟩ := by
        simpa [everyone, hs] using hr
      cases hwake
      exact Nat.le_of_lt (popDue_eq_none_iff.1 hp z hz d hd)
  | case2 s p hp ih =>
      obtain ⟨before, after, hparked, hearliest⟩ := popDue_eq_some_iff.1 hp
      have hne : (s.awake p).runnable ≠ [] := List.cons_ne_nil _ _
      obtain ⟨hturns, hsettled⟩ :=
        (hon.awake hs hp).settle (h.awake hs hparked hearliest.others)
      rw [settle_of_ne_nil hne, ← rouse_eq_turn] at hsettled
      obtain ⟨hlater, hrest⟩ := ih hsettled (h.settle_rouse hs hp) (runnable_settle _)
      have hsplit : s.turnsUntil target =
          (s.awake p).turns ++ (s.rouse p).settle.turnsUntil target := by
        rw [turnsUntil_of_some hp, turns_of_ne_nil hne, ← rouse_eq_turn]
      rw [hsplit, ← List.append_assoc]
      exact ⟨along_append.2 ⟨hturns, hlater⟩, hrest⟩

/-- What the journal says plays no part. -/
theorem OnTime.clear (hon : s.OnTime ms) : s.clear.OnTime ms := hon

/-- Who is about to start calls does not wait. -/
theorem OnTime.enlist (hon : s.OnTime ms) (u : ThreadId) (calls : List Call) :
    (s.enlist u calls).OnTime ms := by
  intro t c wait rest hr
  rw [everyone_enlist] at hr
  rcases List.mem_append.1 hr with hr | hr
  · exact hon t c wait rest hr
  · have htasks : .resume c wait :: rest = calls.map Task.start :=
      congrArg Runner.tasks (List.mem_singleton.1 hr)
    cases calls <;> cases htasks

/-- **A step keeps everybody on time**, and every moment of it is punctual. -/
theorem OnTime.take (hon : s.OnTime ms) (h : s.Lawful) (hs : s.runnable = []) (step : Step) :
    Along Punctual ms (s.turnsIn step) ∧ (s.take step).1.OnTime (ms ++ s.turnsIn step) := by
  cases step with
  | advance ns => exact hon.clear.advance h.clear hs
  | perform t calls =>
      cases ht : s.isParked t with
      | true =>
          rw [take_of_parked ht, turnsIn, if_pos ht, List.append_nil]
          exact ⟨trivial, hon.clear⟩
      | false =>
          rw [take_of_not_parked ht, turnsIn, if_neg (ne_true_of_eq_false ht)]
          exact (hon.clear.enlist t calls).settle (h.clear.enlist hs ht calls)

end System

/-- **Scripts keep everybody on time**, and each of their moments is punctual. -/
theorem punctual_moments {s : System} {ms : List System} (hon : s.OnTime ms) (h : s.Lawful)
    (hs : s.runnable = []) (steps : List Step) :
    Along System.Punctual ms (moments s steps) ∧
      (s.takeAll steps).OnTime (ms ++ moments s steps) := by
  induction steps generalizing s ms with
  | nil =>
      rw [moments, List.append_nil]
      exact ⟨trivial, hon⟩
  | cons step steps ih =>
      obtain ⟨hturns, htaken⟩ := hon.take h hs step
      obtain ⟨hlater, hrest⟩ := ih htaken (h.take hs step) (System.runnable_take hs)
      rw [moments, ← List.append_assoc]
      exact ⟨along_append.2 ⟨hturns, hlater⟩, hrest⟩

/-- **Deadlines are kept.**  At every moment of a script and after it, whoever waits keeps to the
one deadline of its call, in both waits of a close.  A call gives up only when the clock stands at
its deadline and only if it cannot have what it wants right then.  If it can, even at the deadline,
it succeeds, a close provided that the sink of the log does not fail. -/
theorem deadlines_are_kept (gates events : Nat) (silent : Bool) (steps : List Step) :
    (∀ (i : Nat) (s : System), (moments (System.fresh gates events silent) steps)[i]? = some s →
        s.Punctual ((moments (System.fresh gates events silent) steps).take (i + 1))) ∧
      ((System.fresh gates events silent).takeAll steps).OnTime
        (moments (System.fresh gates events silent) steps) := by
  have hfresh : (System.fresh gates events silent).OnTime [] := by
    intro t c wait rest hr
    cases hr
  obtain ⟨hmoments, hrest⟩ :=
    punctual_moments hfresh (System.lawful_fresh gates events silent) rfl steps
  exact ⟨fun i s hi => by simpa using hmoments.at hi, by simpa using hrest⟩

/-- Thread `b` closes with ten milliseconds while `a` is closer and inside.  It waits for `a` to
open the gate, claims it, and waits for `a` to leave, until the same deadline.  There it gives up,
and `c`, which wants to enter until that very instant, is woken by that and gets in. -/
theorem deadlines_are_kept_of_rollback :
    let a : ThreadId := ⟨"a"⟩
    let b : ThreadId := ⟨"b"⟩
    let c : ThreadId := ⟨"c"⟩
    let close : Call := .single { label := 1 } (.closeFor (.millis 10))
    let enter : Call := .single { label := 2 } (.enterFor (.millis 7))
    let steps := [.perform a [.single {} (.closeFor .infinite), .single {} (.enterFor .infinite)],
      .perform b [close], .advance 3000000, .perform a [.single {} .reopen], .perform c [enter],
      .advance 8000000]
    let wants : Want := .hold .close (.millis 10)
    let s : System := ⟨⟨[⟨1, 1, some b, [(a, 1)]⟩], [], {}, [], 10000000, 0, false, []⟩,
      [⟨c, enter, .gate 0 (.entry (.millis 7) (some 10000000)), []⟩],
      [⟨b, [.resume close (.gate 0 (.drain (some 10000000)))]⟩]⟩
    (moments (System.fresh 1 0 false) steps)[8]? = some s ∧
      Underway ((moments (System.fresh 1 0 false) steps).take 9) b close 0 wants
        (some 10000000) ∧
      s.world.Reports s.turn.world b close (.flag false) ∧ ¬wants.Met s.world b close ∧
      (moments (System.fresh 1 0 false) steps)[10]? = some s.turn.turn ∧
      s.turn.turn.world.Reports s.turn.turn.turn.world c enter (.flag true) := by
  intro a b c close enter steps wants s
  obtain ⟨hpunctual, -⟩ := deadlines_are_kept 1 0 false steps
  have hs : (moments (System.fresh 1 0 false) steps)[8]? = some s := by cbv
  have hlater : (moments (System.fresh 1 0 false) steps)[10]? = some s.turn.turn := by cbv
  have hclose : Underway ((moments (System.fresh 1 0 false) steps).take 9) b close 0 wants
      (some 10000000) := ⟨by cbv, rfl, rfl⟩
  have hgivesUp : s.world.Reports s.turn.world b close (.flag false) :=
    ⟨some (Gate.Note.rolledBack 1).record, false, false, by cbv⟩
  have hfails := ((hpunctual 8 s hs).refuses rfl (.inr ⟨_, rfl⟩) hclose hgivesUp).2
  have henter : Underway ((moments (System.fresh 1 0 false) steps).take 11) c enter 3000000
      (.hold .entry (.millis 7)) (some 10000000) := ⟨by cbv, rfl, rfl⟩
  have hfirst : s.turn.turn.runnable =
      [⟨c, [.resume enter (.gate 0 (.entry (.millis 7) (some 10000000)))]⟩] := by cbv
  have hmet : (Want.hold .entry (.millis 7)).Met s.turn.turn.world c enter :=
    ⟨⟨1, 0, none, [(a, 1)]⟩, by cbv, .inl rfl⟩
  have hgets := (hpunctual 10 s.turn.turn hlater).gets hfirst (.inr ⟨_, rfl⟩) henter hmet
    fun _ hkind => by cases hkind
  rcases hgets with hsuccess | ⟨hguard, -⟩
  · exact ⟨hs, hclose, hgivesUp, hfails, hlater, hsuccess⟩
  · cases hguard

/-- Nobody else has been at the gate, so a close without any time can have it right away; but the
sink of the log fails on the record of the success, and the close does not say that it succeeded. -/
theorem denied_at_deadline :
    let a : ThreadId := ⟨"a"⟩
    let close : Call := .single { label := 1 } (.closeFor (.millis 0))
    let steps := [.perform a [.single {} (.failRecords 1)], .perform a [close]]
    let wants : Want := .hold .close (.millis 0)
    let s : System := ⟨⟨[{}], [], {}, [], 0, 1, false, []⟩, [], [⟨a, [.start close]⟩]⟩
    (moments (System.fresh 1 0 false) steps)[2]? = some s ∧
      Underway ((moments (System.fresh 1 0 false) steps).take 3) a close 0 wants (some 0) ∧
      wants.Met s.world a close ∧
      results 1 (run 1 0 false steps) = [.panicked .sinkFailed] := by
  intro a close steps wants s
  have hs : (moments (System.fresh 1 0 false) steps)[2]? = some s := by cbv
  have hresults : results 1 (run 1 0 false steps) = [.panicked .sinkFailed] := by cbv
  exact ⟨hs, ⟨by cbv, rfl, rfl⟩, ⟨{}, rfl, .inl rfl, fun _ _ => rfl⟩, hresults⟩

end ReentrantGate.Script
