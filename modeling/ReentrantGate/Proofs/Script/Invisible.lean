/-
**A timed out enter is invisible.**

With a visit that gives up and without it a script is answered the same, step by step, but for the
visitor and its farewell.  When its call is over the visitor is gone without a trace.

Main definitions:

* `Script.Visit.Omits` — an answer, and the same without the visit;
* `Script.Visit.Vanishes`, `Script.Visit.Unnoticed` — the answers to a script and its moments, with
  a visit and without.

Main results:

* `Script.Visit.Hides.answers` — **the steps of the others are answered as if the visitor were not
  there**;
* `Script.Visit.Hides.clear_eq` — the visitor is gone when its call is over;
* `Script.Visit.vanishes` — **a timed out enter is invisible to everyone else**.
-/

import Mathlib
import ReentrantGate.Proofs.Script.Beside
import ReentrantGate.Proofs.Script.Relabel

set_option relaxedAutoImplicit false
set_option autoImplicit false

namespace ReentrantGate.Script

namespace Visit

variable {v : Visit}

/-! ### Answers -/

/-- Names are sorted the same without some of them. -/
theorem filter_mergeSort (p : String → Bool) (names : List String) :
    (names.filter p).mergeSort = names.mergeSort.filter p := by
  have htrans : ∀ x y z : String, decide (x ≤ y) = true → decide (y ≤ z) = true →
      decide (x ≤ z) = true := by
    intro x y z hxy hyz
    rw [decide_eq_true_eq] at *
    exact le_trans hxy hyz
  have htotal : ∀ x y : String, (decide (x ≤ y) || decide (y ≤ x)) = true := by
    intro x y
    simpa using le_total x y
  have hsorted := List.pairwise_mergeSort htrans htotal names
  refine List.Perm.eq_of_pairwise ?_ (List.pairwise_mergeSort htrans htotal _) (hsorted.filter p) ?_
  · intro x y _ _ hxy hyx
    rw [decide_eq_true_eq] at hxy hyx
    exact le_antisymm hxy hyx
  · exact (List.mergeSort_perm _ _).trans ((List.mergeSort_perm names _).symm.filter p)

variable (v) in
/-- **An answer without the visit**: `y` is `x` but for the farewell, and the visitor is not
parked. -/
structure Omits (y x : Answer) : Prop where
  journal : v.Tells x.journal y.journal
  parked : y.parked = x.parked.filter (· ≠ v.thread.name)
  clock : y.clock = x.clock
  gates : y.gates = x.gates
  busy : y.busy = x.busy

namespace Hides

variable {a b : System}

theorem observe (h : v.Hides b a) (hc : b.world.clock = a.world.clock) (busy : Bool) :
    v.Omits (b.observe busy) (a.observe busy) where
  journal := h.tells
  parked := by
    have hname : ∀ z : Sleeper,
        decide (z.thread ≠ v.thread) = decide (z.thread.name ≠ v.thread.name) := by
      intro z
      obtain ⟨⟨name⟩, call, wait, rest⟩ := z
      obtain ⟨⟨name'⟩, site, timeout⟩ := v
      simp
    simp only [System.observe, h.parked, ← filter_mergeSort, List.filter_map, hname,
      Function.comp_def]
  clock := hc
  gates := by
    simp only [System.observe]
    rw [h.eq_journal hc]
  busy := rfl

/-- **The steps of the others are answered as if the visitor were not there.** -/
theorem answers {steps : List Step} (h : v.Hides b a) (hr : a.runnable = [])
    (hc : b.world.clock = a.world.clock) (hne : ∀ cs, .perform v.thread cs ∉ steps)
    (hcalls : called v.site.label steps = [])
    (hg : ∀ r ∈ results v.site.label (answers a steps), r = .flag false) :
    List.Forall₂ v.Omits (Script.answers b steps) (Script.answers a steps) ∧
      List.Forall₂ (System.Beside v.thread) (moments b steps)
        (System.ofOthers v.thread (moments a steps)) ∧
      v.Hides (b.takeAll steps) (a.takeAll steps) ∧
      (b.takeAll steps).world.clock = (a.takeAll steps).world.clock := by
  induction steps generalizing a b with
  | nil => exact ⟨.nil, .nil, h, hc⟩
  | cons step steps ih =>
      simp only [called, List.flatMap_cons, List.filter_append, List.append_eq_nil_iff] at hcalls
      simp only [Script.answers, results, List.flatMap_cons, List.mem_append] at hg
      have hstep : ∀ cs, step ≠ .perform v.thread cs := by
        rintro cs rfl
        exact hne cs List.mem_cons_self
      have hcount : step.calls.countP (·.site.label = v.site.label) = 0 := by
        rw [List.countP_eq_length_filter, hcalls.1, List.length_nil]
      obtain ⟨hnext, hbusy, hclock, hturns⟩ :=
        h.take hr hc hstep hcount fun r hr => hg r (.inl hr)
      obtain ⟨hanswers, hmoments, hlast, hclocks⟩ :=
        ih hnext (System.runnable_take hr) hclock
          (fun cs hmem => hne cs (List.mem_cons_of_mem _ hmem)) hcalls.2 fun r hr => hg r (.inr hr)
      have hanswer := hnext.observe hclock (a.take step).2
      simp only [Script.answers, moments, System.ofOthers_append, System.takeAll_cons, hbusy]
      exact ⟨.cons hanswer hanswers, List.rel_append hturns hmoments, hlast, hclocks⟩

end Hides

/-! ### After the visit -/

namespace Hides

variable {a b : System}

/-- When nothing is to be reported of the visit any more, and everything is at rest, the visitor is
gone. -/
theorem clear_eq (h : v.Hides b a) (hr : a.runnable = []) (hc : b.world.clock = a.world.clock)
    (hp : a.pending v.site.label = 0) : b.clear = a.clear := by
  have hnobody : ∀ r ∈ a.everyone, r.thread ≠ v.thread := by
    intro r hmem ht
    have hpending := le_weigh_of_mem (fun r => Task.pendings v.site.label r.tasks) hmem
    have hown := h.own r hmem ht
    simp only [System.everyone, hr, List.append_nil] at hmem
    obtain ⟨z, -, rfl⟩ := List.mem_map.1 hmem
    have hone := hown.pendings_eq
    simp only [System.pending] at hp
    simp only [Sleeper.wake] at hpending
    omega
  obtain ⟨hparked, hrunnable⟩ := h.toWithout.eq_of_nobody hnobody
  simp only [System.clear, hparked, hrunnable]
  rw [h.eq_journal hc]

end Hides

end Visit

namespace System

/-- A step starts with an empty journal anyway. -/
theorem take_clear (s : System) (step : Step) : s.clear.take step = s.take step := by
  cases step <;> rfl

theorem turnsIn_clear (s : System) (step : Step) : s.clear.turnsIn step = s.turnsIn step := by
  cases step <;> rfl

end System

theorem answers_clear (s : System) (steps : List Step) :
    answers s.clear steps = answers s steps := by
  cases steps with
  | nil => rfl
  | cons step steps => rw [answers, answers, System.take_clear]

theorem moments_clear (s : System) (steps : List Step) :
    moments s.clear steps = moments s steps := by
  cases steps with
  | nil => rfl
  | cons step steps => rw [moments, moments, System.take_clear, System.turnsIn_clear]

theorem clear_takeAll_clear (s : System) (steps : List Step) :
    (s.clear.takeAll steps).clear = (s.takeAll steps).clear := by
  cases steps with
  | nil => rfl
  | cons step steps => rw [System.takeAll_cons, System.takeAll_cons, System.take_clear]

theorem called_append (label : Nat) (steps later : List Step) :
    called label (steps ++ later) = called label steps ++ called label later := by
  simp only [called, List.flatMap_append, List.filter_append]

theorem results_append (label : Nat) (as bs : List Answer) :
    results label (as ++ bs) = results label as ++ results label bs := by
  simp only [results, List.flatMap_append]

/-! ### The whole script -/

namespace Visit

/-- The visit with another label. -/
def relabel (f : Nat → Nat) (v : Visit) : Visit := { v with site := v.site.relabel f }

/-- **A visit vanishes**: the answers `ys` are the answers `xs` without that to the visit, which
comes after `n` others.  The next `m` answers omit the visit, and all that come before or later are
the same. -/
def Vanishes (v : Visit) (n m : Nat) (xs ys : List Answer) : Prop :=
  ∃ first own during others last,
    xs = first ++ own :: (during ++ last) ∧ ys = first ++ (others ++ last) ∧
      first.length = n ∧ during.length = m ∧ v.Tells own.journal [] ∧
      List.Forall₂ v.Omits others during

/-- **Nobody else notices a visit**: of the moments `xs` of a script with a visit, those in which
others take their turns are the moments `ys` without it, but for the visitor.  The moments `first`
come before the visit. -/
def Unnoticed (v : Visit) (first xs ys : List System) : Prop :=
  ∃ turns others later, xs = first ++ (turns ++ later) ∧ ys = first ++ (others ++ later) ∧
    List.Forall₂ (System.Beside v.thread) others (System.ofOthers v.thread turns)

theorem called_step (v : Visit) : called v.site.label [v.step] = [v.call] := by
  simp [called, step, Step.calls, Call.allOf, call, Call.all, Call.site]

/-- What is known when the visit starts: nothing has been reported of it, and of its steps only that
it timed out. -/
theorem start (v : Visit) {s : System} {during : List Step} (hp : s.pending v.site.label = 0)
    (hduring : called v.site.label during = [])
    (hresult : .flag false ∈ results v.site.label (answers s (v.step :: during))) :
    s.isParked v.thread = false ∧
      ∀ r ∈ results v.site.label (answers s (v.step :: during)), r = .flag false := by
  have hcalled : called v.site.label (v.step :: during) = [v.call] := by
    have happend := called_append v.site.label [v.step] during
    rwa [called_step, hduring, List.append_nil] at happend
  constructor
  · -- if the thread were parked, the step would be skipped and nothing reported
    by_contra hparked
    rw [Bool.not_eq_false] at hparked
    have hskipped :
        answers s (v.step :: during) = s.clear.observe true :: answers s.clear during := by
      rw [answers, step, System.take_of_parked hparked]
    have hle := length_results_answers_le v.site.label s.clear during
    rw [hduring, List.length_nil] at hle
    have hsame : s.clear.pending v.site.label = s.pending v.site.label := rfl
    have hnone : results v.site.label (answers s.clear during) = [] :=
      List.length_eq_zero_iff.1 (by omega)
    rw [hskipped] at hresult
    simp only [results, List.flatMap_cons] at hresult hnone
    rw [hnone, List.append_nil] at hresult
    cases hresult
  · have hle := length_results_answers_le v.site.label s (v.step :: during)
    rw [hcalled, List.length_singleton] at hle
    have hpos := List.length_pos_of_mem hresult
    have hlength : (results v.site.label (answers s (v.step :: during))).length = 1 := by omega
    obtain ⟨r, hone⟩ := List.length_eq_one_iff.1 hlength
    rw [hone] at hresult ⊢
    intro r' hr'
    rw [List.mem_singleton.1 hr', ← List.mem_singleton.1 hresult]

/-- Before the visitor has taken its first turn it is there already. -/
theorem hides_start (v : Visit) {s : System} (hr : s.runnable = [])
    (hp : s.pending v.site.label = 0) (ht : s.isParked v.thread = false) :
    v.Hides s.clear (s.clear.enlist v.thread [v.call]) := by
  have hothers : ∀ r ∈ s.clear.everyone, r.thread ≠ v.thread := by
    intro r hmem
    simp only [System.everyone, System.clear, hr, List.append_nil] at hmem
    obtain ⟨z, hz, rfl⟩ := List.mem_map.1 hmem
    have hfalse := List.any_eq_false.1 ht z hz
    rw [decide_eq_true_eq] at hfalse
    exact hfalse
  have hwithout := System.Without.of_nobody hothers
  constructor
  · refine ⟨rfl, hwithout.parked, ?_⟩
    simp [System.enlist, System.clear, hr]
  · intro r hmem hthread
    rcases List.mem_append.1 hmem with hmem | hmem
    · exact absurd hthread (hothers r (List.mem_append_left _ hmem))
    · rcases List.mem_append.1 hmem with hmem | hmem
      · exact absurd hthread (hothers r (List.mem_append_right _ hmem))
      · rw [List.mem_singleton.1 hmem]
        exact .start
  · have hone : (Call.allOf [v.call]).countP (·.site.label = v.site.label) = 1 := by
      simp [Call.allOf, call, Call.all, Call.site]
    rw [System.account_enlist, System.account_clear, hp, hone]
  · exact .inl rfl

/-- **From the step of the visit on**: the system after it, the answers, the moments, and the two
systems in the end. -/
theorem go (v : Visit) {s : System} {steps : List Step} (hr : s.runnable = [])
    (hp : s.pending v.site.label = 0) (hsteps : called v.site.label steps = [])
    (hothers : ∀ cs, .perform v.thread cs ∉ steps)
    (hresult : .flag false ∈ results v.site.label (answers s (v.step :: steps))) :
    v.Tells (s.take v.step).1.world.journal [] ∧
      List.Forall₂ v.Omits (answers s steps) (answers (s.take v.step).1 steps) ∧
      List.Forall₂ (System.Beside v.thread) (moments s steps)
        (System.ofOthers v.thread (moments s (v.step :: steps))) ∧
      (s.takeAll steps).clear = (s.takeAll (v.step :: steps)).clear := by
  obtain ⟨ht, hgives⟩ := v.start hp hsteps hresult
  have htake : s.take v.step = ((s.clear.enlist v.thread [v.call]).settle, false) :=
    System.take_of_not_parked ht _
  have hturnsIn : s.turnsIn v.step = (s.clear.enlist v.thread [v.call]).turns :=
    if_neg (ne_true_of_eq_false ht)
  -- the one call with this label has been reported
  have hpending : (s.takeAll (v.step :: steps)).pending v.site.label = 0 := by
    have hle := length_results_answers_le v.site.label s (v.step :: steps)
    have hcalled := called_append v.site.label [v.step] steps
    rw [called_step, hsteps, List.append_nil, List.singleton_append] at hcalled
    have hpos := List.length_pos_of_mem hresult
    rw [hcalled, List.length_singleton] at hle
    omega
  simp only [answers, results, List.flatMap_cons, List.mem_append] at hgives
  rw [System.takeAll_cons] at hpending ⊢
  rw [moments, hturnsIn, System.ofOthers_append]
  rw [htake] at hgives hpending ⊢
  obtain ⟨hown, hturns⟩ :=
    (v.hides_start hr hp ht).settle (.inl hr) fun r hmem => hgives r (.inl hmem)
  rw [System.settle_of_nil (s := s.clear) hr] at hown
  rw [System.turns_of_nil (s := s.clear) hr, List.forall₂_nil_left_iff] at hturns
  have hclock : s.clear.world.clock = (s.clear.enlist v.thread [v.call]).settle.world.clock := by
    rw [System.clock_settle]
    rfl
  have hrest := System.runnable_settle (s.clear.enlist v.thread [v.call])
  obtain ⟨hanswers, hmoments, hlast, hclocks⟩ :=
    hown.answers hrest hclock hothers hsteps fun r hmem => hgives r (.inr hmem)
  rw [answers_clear] at hanswers
  rw [moments_clear] at hmoments
  rw [hturns, List.nil_append, ← clear_takeAll_clear]
  exact ⟨hown.tells, hanswers, hmoments,
    hlast.clear_eq (System.runnable_takeAll hrest steps) hclocks hpending⟩

variable {v : Visit} {f : Nat → Nat}

theorem Farewell.relabel {lines : List Entry} (h : v.Farewell lines) :
    (v.relabel f).Farewell (lines.map (Entry.relabel f)) := by
  obtain ⟨note, inside, closing, hnote, rfl⟩ := h
  refine ⟨note, inside, closing, hnote, ?_⟩
  cases note <;> rfl

theorem Tells.relabel {journal others : List Entry} (h : v.Tells journal others) :
    (v.relabel f).Tells (journal.map (Entry.relabel f)) (others.map (Entry.relabel f)) := by
  rcases h with rfl | ⟨before, lines, after, hlines, rfl, rfl⟩
  · exact .inl rfl
  · exact .inr ⟨before.map (Entry.relabel f), lines.map (Entry.relabel f),
      after.map (Entry.relabel f), hlines.relabel, by simp, by simp⟩

theorem Omits.relabel {x y : Answer} (h : v.Omits y x) :
    (v.relabel f).Omits (y.relabel f) (x.relabel f) where
  journal := h.journal.relabel
  parked := h.parked
  clock := h.clock
  gates := h.gates
  busy := h.busy

theorem Vanishes.relabel {n m : Nat} {xs ys : List Answer} (h : v.Vanishes n m xs ys) :
    (v.relabel f).Vanishes n m (xs.map (Answer.relabel f)) (ys.map (Answer.relabel f)) := by
  obtain ⟨first, own, during, others, last, rfl, rfl, hn, hm, hown, hduring⟩ := h
  refine ⟨first.map (Answer.relabel f), own.relabel f, during.map (Answer.relabel f),
    others.map (Answer.relabel f), last.map (Answer.relabel f), by simp, by simp, by simpa using hn,
    by simpa using hm, hown.relabel, ?_⟩
  rw [List.forall₂_map_left_iff, List.forall₂_map_right_iff]
  exact hduring.imp fun _ _ h => h.relabel

/-- A call with a label of its own is not called or reported before its step, or called after it. -/
theorem only (v : Visit) {s : System} {before during : List Step} (hs : s.pending v.site.label = 0)
    (hcall : called v.site.label (before ++ v.step :: during) = [v.call])
    (hresult : .flag false ∈ results v.site.label (answers s (before ++ v.step :: during))) :
    (s.takeAll before).pending v.site.label = 0 ∧ called v.site.label during = [] ∧
      .flag false ∈ results v.site.label (answers (s.takeAll before) (v.step :: during)) := by
  have hstep := called_append v.site.label [v.step] during
  rw [called_step, List.singleton_append] at hstep
  rw [called_append, hstep] at hcall
  have hlength := congrArg List.length hcall
  simp only [List.length_append, List.length_cons, List.length_nil] at hlength
  have hle := length_results_answers_le v.site.label s before
  have hnone : results v.site.label (answers s before) = [] :=
    List.length_eq_zero_iff.1 (by omega)
  rw [answers_append, results_append, hnone, List.nil_append] at hresult
  exact ⟨by omega, List.length_eq_zero_iff.1 (by omega), hresult⟩

/-- **A visit that gives up vanishes**, whatever the system was before. -/
theorem vanishes_from (v : Visit) {s : System} {before during : List Step} (hr : s.runnable = [])
    (hs : s.pending v.site.label = 0)
    (hcall : called v.site.label (before ++ v.step :: during) = [v.call])
    (hothers : ∀ cs, .perform v.thread cs ∉ during)
    (hresult : .flag false ∈ results v.site.label (answers s (before ++ v.step :: during)))
    (after : List Step) :
    v.Vanishes before.length during.length (answers s (before ++ v.step :: (during ++ after)))
        (answers s (before ++ (during ++ after))) ∧
      v.Unnoticed (moments s before) (moments s (before ++ v.step :: (during ++ after)))
        (moments s (before ++ (during ++ after))) := by
  obtain ⟨hpending, hduring, hgives⟩ := v.only hs hcall hresult
  have hrest := System.runnable_takeAll hr before
  rw [answers_append, answers_append, moments_append, moments_append]
  generalize s.takeAll before = u at *
  obtain ⟨hown, hanswers, hmoments, hclear⟩ := v.go hrest hpending hduring hothers hgives
  have hlast : answers (u.takeAll during) after = answers (u.takeAll (v.step :: during)) after := by
    rw [← answers_clear, hclear, answers_clear]
  have hlater :
      moments (u.takeAll during) after = moments (u.takeAll (v.step :: during)) after := by
    rw [← moments_clear, hclear, moments_clear]
  constructor
  · refine ⟨answers s before, (u.take v.step).1.observe (u.take v.step).2,
      answers (u.take v.step).1 during, answers u during, answers (u.takeAll during) after, ?_, ?_,
      length_answers s before, length_answers _ during, hown, hanswers⟩
    · rw [hlast, System.takeAll_cons, ← answers_append]
      rfl
    · rw [answers_append]
  · refine ⟨moments u (v.step :: during), moments u during, moments (u.takeAll during) after,
      ?_, ?_, hmoments⟩
    · rw [hlater, ← moments_append, List.cons_append]
    · rw [moments_append]

/-- **A timed out enter is invisible to everyone else.**  In a script let a thread enter a gate with
a timeout, in a step of its own and with a label of its own, and let it take no other step during
the next ones, by the end of which it is reported that it timed out.  Then without that step the
other steps are answered the same, but for the record and the line about the call: with the same
results and records of the others in the same order, the same threads parked but for the visitor,
the same clock and the same gates.  All turns of the others are the same, at the same time and in
the same order.  The label is only a mark, so the answers are the same with any other labels. -/
theorem vanishes (v : Visit) {gates events : Nat} {silent : Bool} {before during : List Step}
    (hcall : called v.site.label (before ++ v.step :: during) = [v.call])
    (hothers : ∀ cs, .perform v.thread cs ∉ during)
    (hresult : .flag false ∈
      results v.site.label (run gates events silent (before ++ v.step :: during)))
    (after : List Step) :
    v.Vanishes before.length during.length
        (run gates events silent (before ++ v.step :: (during ++ after)))
        (run gates events silent (before ++ (during ++ after))) ∧
      v.Unnoticed (moments (System.fresh gates events silent) before)
        (moments (System.fresh gates events silent) (before ++ v.step :: (during ++ after)))
        (moments (System.fresh gates events silent) (before ++ (during ++ after))) ∧
      ∀ f, (v.relabel f).Vanishes before.length during.length
        (run gates events silent ((before ++ v.step :: (during ++ after)).map (Step.relabel f)))
        (run gates events silent ((before ++ (during ++ after)).map (Step.relabel f))) := by
  obtain ⟨hvanishes, hunnoticed⟩ := v.vanishes_from rfl rfl hcall hothers hresult after
  refine ⟨hvanishes, hunnoticed, fun f => ?_⟩
  rw [run_relabel, run_relabel]
  exact hvanishes.relabel

/-- While `c` is closer, `x` and `y` wait to enter.  Thread `c` opens the gate and closes it again
at once, so both are woken for nothing and park again, first `x` and then `y`; then `x` gives up,
and `y` enters when `c` opens.  Without `x` the others are answered the same. -/
theorem vanishes_of_reclosed :
    let c : ThreadId := ⟨"c"⟩
    let x : ThreadId := ⟨"x"⟩
    let v : Visit := ⟨x, { label := 1 }, .millis 5⟩
    let enter (t : ThreadId) : Step := .perform t [.single {} (.enterFor (.millis 20))]
    let close : Call := .single {} (.closeFor .infinite)
    let reopen : Call := .single {} .reopen
    let before := [Step.perform c [close]]
    let during := [enter ⟨"y"⟩, .perform c [reopen, close], .advance 7000000]
    let after := [Step.perform c [reopen], enter x]
    called 1 (before ++ v.step :: during) = [v.call] ∧
      .flag false ∈ results 1 (run 1 0 false (before ++ v.step :: during)) ∧
      v.Vanishes 1 3 (run 1 0 false (before ++ v.step :: (during ++ after)))
        (run 1 0 false (before ++ (during ++ after))) := by
  intro c x v enter close reopen before during after
  have hcall : called 1 (before ++ v.step :: during) = [v.call] := rfl
  have hothers : ∀ cs, Step.perform x cs ∉ during := by
    intro cs hmem
    simp [during, enter, x, c] at hmem
  have hresults : results 1 (run 1 0 false (before ++ v.step :: during)) = [.flag false] := by cbv
  have hresult : .flag false ∈ results 1 (run 1 0 false (before ++ v.step :: during)) := by
    simp [hresults]
  exact ⟨hcall, hresult, (v.vanishes hcall hothers hresult after).1⟩

end Visit

end ReentrantGate.Script
