/-
**A sink that fails changes only the reply.**

The sink of the log is foreign code, called with the lock held, and it may fail.  Two runs are
compared here that differ in nothing but what their sinks do.  They pass through the same crowds:
the same gate, the same threads parked and woken in the same order, the same clock.  A stint whose
note the sink refuses lacks the note and ends with unwinding; every other stint, before or after it,
is the same in both runs, although the lock is poisoned in one of them.

Main definitions:

* `Gate.Courtyard.calmed` — a run whose sinks take every note.

Main results:

* `Gate.Courtyard.act_congr`, `Gate.Courtyard.run_congr` — poison makes no difference;
* `Gate.Courtyard.act_under`, `Gate.Courtyard.run_under` — an action and a run under other sinks;
* `Gate.Courtyard.sink_changes_only_reply` — **a sink that fails changes only the reply**.
-/

import ReentrantGate.Proofs.Gate.Stint

set_option relaxedAutoImplicit false
set_option autoImplicit false

namespace ReentrantGate.Gate.Courtyard

variable {y z : Courtyard} {sink : Sink} {a : Action}

/-! ### Poison -/

theorem stint_congr (h : y.crowd = z.crowd) (sink : Sink) (t : ThreadId) (hold : Hold)
    (started : Option Call) (rest : Crowd) (routine : Locked Outcome) :
    seen (y.stint sink t hold started rest routine) =
      seen (z.stint sink t hold started rest routine) := by
  simp only [stint, recover_lock, h, seen]

/-- **Poison makes no difference to an action.** -/
theorem act_congr (h : y.crowd = z.crowd) (sink : Sink) (a : Action) :
    (y.act sink a).map seen = (z.act sink a).map seen := by
  cases a with
  | call t call =>
      simp only [act, h]
      split
      · cases call.request with
        | error refusal => simp [seen, h]
        | ok r => simp only [Option.map_some, stint_congr h]
      · rfl
  | resume t =>
      simp only [act, h]
      split
      · rfl
      · simp only [Option.map_some, stint_congr h]
  | rouse t =>
      simp only [act, h, Option.map_map]
      rfl
  | tick ns =>
      simp only [act, h, Option.map_map]
      rfl

/-! ### Sinks -/

/-- **An action under another sink** leads to the same crowd, and its stint is the same stint under
that sink. -/
theorem act_under (h : y.crowd.Orderly) (hz : y.crowd = z.crowd) (sink : Sink) (a : Action) :
    (y.act sink a).map seen =
      (z.act .accepting a).map fun p => (p.1.crowd, p.2.map (·.under sink)) := by
  have hcalm : (z.act .accepting a).map (fun p => (p.1.crowd, p.2.map (·.under sink))) =
      ((y.act .accepting a).map seen).map fun p => (p.1, p.2.map (·.under sink)) := by
    rw [act_congr hz, Option.map_map]
    rfl
  rw [hcalm]
  cases act_course h a with
  | stuck hstuck => rw [hstuck, hstuck]; rfl
  | still _ _ hstill => rw [hstill, hstill]; rfl
  | refused _ hrefused => rw [hrefused, hrefused]; rfl
  | stretch _ _ hstretch =>
      rw [hstretch, hstretch, Stint.under_accepting]
      rfl

/-- A run with all its sinks taking every note. -/
def calmed (as : List (Sink × Action)) : List (Sink × Action) :=
  as.map fun a => (.accepting, a.2)

/-- **A run under other sinks** leads to the same crowd, and each of its stints is the same stint
under the sink that it had. -/
theorem run_under (h : y.crowd.Orderly) (hz : y.crowd = z.crowd) (as : List (Sink × Action)) :
    (y.run as).map seen = (z.run (calmed as)).map fun p =>
      (p.1.crowd, List.zipWith (fun a o => o.map (Stint.under a.1)) as p.2) := by
  induction as generalizing y z with
  | nil => simp [run, seen, calmed, hz]
  | cons a as ih =>
      have hact := act_under h hz a.1 a.2
      have hcons : calmed (a :: as) = (.accepting, a.2) :: calmed as := rfl
      rw [hcons, run, run]
      cases hq : z.act .accepting a.2 with
      | none =>
          rw [hq, Option.map_none, Option.map_eq_none_iff] at hact
          rw [hact]
          rfl
      | some q =>
          rw [hq, Option.map_some, Option.map_eq_some_iff] at hact
          obtain ⟨p, hp, hpq⟩ := hact
          simp only [seen, Prod.mk.injEq] at hpq
          -- the rest of both runs starts from the same crowd again
          have hlater := ih (orderly_of_act h hp) hpq.1
          have hfirst : ((p.1.run as).map fun r => (r.1, p.2 :: r.2)).map seen =
              ((p.1.run as).map seen).map fun r => (r.1, p.2 :: r.2) := by
            rw [Option.map_map, Option.map_map]
            rfl
          rw [hp, Option.bind_some, hfirst, hlater, hpq.2]
          simp only [Option.bind_some, Option.map_map]
          rfl

/-- **Poison makes no difference to a run**, whatever the sinks do in it. -/
theorem run_congr (h : y.crowd.Orderly) (hz : y.crowd = z.crowd) (as : List (Sink × Action)) :
    (y.run as).map seen = (z.run as).map seen := by
  rw [run_under h hz, run_under (hz ▸ h) rfl]

/-! ### Failing sinks -/

/-- **A sink that fails changes only the reply.**  After any run, with any number of failing sinks:

* whatever a sink does in the next action, the crowd after it is the one after the same action with
  a sink that takes every note, and its stint is the same but for the failing note and the reply;
* nothing that can happen after that is different, the poisoned lock notwithstanding;
* the run itself is like the run in which no sink fails, and so leads to a crowd that can come about
  at a gate, which is in order and settled. -/
theorem sink_changes_only_reply {as : List (Sink × Action)} {history : List (Option Stint)}
    (h : run {} as = some (y, history)) :
    (∀ sink a, (y.act sink a).map seen =
      (y.act .accepting a).map fun p => (p.1.crowd, p.2.map (·.under sink))) ∧
    (∀ sink a failed calm o o', y.act sink a = some (failed, o) →
      y.act .accepting a = some (calm, o') →
      failed.crowd = calm.crowd ∧
        ∀ later, (failed.run later).map seen = (calm.run later).map seen) ∧
    (∃ calm record, run {} (calmed as) = some (calm, record) ∧ calm.crowd = y.crowd ∧
      history = List.zipWith (fun a o => o.map (Stint.under a.1)) as record) ∧
    y.crowd.Reachable ∧ y.crowd.Orderly ∧ y.crowd.Settled := by
  have hreach := run_reachable h
  have ho := hreach.orderly
  refine ⟨act_under ho rfl, ?_, ?_, hreach, ho, hreach.settled⟩
  · intro sink a failed calm o o' hf hc
    have hact := act_under ho rfl sink a
    rw [hf, hc] at hact
    simp only [Option.map_some, seen, Option.some.injEq, Prod.mk.injEq] at hact
    exact ⟨hact.1, run_congr (orderly_of_act ho hf) hact.1⟩
  · have hrun := run_under Crowd.orderly_fresh (rfl : crowd {} = crowd {}) as
    rw [h, Option.map_some, eq_comm, Option.map_eq_some_iff] at hrun
    obtain ⟨⟨calm, record⟩, hc, hr⟩ := hrun
    simp only [seen, Prod.mk.injEq] at hr
    exact ⟨calm, record, hc, hr.1, hr.2.symm⟩

/-- A close of `b` gives up while `a` is inside, with a sink that fails on the note about it.  The
claim is gone and `c`, which was parked behind it, has been woken, as without the failure; only the
lock is poisoned, which nobody notices. -/
theorem sink_changes_only_reply_of_roll_back :
    let y : Courtyard :=
      ⟨⟨⟨1, 1, some ⟨"b"⟩, [(⟨"a"⟩, 1)]⟩, [⟨⟨"c"⟩, .entry .infinite none⟩],
        [⟨⟨"b"⟩, .drain (some 1000000)⟩], 1000000⟩, false⟩
    let after : Crowd :=
      ⟨⟨1, 0, none, [(⟨"a"⟩, 1)]⟩, [], [⟨⟨"c"⟩, .entry .infinite none⟩], 1000000⟩
    (∃ history, run {} [(.accepting, .call ⟨"a"⟩ (.enterFor .infinite)),
        (.accepting, .call ⟨"b"⟩ (.close 1)), (.accepting, .call ⟨"c"⟩ (.enter (-1))),
        (.accepting, .tick 1000000), (.accepting, .rouse ⟨"b"⟩)] = some (y, history)) ∧
      y.act (fun _ => true) (.resume ⟨"b"⟩) = some (⟨after, true⟩,
        some ⟨⟨"b"⟩, .close, none, rollingBack ⟨"b"⟩, .replied (.unwound .sinkFailed)⟩) ∧
      ∀ later, (run ⟨after, true⟩ later).map seen = (run ⟨after, false⟩ later).map seen := by
  intro y after
  refine (fun h => ⟨⟨_, h⟩, rfl, fun later => ?_⟩) rfl
  exact ((sink_changes_only_reply h).2.1 (fun _ => true) (.resume ⟨"b"⟩) ⟨after, true⟩
    ⟨after, false⟩ _ _ rfl rfl).2 later

end ReentrantGate.Gate.Courtyard
