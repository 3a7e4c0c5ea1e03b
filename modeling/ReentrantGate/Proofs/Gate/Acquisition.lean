/-
**Guards and failing sinks.**

A guard is given with the reply that a hold was granted.  The gate counts the hold earlier, and in
between the sink of the log may fail.  A granted entry is not noted, so it cannot be lost on the way
to its caller.  A granted close is noted wherever it is granted: nested, at once, or after waiting.
If the sink fails on that note, the close is counted and its caller is left without a guard.  That
is the only way in which an attempt that yields no guard can leave something behind.

Main definitions:

* `Gate.Call.guarded`, `Gate.Reply.guard?` — asking for a guard, and what a reply comes with;
* `Gate.Note.tellsGrant` — the notes of closes that were granted;
* `Gate.Crowd.holds` — what a thread holds by the gate;
* `Gate.Courtyard.FailsOn` — the sink fails on the note of an action;
* `Gate.Courtyard.Pending`, `Gate.Courtyard.Ends` — a call from its start to its last stint,
  whatever happens in between;
* `Gate.Attempt` — what an attempt to get a guard leaves behind.

Main results:

* `Gate.Courtyard.Pending.midway` — **a call that waits has changed nothing that its thread holds**;
* `Gate.Courtyard.guard_or_nothing_unless_grant_lost` — **without a guard nothing more is held,
  unless the note of a granted close was lost**;
* `Gate.Courtyard.close_held_without_guard` — such a loss at a fresh gate.
-/

import ReentrantGate.Proofs.Gate.Stint
import ReentrantGate.Proofs.Gate.Turn

set_option relaxedAutoImplicit false
set_option autoImplicit false

namespace ReentrantGate.Gate

/-! ### Guards -/

/-- The call that asks for a guard of a kind. -/
def Call.guarded (timeout : Timeout) : Hold → Call
  | .entry => .enterFor timeout
  | .close => .closeFor timeout

/-- The guard that a reply about a kind of hold comes with. -/
def Reply.guard? (hold : Hold) : Reply → Option Hold
  | .flag true => some hold
  | _ => none

theorem Call.hold_guarded (timeout : Timeout) (hold : Hold) :
    (Call.guarded timeout hold).hold = hold := by
  cases hold <;> rfl

theorem Call.request_guarded (timeout : Timeout) (hold : Hold) :
    ∃ r, (Call.guarded timeout hold).request = .ok r ∧ r.timeout? = some timeout := by
  cases hold with
  | entry => exact ⟨_, rfl, rfl⟩
  | close => exact ⟨_, rfl, rfl⟩

/-! ### What a thread holds -/

namespace Crowd

/-- How many holds of a kind `t` has; a claim that has not drained counts for nothing. -/
def holds (c : Crowd) (t : ThreadId) : Hold → Nat
  | .entry => c.gate.depth t
  | .close => c.closeDepth t

variable {c c' : Crowd} {t : ThreadId} {hold : Hold} {verdict? : Option Verdict}

theorem Turn.holds (h : c.Turn t hold verdict? c') (kind : Hold) :
    (c'.holds t kind : Int) = c.holds t kind + gained kind hold verdict? := by
  cases kind with
  | entry => exact h.depth
  | close => exact h.closeDepth

theorem Alike.holds (h : c.Alike c' t) (kind : Hold) : c'.holds t kind = c.holds t kind := by
  cases kind with
  | entry => exact h.depth
  | close => exact h.closeDepth

/-- Thread `t` is in the middle of a call about `hold`. -/
structure Midway (c : Crowd) (t : ThreadId) (hold : Hold) : Prop where
  present : ∃ v ∈ c.visitors, v.thread = t
  waits : ∀ v ∈ c.visitors, v.thread = t → v.waiting.hold = hold

theorem Midway.not_idle (h : c.Midway t hold) : c.idle t ≠ true := by
  obtain ⟨v, hv, hvt⟩ := h.present
  exact fun hi => idle_iff.1 hi v hv hvt

theorem Midway.of_alike (h : c.Midway t hold) (ha : c.Alike c' t) : c'.Midway t hold where
  present := by
    obtain ⟨v, hv, hvt⟩ := h.present
    exact ⟨v, (ha.mem_iff v hvt).2 hv, hvt⟩
  waits v hv hvt := h.waits v ((ha.mem_iff v hvt).1 hv) hvt

end Crowd

/-! ### Notes of grants -/

/-- Whether a note tells of a close that was granted. -/
def Note.tellsGrant : Note → Bool
  | .nested _ => true
  | .closed _ => true
  | _ => false

section Conducts

variable {g : Gate} {t : ThreadId} {d : Bool} {hold : Hold} {deeds : List Deed} {s : Segment}
  {note : Note}

/-- **A note tells of a grant exactly if there was one**, and then the call was about the close. -/
theorem Conduct.tellsGrant_iff (m : Conduct t g d hold deeds s) (hn : s.note? = some note) :
    (note.tellsGrant = true ↔ s.verdict? = some .granted) ∧
      (note.tellsGrant = true → hold = .close) := by
  cases m with
  | refuse e =>
      cases e with
      | overflow => cases hn
      | _ =>
          cases hn
          simp [Note.tellsGrant, Segment.verdict?]
  | enter _ => cases hn
  | exit _ _ => cases hn
  | lastExit _ _ _ _ => cases hn
  | unnest _ _ => cases hn
  | park _ _ _ => cases hn
  | drain _ _ _ => cases hn
  | stay _ _ _ => cases hn
  | _ =>
      cases hn
      simp [Note.tellsGrant, Segment.verdict?]

/-- With a sink that takes every note, the note of a segment is the only one in its stint. -/
theorem Conduct.log_mem_stint (m : Conduct t g d hold deeds s) (started : Option Call) :
    Deed.log note ∈ (s.stint t hold started deeds).deeds ↔ s.note? = some note := by
  have hnot := m.log_not_mem note
  cases hn : s.note? with
  | none => simp [Segment.stint, hn, hnot]
  | some note' => simp [Segment.stint, hn, hnot, eq_comm]

/-- How a stint ends depends on the sink only through the note. -/
theorem Conduct.ending_under (m : Conduct t g d hold deeds s) (started : Option Call)
    (sink : Sink) :
    ((s.stint t hold started deeds).under sink).ending =
      if s.note?.any sink then .replied (.unwound .sinkFailed) else ending started s.outcome := by
  rw [m.under_stint]
  cases hn : s.note? with
  | none => simp
  | some note => cases hs : sink note <;> simp [hs]

end Conducts

namespace Courtyard

/-! ### Turns behind the lock -/

/-- **The sink fails on a note** that the action would leave in the log if it could. -/
def FailsOn (y : Courtyard) (sink : Sink) (a : Action) (note : Note) : Prop :=
  sink note = true ∧ ∃ z i, y.act .accepting a = some (z, some i) ∧ .log note ∈ i.deeds

/-- **In the stint `i` thread `t` has its turn**: what the segment `s` of a call about `hold` does
to the crowd, how the stint ends, and on which note the sink fails. -/
structure HasTurn (y : Courtyard) (sink : Sink) (a : Action) (t : ThreadId) (hold : Hold)
    (s : Segment) (y' : Courtyard) (i : Stint) : Prop where
  turn : y.crowd.Turn t hold s.verdict? y'.crowd
  thread : i.thread = t
  present : s.verdict? = none → ∃ v ∈ y'.crowd.visitors, v.thread = t
  ending : i.ending =
    if s.note?.any sink then .replied (.unwound .sinkFailed) else Gate.ending i.started s.outcome
  failsOn : ∀ note, y.FailsOn sink a note ↔ s.note? = some note ∧ sink note = true
  tellsGrant : ∀ note, s.note? = some note →
    (note.tellsGrant = true ↔ s.verdict? = some .granted) ∧ (note.tellsGrant = true → hold = .close)

variable {y y' z : Courtyard} {sink : Sink} {a : Action} {t u : ThreadId} {d : Bool}
  {hold kind : Hold} {started : Option Call} {deeds : List Deed} {s : Segment} {rest : Crowd}
  {o : Option Stint} {i : Stint} {call : Call} {r : Request} {reply : Reply}

theorem reachable_of_act (h : y.crowd.Reachable) (ha : y.act sink a = some (y', o)) :
    y'.crowd.Reachable := by
  obtain ⟨b, p, hb⟩ := (act_course h.orderly a).crowd_act ha
  exact h.act hb

/-- A stretch is a turn. -/
theorem Stretch.hasTurn (hs : Stretch y.crowd t hold started d deeds s rest)
    (h : y.crowd.Reachable) (hclock : rest.clock = y.crowd.clock)
    (hact : ∀ sink, (y.act sink a).map seen =
      some (rest.absorb t s, some ((s.stint t hold started deeds).under sink)))
    (ha : y.act sink a = some (y', o)) : ∃ i, o = some i ∧ y.HasTurn sink a t hold s y' i := by
  obtain ⟨hy, ho⟩ := of_seen (hact sink) ha
  have hreach : (rest.absorb t s).Reachable := hy ▸ reachable_of_act h ha
  refine ⟨_, ho, ?_, by simp, fun hv => ?_, ?_, fun note => ?_, fun note hn => ?_⟩
  · exact hy ▸ h.orderly.turn hs.leaves hs.conduct.move hclock hreach
  · cases s with
    | park g w =>
        exact ⟨⟨t, w⟩, hy ▸ Crowd.mem_visitors_absorb.2 (.inl (List.mem_singleton.2 rfl)), rfl⟩
    | done g room note verdict => cases hv
  · rw [hs.conduct.ending_under]
    simp
  · rw [FailsOn, and_comm]
    refine and_congr_left fun _ => ?_
    have hcalm := hact .accepting
    rw [Stint.under_accepting] at hcalm
    constructor
    · rintro ⟨z, i, hz, hi⟩
      obtain ⟨-, hzi⟩ := of_seen hcalm hz
      cases hzi
      exact (hs.conduct.log_mem_stint started).1 hi
    · intro hn
      obtain ⟨⟨z, i⟩, hz, hzi⟩ := Option.map_eq_some_iff.1 hcalm
      obtain ⟨-, rfl⟩ := Prod.mk.inj hzi
      exact ⟨z, _, hz, (hs.conduct.log_mem_stint started).2 hn⟩
  · exact hs.conduct.tellsGrant_iff hn

/-- **The first stint of a call is a turn**, if the call is not refused before. -/
theorem hasTurn_of_call (h : y.crowd.Reachable) (hr : call.request = .ok r)
    (ha : y.act sink (.call t call) = some (y', o)) :
    ∃ i, o = some i ∧
      y.HasTurn sink (.call t call) t call.hold (begin t y.crowd.clock r y.crowd.gate) y' i := by
  have hi : y.crowd.idle t = true := by
    by_contra hi
    simp [act, hi] at ha
  obtain ⟨deeds, hs, hact⟩ := act_call h.orderly hi hr
  exact hs.hasTurn h rfl hact ha

/-- **So is every later one.** -/
theorem hasTurn_of_resume (h : y.crowd.Reachable) (ha : y.act sink (.resume t) = some (y', o)) :
    ∃ v ∈ y.crowd.visitors, v.thread = t ∧ ∃ i, o = some i ∧
      y.HasTurn sink (.resume t) t v.waiting.hold
        (Gate.resume t y.crowd.clock v.waiting y.crowd.gate) y' i := by
  cases hf : y.crowd.woken.find? (·.thread = t) with
  | none => simp [act, hf] at ha
  | some v =>
      obtain ⟨hv, hvt, deeds, hs, hact⟩ := act_resume h.orderly hf
      exact ⟨v, hv, hvt, hs.hasTurn h rfl hact ha⟩

/-- A stint ends with the thread parked only if its segment has no verdict. -/
theorem HasTurn.verdict_of_parked {w : Waiting} (hq : y.HasTurn sink a t hold s y' i)
    (hi : i.ending = .parked w) : s.verdict? = none := by
  cases s with
  | park g w => rfl
  | done g room note verdict =>
      rw [hq.ending] at hi
      split at hi
      · cases hi
      · cases verdict <;> simp [Segment.outcome, Gate.ending] at hi

/-- A stint that tells the caller something is one with a verdict. -/
theorem HasTurn.verdict_of_replied (hq : y.HasTurn sink a t hold s y' i)
    (hi : i.ending = .replied reply) : ∃ verdict, s.verdict? = some verdict := by
  cases s with
  | park g w => simp [hq.ending, Segment.note?, Segment.outcome, Gate.ending] at hi
  | done g room note verdict => exact ⟨verdict, rfl⟩

/-! ### What happens while a call waits -/

/-- **An action of somebody else leaves a thread with what it holds and waits for.** -/
theorem alike_of_act (h : y.crowd.Reachable) (hcall : ∀ call, a ≠ .call u call)
    (hresume : a ≠ .resume u) (ha : y.act sink a = some (y', o)) : y.crowd.Alike y'.crowd u := by
  cases a with
  | call t call =>
      have hu : u ≠ t := by
        rintro rfl
        exact hcall call rfl
      cases hr : call.request with
      | error refusal =>
          obtain rfl : y = y' := by
            rw [act, hr] at ha
            split at ha
            · exact (Prod.mk.inj (Option.some.inj ha)).1
            · cases ha
          exact ⟨rfl, rfl, fun _ _ => Iff.rfl⟩
      | ok r =>
          obtain ⟨i, -, hq⟩ := hasTurn_of_call h hr ha
          exact hq.turn.alike u hu
  | resume t =>
      have hu : u ≠ t := by
        rintro rfl
        exact hresume rfl
      obtain ⟨v, -, -, i, -, hq⟩ := hasTurn_of_resume h ha
      exact hq.turn.alike u hu
  | rouse t =>
      rw [act] at ha
      obtain ⟨p, hp, hy⟩ := Option.map_eq_some_iff.1 ha
      cases hy
      exact (Crowd.act_step h.orderly hp).alike h.orderly (Option.some_ne_none u).symm
  | tick ns =>
      rw [act] at ha
      obtain ⟨p, hp, hy⟩ := Option.map_eq_some_iff.1 ha
      cases hy
      exact (Crowd.act_step h.orderly hp).alike h.orderly (Option.some_ne_none u).symm

/-- **The call that `t` starts at `y` waits at `z`**: it has parked, and whatever has happened
since, in each stint that it had it has parked again. -/
inductive Pending (y : Courtyard) (t : ThreadId) (call : Call) : Courtyard → Prop
  | parked {sink : Sink} {z : Courtyard} {i : Stint} {w : Waiting} :
      y.act sink (.call t call) = some (z, some i) → i.ending = .parked w → Pending y t call z
  | later {z z' : Courtyard} {sink : Sink} {a : Action} {o : Option Stint} : Pending y t call z →
      z.act sink a = some (z', o) → (∀ i ∈ o, i.thread = t → ∃ w, i.ending = .parked w) →
      Pending y t call z'

/-- **The call that `t` starts at `y` ends**: in the action `a` at `z`, with the sink as it is then,
and its caller is told the reply. -/
inductive Ends (y : Courtyard) (t : ThreadId) (call : Call) :
    Courtyard → Sink → Action → Courtyard → Reply → Prop
  | atOnce {sink : Sink} {y' : Courtyard} {i : Stint} {reply : Reply} :
      y.act sink (.call t call) = some (y', some i) → i.ending = .replied reply →
      Ends y t call y sink (.call t call) y' reply
  | afterWaiting {z : Courtyard} {sink : Sink} {y' : Courtyard} {i : Stint} {reply : Reply} :
      Pending y t call z → z.act sink (.resume t) = some (y', some i) →
      i.ending = .replied reply → Ends y t call z sink (.resume t) y' reply

/-- What one action does to a call that waits, if it does not end it. -/
theorem midway_of_act (h : y.crowd.Reachable) (hm : y.crowd.Midway t hold)
    (ha : y.act sink a = some (y', o))
    (hparked : ∀ i ∈ o, i.thread = t → ∃ w, i.ending = .parked w) :
    y'.crowd.Midway t hold ∧ ∀ kind, y'.crowd.holds t kind = y.crowd.holds t kind := by
  by_cases hself : a = .resume t
  · subst hself
    obtain ⟨v, hv, hvt, i, rfl, hq⟩ := hasTurn_of_resume h ha
    obtain ⟨w, hw⟩ := hparked i rfl hq.thread
    have hnone := hq.verdict_of_parked hw
    refine ⟨⟨hq.present hnone, fun x hx hxt => ?_⟩, fun kind => ?_⟩
    · exact ((hq.turn.waits x hx hxt).2).trans (hm.waits v hv hvt)
    · have hholds := hq.turn.holds kind
      rw [hnone, gained] at hholds
      omega
  · -- a thread in the middle of a call starts no other
    have hcall : ∀ call, a ≠ .call t call := by
      rintro call rfl
      simp [act, hm.not_idle] at ha
    have halike := alike_of_act h hcall hself ha
    exact ⟨hm.of_alike halike, halike.holds⟩

/-- **A call that waits has changed nothing that its thread holds.** -/
theorem Pending.midway (h : y.crowd.Reachable) (hp : Pending y t call z) :
    z.crowd.Reachable ∧ z.crowd.Midway t call.hold ∧
      ∀ kind, z.crowd.holds t kind = y.crowd.holds t kind := by
  induction hp with
  | @parked sink z i w ha hi =>
      cases hr : call.request with
      | error refusal =>
          rw [act, hr] at ha
          split at ha
          · cases ha
            cases hi
          · cases ha
      | ok r =>
          obtain ⟨i', hi', hq⟩ := hasTurn_of_call h hr ha
          cases hi'
          have hnone := hq.verdict_of_parked hi
          refine ⟨reachable_of_act h ha,
            ⟨hq.present hnone, fun v hv hvt => (hq.turn.waits v hv hvt).2⟩, fun kind => ?_⟩
          have hholds := hq.turn.holds kind
          rw [hnone, gained] at hholds
          omega
  | later _ ha hparked ih =>
      obtain ⟨hz, hm, hholds⟩ := ih
      obtain ⟨hm', hholds'⟩ := midway_of_act hz hm ha hparked
      exact ⟨reachable_of_act hz ha, hm', fun kind => (hholds' kind).trans (hholds kind)⟩

end Courtyard

/-! ### Attempts -/

/-- **What an attempt of `t` to get a guard leaves behind**, with the notes that were lost at its
end: it tells whether it got the guard or unwinds, with a guard there is one hold more, and without
one there is nothing more, unless the note of a granted close was lost.  Then there is one close
more. -/
structure Attempt (before after : Crowd) (t : ThreadId) (hold : Hold) (reply : Reply)
    (Lost : Note → Prop) : Prop where
  told : (∃ success, reply = .flag success) ∨ ∃ panic, reply = .unwound panic
  given : reply.guard? hold = some hold →
    ∀ kind, after.holds t kind = before.holds t kind + if kind = hold then 1 else 0
  nothing : reply.guard? hold = none →
    ((∀ kind, after.holds t kind = before.holds t kind) ↔
      ∀ note, Lost note → note.tellsGrant = false)
  lost : ∀ note, Lost note → note.tellsGrant = true → hold = .close ∧
    reply = .unwound .sinkFailed ∧
    ∀ kind, after.holds t kind = before.holds t kind + if kind = hold then 1 else 0

namespace Courtyard

variable {y y' z : Courtyard} {sink : Sink} {a : Action} {t : ThreadId} {hold : Hold}
  {s : Segment} {i : Stint} {reply : Reply} {timeout : Timeout}

/-- What a turn adds to the holds of its thread, from the verdict. -/
theorem HasTurn.holds_eq {verdict : Verdict} (hq : y.HasTurn sink a t hold s y' i)
    (hverdict : s.verdict? = some verdict)
    (hv : verdict = .granted ∨ verdict = .timedOut ∨ verdict = .overflowed) (kind : Hold) :
    y'.crowd.holds t kind =
      y.crowd.holds t kind + if verdict = .granted ∧ kind = hold then 1 else 0 := by
  have hholds := hq.turn.holds kind
  rw [hverdict, gained] at hholds
  rcases hv with rfl | rfl | rfl
  · by_cases hk : kind = hold
    · subst hk
      simp only [Verdict.gain, and_self, if_true] at hholds ⊢
      omega
    · simp only [hk, Ne.symm hk, and_false, if_false] at hholds ⊢
      omega
  all_goals
    simp only [Verdict.gain, ite_self, reduceCtorEq, false_and, if_false] at hholds ⊢
    omega

/-- What the caller is told in a turn if no note is lost. -/
theorem HasTurn.reply_eq {verdict : Verdict} (hq : y.HasTurn sink a t hold s y' i)
    (hverdict : s.verdict? = some verdict)
    (hv : verdict = .granted ∨ verdict = .timedOut ∨ verdict = .overflowed)
    (hl : s.note?.any sink = false) : i.ending = .replied verdict.reply := by
  rw [hq.ending, hl]
  cases s with
  | park g w => cases hverdict
  | done g room note verdict' =>
      obtain rfl : verdict' = verdict := Option.some.inj hverdict
      rcases hv with rfl | rfl | rfl
      · simp [Segment.outcome, Gate.ending, Verdict.reply]
      · simp [Segment.outcome, Gate.ending, Verdict.reply]
      · rfl

/-- A turn in which a note is lost unwinds the caller whatever the verdict. -/
theorem HasTurn.attempt_of_lost {verdict : Verdict} {note : Note}
    (hq : y.HasTurn sink a t hold s y' i) (hi : i.ending = .replied reply)
    (hverdict : s.verdict? = some verdict)
    (hholds : ∀ kind, y'.crowd.holds t kind =
      y.crowd.holds t kind + if verdict = .granted ∧ kind = hold then 1 else 0)
    (hn : s.note? = some note) (hsink : sink note = true) :
    Attempt y.crowd y'.crowd t hold reply (y.FailsOn sink a) := by
  obtain rfl : .unwound .sinkFailed = reply := by
    have hend := hq.ending
    rw [hn, Option.any_some, hsink, if_pos rfl, hi] at hend
    exact (Ending.replied.inj hend).symm
  -- the note that is lost is the one of the segment
  have htells : ∀ note', y.FailsOn sink a note' →
      (note'.tellsGrant = true ↔ verdict = .granted) ∧
        (note'.tellsGrant = true → hold = .close) := by
    intro note' hf
    obtain ⟨hiff, hclose⟩ := hq.tellsGrant note' ((hq.failsOn note').1 hf).1
    rw [hverdict, Option.some.injEq] at hiff
    exact ⟨hiff, hclose⟩
  refine ⟨.inr ⟨_, rfl⟩, fun h => (by cases h), fun _ => ⟨fun hsame note' hf => ?_, ?_⟩, ?_⟩
  · rw [Bool.eq_false_iff]
    intro ht
    have hone := hholds hold
    rw [if_pos ⟨(htells note' hf).1.1 ht, rfl⟩, hsame] at hone
    omega
  · intro hno kind
    have hf : y.FailsOn sink a note := (hq.failsOn note).2 ⟨hn, hsink⟩
    have hnot : verdict ≠ .granted := by
      intro hg
      have ht := (htells note hf).1.2 hg
      rw [hno note hf] at ht
      cases ht
    rw [hholds, if_neg fun h => hnot h.1, Nat.add_zero]
  · intro note' hf ht
    have hg := (htells note' hf).1.1 ht
    exact ⟨(htells note' hf).2 ht, rfl, fun kind => by simp only [hholds, hg, true_and]⟩

/-- **The turn in which an attempt ends decides what it leaves behind.** -/
theorem HasTurn.attempt (hq : y.HasTurn sink a t hold s y' i) (hi : i.ending = .replied reply)
    (hv : ∀ verdict, s.verdict? = some verdict →
      verdict = .granted ∨ verdict = .timedOut ∨ verdict = .overflowed) :
    Attempt y.crowd y'.crowd t hold reply (y.FailsOn sink a) := by
  obtain ⟨verdict, hverdict⟩ := hq.verdict_of_replied hi
  have hcases := hv verdict hverdict
  have hholds := hq.holds_eq hverdict hcases
  by_cases hl : ∃ note, s.note? = some note ∧ sink note = true
  · obtain ⟨note, hn, hsink⟩ := hl
    exact hq.attempt_of_lost hi hverdict hholds hn hsink
  · have hkept : ∀ note, ¬y.FailsOn sink a note := fun note hf => hl ⟨note, (hq.failsOn note).1 hf⟩
    have hany : s.note?.any sink = false := by
      cases hn : s.note? with
      | none => rfl
      | some note =>
          rw [Option.any_some, Bool.eq_false_iff]
          exact fun hsink => hl ⟨note, hn, hsink⟩
    obtain rfl : verdict.reply = reply :=
      Ending.replied.inj ((hq.reply_eq hverdict hcases hany).symm.trans hi)
    have hguard : verdict.reply.guard? hold = some hold ↔ verdict = .granted := by
      rcases hcases with rfl | rfl | rfl <;> simp [Verdict.reply, Reply.guard?]
    refine ⟨?_, fun hg kind => ?_, fun hg => ?_, fun note hf => absurd hf (hkept note)⟩
    · rcases hcases with rfl | rfl | rfl
      · exact .inl ⟨true, rfl⟩
      · exact .inl ⟨false, rfl⟩
      · exact .inr ⟨_, rfl⟩
    · simp only [hholds, hguard.1 hg, true_and]
    · have hnot : verdict ≠ .granted := by
        rw [← hguard.ne, hg]
        simp
      refine ⟨fun _ note hf => absurd hf (hkept note), fun _ kind => ?_⟩
      rw [hholds, if_neg fun h => hnot h.1, Nat.add_zero]

/-- **An attempt to get a guard that yields none leaves its thread with what it held, unless the
note of a granted close was lost.**  After any run with any sinks, for every thread, timeout and
kind of guard, and whatever other threads and sinks do while the call waits, its end is as
`Attempt` says: told, given, nothing, or a close lost to the sink, which is the only exception. -/
theorem guard_or_nothing_unless_grant_lost {as : List (Sink × Action)}
    {history : List (Option Stint)} (h : run {} as = some (y, history))
    (he : y.Ends t (.guarded timeout hold) z sink a y' reply) :
    Attempt y.crowd y'.crowd t hold reply (z.FailsOn sink a) := by
  have hreach := run_reachable h
  cases he with
  | atOnce ha hi =>
      obtain ⟨r, hr, htimeout⟩ := Call.request_guarded timeout hold
      obtain ⟨i, hi', hq⟩ := hasTurn_of_call hreach hr ha
      cases hi'
      rw [Call.hold_guarded] at hq
      refine hq.attempt hi fun verdict hv => ?_
      exact (verdict_begin htimeout hv).imp_right (Or.imp_right And.left)
  | afterWaiting hp ha hi =>
      obtain ⟨hz, hm, hsame⟩ := hp.midway hreach
      obtain ⟨v, hv, hvt, i, hi', hq⟩ := hasTurn_of_resume hz ha
      cases hi'
      rw [hm.waits v hv hvt, Call.hold_guarded] at hq
      have hattempt := hq.attempt hi fun verdict hverdict =>
        (verdict_resume hverdict).imp_right .inl
      -- what the thread held when it started it holds still when it ends
      exact ⟨hattempt.told, by simpa only [hsame] using hattempt.given,
        by simpa only [hsame] using hattempt.nothing, by simpa only [hsame] using hattempt.lost⟩

/-- Thread `b` waits for the last entry of `a` to leave, and the sink fails when `b` is told that it
has closed the gate: there is no guard, and one close more. -/
theorem guard_or_nothing_unless_grant_lost_after_drain :
    let a : ThreadId := ⟨"a"⟩
    let b : ThreadId := ⟨"b"⟩
    let y : Courtyard := ⟨⟨⟨1, 0, none, [(a, 1)]⟩, [], [], 0⟩, false⟩
    let z : Courtyard := ⟨⟨⟨0, 1, some b, []⟩, [], [⟨b, .drain none⟩], 0⟩, false⟩
    let y' : Courtyard := ⟨⟨⟨0, 1, some b, []⟩, [], [], 0⟩, true⟩
    (∃ history, run {} [(.accepting, .call a (.guarded .infinite .entry))] = some (y, history)) ∧
      y.Ends b (.guarded .infinite .close) z Note.tellsGrant (.resume b) y'
        (.unwound .sinkFailed) ∧
      Attempt y.crowd y'.crowd b .close (.unwound .sinkFailed)
        (z.FailsOn Note.tellsGrant (.resume b)) ∧
      y.crowd.holds b .close = 0 ∧ y'.crowd.holds b .close = 1 := by
  intro a b y z y'
  have hrun : run {} [(.accepting, .call a (.guarded .infinite .entry))] =
      some (y, [some ⟨a, .entry, some (.guarded .infinite .entry), raising a {},
        .replied (.flag true)⟩]) := rfl
  let parked : Courtyard := ⟨⟨⟨1, 1, some b, [(a, 1)]⟩, [⟨b, .drain none⟩], [], 0⟩, false⟩
  have hpark : y.act .accepting (.call b (.guarded .infinite .close)) =
      some (parked, some ⟨b, .close, some (.guarded .infinite .close), claiming b,
        .parked (.drain none)⟩) := rfl
  have hexit : parked.act .accepting (.call a .exit) =
      some (z, some ⟨a, .entry, some .exit, lowering a parked.crowd.gate ++ [.notify .drained],
        .replied .ok⟩) := rfl
  have hpending : y.Pending b (.guarded .infinite .close) z := by
    refine .later (.parked hpark rfl) hexit fun i hi hib => ?_
    cases hi
    exact absurd hib (by decide)
  have hends : y.Ends b (.guarded .infinite .close) z Note.tellsGrant (.resume b) y'
      (.unwound .sinkFailed) := .afterWaiting hpending rfl rfl
  exact ⟨⟨_, hrun⟩, hends, guard_or_nothing_unless_grant_lost hrun hends, rfl, rfl⟩

/-- **A close may be held without a guard.**  The sink fails on the note of the first close at a
fresh gate: the caller unwinds and holds the close, and nobody else gets in any more. -/
theorem close_held_without_guard :
    let a : ThreadId := ⟨"a"⟩
    let b : ThreadId := ⟨"b"⟩
    let y' : Courtyard := ⟨⟨⟨0, 1, some a, []⟩, [], [], 0⟩, true⟩
    Ends {} a (.guarded .infinite .close) {} Note.tellsGrant
        (.call a (.guarded .infinite .close)) y' (.unwound .sinkFailed) ∧
      Crowd.holds {} a .close = 0 ∧ y'.crowd.holds a .close = 1 ∧
      Ends y' b (.guarded (.millis 0) .entry) y' .accepting
        (.call b (.guarded (.millis 0) .entry)) y' (.flag false) :=
  ⟨.atOnce rfl rfl, rfl, rfl, .atOnce rfl rfl⟩

end Courtyard

end ReentrantGate.Gate
