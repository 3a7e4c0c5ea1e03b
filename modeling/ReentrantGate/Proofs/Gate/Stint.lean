/-
**Stints are segments.**

Behind its lock a gate is the gate that crowds know: whether the lock is poisoned makes no
difference, and what a thread does while it has the lock is a segment of the crowd, with the deeds
that make it up and, at the very end, its note.  The sink comes in only there: if it fails on the
note, the stint lacks the note and ends with unwinding.

Main definitions:

* `Gate.Stint.under` — a stint under another sink;
* `Gate.Courtyard.Stretch` — a segment with its deeds, as one thing that happens in a courtyard;
* `Gate.Courtyard.Course` — what an action of a courtyard does, whatever the sink.

Main results:

* `Gate.Courtyard.act_course` — **every action takes one of four courses**;
* `Gate.Courtyard.run_induction` — what actions keep holds after every run;
* `Gate.Courtyard.run_reachable` — **the crowds behind a lock are the crowds that can come about**.
-/

import ReentrantGate.Gate.Courtyard
import ReentrantGate.Proofs.Gate.Conduct

set_option relaxedAutoImplicit false
set_option autoImplicit false

namespace ReentrantGate.Gate

open Locked

/-! ### Sinks -/

/-- Whether a deed is a note on which the sink fails. -/
def Deed.fails (sink : Sink) : Deed → Bool
  | .log note => sink note
  | _ => false

/-- **A stint under a sink**: the first note on which the sink fails unwinds it, and nothing that
would have come after that is done. -/
def Stint.under (sink : Sink) (i : Stint) : Stint :=
  if i.deeds.any (·.fails sink) then
    { i with
      deeds := i.deeds.takeWhile fun d => !d.fails sink
      ending := .replied (.unwound .sinkFailed) }
  else i

/-- The stint of a segment with its deeds, if the sink takes its note. -/
def Segment.stint (s : Segment) (t : ThreadId) (hold : Hold) (started : Option Call)
    (deeds : List Deed) : Stint :=
  ⟨t, hold, started, deeds ++ (s.note?.map Deed.log).toList, ending started s.outcome⟩

@[simp] theorem Segment.thread_stint (s : Segment) (t : ThreadId) (hold : Hold)
    (started : Option Call) (deeds : List Deed) : (s.stint t hold started deeds).thread = t := rfl

@[simp] theorem Segment.hold_stint (s : Segment) (t : ThreadId) (hold : Hold)
    (started : Option Call) (deeds : List Deed) : (s.stint t hold started deeds).hold = hold := rfl

@[simp] theorem Segment.started_stint (s : Segment) (t : ThreadId) (hold : Hold)
    (started : Option Call) (deeds : List Deed) :
    (s.stint t hold started deeds).started = started := rfl

@[simp] theorem Stint.thread_under (i : Stint) (sink : Sink) :
    (i.under sink).thread = i.thread := by
  unfold under
  split <;> rfl

@[simp] theorem Stint.hold_under (i : Stint) (sink : Sink) : (i.under sink).hold = i.hold := by
  unfold under
  split <;> rfl

@[simp] theorem Stint.started_under (i : Stint) (sink : Sink) :
    (i.under sink).started = i.started := by
  unfold under
  split <;> rfl

section Sinks

variable {g : Gate} {t : ThreadId} {d : Bool} {hold : Hold} {deeds : List Deed} {s : Segment}
  {sink : Sink}

@[simp] theorem Deed.fails_log (note : Note) : (Deed.log note).fails sink = sink note := rfl

/-- A stint without a note is the same under every sink. -/
theorem Stint.under_eq_self {i : Stint} (h : ∀ e ∈ i.deeds, e.fails sink = false) :
    i.under sink = i := by
  have hany : i.deeds.any (·.fails sink) = false := by simpa using h
  rw [under, hany]
  rfl

/-- The sink that takes every note changes nothing. -/
theorem Stint.under_accepting (i : Stint) : i.under .accepting = i :=
  under_eq_self fun e _ => by cases e <;> rfl

/-- A stint with a note at its end depends on what the sink does there. -/
theorem Stint.under_concat {i : Stint} {note : Note} (hi : i.deeds = deeds ++ [.log note])
    (h : ∀ e ∈ deeds, e.fails sink = false) :
    i.under sink =
      if sink note then { i with deeds := deeds, ending := .replied (.unwound .sinkFailed) }
      else i := by
  cases hs : sink note with
  | false =>
      refine under_eq_self fun e he => ?_
      rw [hi, List.mem_append, List.mem_singleton] at he
      rcases he with he | rfl
      · exact h e he
      · exact hs
  | true =>
      have htake : i.deeds.takeWhile (fun e => !e.fails sink) = deeds := by
        rw [hi, List.takeWhile_append_of_pos (by simpa using h)]
        simp [hs]
      simp [under, hi ▸ htake, hi, hs]

/-- The deeds of a segment are no notes, so a sink cannot fail on them. -/
theorem Conduct.not_fails (m : Conduct t g d hold deeds s) (sink : Sink) :
    ∀ e ∈ deeds, e.fails sink = false := by
  intro e he
  cases e with
  | log note => exact absurd he (m.log_not_mem note)
  | _ => rfl

/-- **A sink comes in at the note**, after all deeds. -/
theorem Conduct.under_stint (m : Conduct t g d hold deeds s) (started : Option Call)
    (sink : Sink) :
    (s.stint t hold started deeds).under sink =
      match s.note? with
      | none => ⟨t, hold, started, deeds, ending started s.outcome⟩
      | some note =>
          if sink note then ⟨t, hold, started, deeds, .replied (.unwound .sinkFailed)⟩
          else ⟨t, hold, started, deeds ++ [.log note], ending started s.outcome⟩ := by
  have hnot := m.not_fails sink
  cases hn : s.note? with
  | none =>
      rw [Stint.under_eq_self (by simpa [Segment.stint, hn] using hnot)]
      simp [Segment.stint, hn]
  | some note =>
      rw [Stint.under_concat (by rw [Segment.stint, hn]; rfl) hnot]
      simp [Segment.stint, hn]

/-- A segment with a note is over, so its thread has not parked. -/
theorem leftBy_of_note {c : Crowd} {note : Note} (hn : s.note? = some note) :
    c.leftBy t s.outcome = c := by
  cases s with
  | park g w => cases hn
  | done g room note' verdict => cases verdict <;> rfl

end Sinks

namespace Courtyard

variable {y y' : Courtyard} {t : ThreadId} {d : Bool} {hold : Hold} {started : Option Call}
  {deeds : List Deed} {s : Segment} {rest : Crowd} {routine : Locked Outcome} {a : Action}
  {sink : Sink} {o : Option Stint}

/-- **Poison does no harm**: what is behind the lock is the gate. -/
@[simp] theorem recover_lock (y : Courtyard) : recover y.lock = y.crowd.gate := by
  unfold lock
  split <;> rfl

/-! ### Stints of segments -/

/-- **The stint of a routine that plays a segment.**  Whatever the sink does, the crowd is that of
the segment; the sink shows in the stint alone. -/
theorem seen_stint (hg : rest.gate = y.crowd.gate) (m : Conduct t y.crowd.gate d hold deeds s)
    (hplay : ∀ sink h, h.crowd.gate = y.crowd.gate →
      routine.play sink h = (h.did deeds).close sink s.note? s.outcome) (sink : Sink) :
    seen (y.stint sink t hold started rest routine) =
      (rest.absorb t s, some ((s.stint t hold started deeds).under sink)) := by
  have hrest : { rest with gate := recover y.lock } = rest := by rw [recover_lock, ← hg]
  have habsorb : (deeds.foldl Crowd.after rest).leftBy t s.outcome = rest.absorb t s :=
    (hg ▸ m : Conduct t rest.gate d hold deeds s).leftBy_eq_absorb
  rw [stint, hrest, hplay sink _ hg, ← habsorb, m.under_stint]
  cases hn : s.note? with
  | none => simp [seen, Hand.close, Hand.did]
  | some note =>
      -- the thread does not park, so it makes no difference for the crowd how it ends
      rw [leftBy_of_note hn]
      cases hs : sink note with
      | false => simp [seen, Hand.close, Hand.did, hs, Crowd.after, after, leftBy_of_note hn]
      | true => simp [seen, Hand.close, Hand.did, hs, Crowd.leftBy, ending]

/-- What is known of what can be seen after an action is known of what the action leads to. -/
theorem of_seen {p : Option (Courtyard × Option Stint)} {c : Crowd} {i : Option Stint}
    (h : p.map seen = some (c, i)) (hp : p = some (y', o)) : y'.crowd = c ∧ o = i := by
  rw [hp, Option.map_some, Option.some.injEq] at h
  exact Prod.mk.inj h

/-! ### What an action does -/

/-- **A stretch of `t` in a call about `hold`**: the segment `s` with its deeds, at a crowd from
which `t` has gone to take the lock.  A thread that does not start a call has waited before. -/
structure Stretch (c : Crowd) (t : ThreadId) (hold : Hold) (started : Option Call) (d : Bool)
    (deeds : List Deed) (s : Segment) (rest : Crowd) : Prop where
  leaves : Crowd.Leaves c t d rest
  conduct : Conduct t c.gate d hold deeds s
  idle : started.isSome → c.idle t = true
  waited : started = none → ∃ v ∈ c.visitors, v.thread = t ∧ v.waiting.draining = d

/-- **What an action of a courtyard does**, whatever the sink: nothing can happen, a thread wakes up
or time passes, a call is refused before it takes the lock, or there is a stretch. -/
inductive Course (y : Courtyard) : Action → Prop
  | stuck {a : Action} : (∀ sink, y.act sink a = none) → Course y a
  | still {a : Action} {b : Gate.Action} {c : Crowd} {o : Option Occurrence} : b.actor = none →
      y.crowd.act b = some (c, o) →
      (∀ sink, y.act sink a = some ({ y with crowd := c }, none)) → Course y a
  | refused {t : ThreadId} {call : Call} {refusal : Refusal} : y.crowd.idle t = true →
      (∀ sink, y.act sink (.call t call) =
        some (y, some ⟨t, call.hold, some call, [], .replied (.refused refusal)⟩)) →
      Course y (.call t call)
  | stretch {a : Action} {t : ThreadId} {hold : Hold} {started : Option Call} {d : Bool}
      {deeds : List Deed} {s : Segment} {rest : Crowd} :
      Stretch y.crowd t hold started d deeds s rest →
      (∃ b o, y.crowd.act b = some (rest.absorb t s, o)) →
      (∀ sink, (y.act sink a).map seen =
        some (rest.absorb t s, some ((s.stint t hold started deeds).under sink))) → Course y a

/-- What a call asks of the gate is about the hold that the call is about. -/
theorem hold_of_request {call : Call} {r : Request} (h : call.request = .ok r) :
    r.hold = call.hold := by
  have htimeout : ∀ (ms : Int) (ask : Timeout → Request),
      (timeoutOf ms).map ask = .ok r → ∃ timeout, r = ask timeout := by
    intro ms ask ha
    cases ht : timeoutOf ms with
    | error refusal => simp [ht, Except.map] at ha
    | ok timeout =>
        simp only [ht, Except.map, Except.ok.injEq] at ha
        exact ⟨timeout, ha.symm⟩
  cases call with
  | enter ms =>
      obtain ⟨timeout, rfl⟩ := htimeout ms .enter h
      rfl
  | close ms =>
      obtain ⟨timeout, rfl⟩ := htimeout ms .close h
      rfl
  | drop hold => cases hold <;> (cases h; rfl)
  | _ =>
      cases h
      rfl

/-- **A call of an idle thread is a stretch** with the first segment of the call, if it is not
refused before it takes the lock. -/
theorem act_call (h : y.crowd.Orderly) (hi : y.crowd.idle t = true) {call : Call} {r : Request}
    (hr : call.request = .ok r) :
    ∃ deeds, Stretch y.crowd t call.hold (some call) false deeds
        (begin t y.crowd.clock r y.crowd.gate) y.crowd ∧
      ∀ sink, (y.act sink (.call t call)).map seen =
        some (y.crowd.absorb t (begin t y.crowd.clock r y.crowd.gate),
          some (((begin t y.crowd.clock r y.crowd.gate).stint t call.hold (some call) deeds).under
            sink)) := by
  obtain ⟨deeds, m, hplay⟩ := plays_begin (t := t) h.sound y.crowd.clock r
  rw [hold_of_request hr] at m
  refine ⟨deeds, ⟨.of_idle hi, m, fun _ => hi, fun h => absurd h (Option.some_ne_none call)⟩,
    fun sink => ?_⟩
  rw [act, hi, if_pos rfl, hr]
  exact congrArg some (seen_stint rfl m hplay sink)

/-- **A woken thread that takes the lock is a stretch** with the next segment of its call. -/
theorem act_resume (h : y.crowd.Orderly) {v : Visitor}
    (hf : y.crowd.woken.find? (·.thread = t) = some v) :
    v ∈ y.crowd.visitors ∧ v.thread = t ∧ ∃ deeds,
      Stretch y.crowd t v.waiting.hold none v.waiting.draining deeds
        (Gate.resume t y.crowd.clock v.waiting y.crowd.gate)
        { y.crowd with woken := y.crowd.woken.eraseP (·.thread = t) } ∧
      ∀ sink, (y.act sink (.resume t)).map seen =
        some (Crowd.absorb { y.crowd with woken := y.crowd.woken.eraseP (·.thread = t) } t
            (Gate.resume t y.crowd.clock v.waiting y.crowd.gate),
          some (((Gate.resume t y.crowd.clock v.waiting y.crowd.gate).stint t v.waiting.hold none
            deeds).under sink)) := by
  obtain ⟨hv, ht, hl⟩ := Crowd.Leaves.of_find h.nodup hf
  obtain ⟨deeds, m, hplay⟩ := plays_resume h.sound (ht ▸ h.fits v hv) y.crowd.clock
  refine ⟨hv, ht, deeds, ⟨hl, m, fun h => absurd h Bool.false_ne_true, fun _ => ⟨v, hv, ht, rfl⟩⟩,
    fun sink => ?_⟩
  rw [act, hf]
  exact congrArg some (seen_stint hl.gate m hplay sink)

/-- **Every action of a courtyard in order takes one of these courses.** -/
theorem act_course (h : y.crowd.Orderly) (a : Action) : Course y a := by
  cases a with
  | call t call =>
      by_cases hi : y.crowd.idle t = true
      · cases hr : call.request with
        | error refusal => exact .refused hi fun sink => by rw [act, hi, if_pos rfl, hr]
        | ok r =>
            obtain ⟨deeds, hs, hact⟩ := act_call h hi hr
            have hcrowd := Crowd.act.eq_1 y.crowd t r false
            rw [hi, if_pos rfl] at hcrowd
            exact .stretch hs ⟨_, _, hcrowd⟩ hact
      · exact .stuck fun sink => by simp [act, hi]
  | resume t =>
      cases hf : y.crowd.woken.find? (·.thread = t) with
      | none => exact .stuck fun sink => by simp [act, hf]
      | some v =>
          obtain ⟨-, -, deeds, hs, hact⟩ := act_resume h hf
          have hcrowd := Crowd.act.eq_2 y.crowd t false
          rw [hf] at hcrowd
          exact .stretch hs ⟨_, _, hcrowd⟩ hact
  | rouse t =>
      cases hr : y.crowd.act (.rouse t) with
      | none => exact .stuck fun sink => by rw [act, hr, Option.map_none]
      | some p => exact .still rfl hr fun sink => by rw [act, hr, Option.map_some]
  | tick ns => exact .still (b := .tick ns) rfl rfl fun sink => rfl

/-! ### Runs -/

/-- **What holds of a fresh courtyard and is kept by every action holds after every run**, of the
courtyard and of all that has been recorded. -/
theorem run_induction {P : Courtyard → List (Option Stint) → Prop} (start : P {} [])
    (act : ∀ y history sink a y' o, P y history → y.act sink a = some (y', o) →
      P y' (history ++ [o]))
    {as : List (Sink × Action)} {history : List (Option Stint)}
    (h : run {} as = some (y, history)) : P y history := by
  induction as using List.reverseRecOn generalizing y history with
  | nil =>
      cases h
      exact start
  | append_singleton as a ih =>
      rw [run_concat] at h
      obtain ⟨⟨z, before⟩, hz, h⟩ := Option.bind_eq_some_iff.1 h
      obtain ⟨⟨z', o⟩, ha, h⟩ := Option.map_eq_some_iff.1 h
      cases h
      exact act z before a.1 a.2 z' o (ih hz) ha

/-- **An action of a courtyard is an action of its crowd**; a call that is refused is no action, as
if no time had passed. -/
theorem Course.crowd_act (hc : Course y a) (ha : y.act sink a = some (y', o)) :
    ∃ b p, y.crowd.act b = some (y'.crowd, p) := by
  cases hc with
  | stuck hstuck => simp [hstuck] at ha
  | still _ hb hstill =>
      rw [hstill] at ha
      cases ha
      exact ⟨_, _, hb⟩
  | refused _ hrefused =>
      rw [hrefused] at ha
      cases ha
      exact ⟨.tick 0, none, rfl⟩
  | stretch _ hb hstretch =>
      obtain ⟨hy, -⟩ := of_seen (hstretch sink) ha
      obtain ⟨b, p, hb⟩ := hb
      exact ⟨b, p, hy ▸ hb⟩

/-- An action of a courtyard keeps its crowd in order. -/
theorem orderly_of_act (h : y.crowd.Orderly) (ha : y.act sink a = some (y', o)) :
    y'.crowd.Orderly := by
  obtain ⟨b, p, hb⟩ := (act_course h a).crowd_act ha
  exact (Crowd.act_step h hb).orderly h

/-- **The crowds behind a lock are the crowds that can come about**, however often the sink
fails. -/
theorem run_reachable {as : List (Sink × Action)} {history : List (Option Stint)}
    (h : run {} as = some (y, history)) : y.crowd.Reachable := by
  refine run_induction (P := fun y _ => y.crowd.Reachable) ⟨[], [], rfl⟩ ?_ h
  intro y _ sink a y' o hr ha
  obtain ⟨b, p, hb⟩ := (act_course hr.orderly a).crowd_act ha
  exact hr.act hb

end Courtyard

end ReentrantGate.Gate
