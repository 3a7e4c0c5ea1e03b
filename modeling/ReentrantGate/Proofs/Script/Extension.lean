/-
**One segment with more time.**

A call that has more time does in a segment just what it would have done without, unless it would
have given up: it looks at the same condition, and parks with the later deadline where it would have
parked with the earlier one.  A call that gives up, or that finds no deadline, reports something
else than success, so a journal that reports only successes of the calls with the label shows that
no such thing has happened.

Main definitions:

* `Script.Extension.translation` — what becomes of a system when calls get more time;
* `Gate.Segment.GivesUp` — a segment in which a call gives up, or finds no deadline;
* `Script.Succeeds` — a journal reports only successes of the calls with a label.

Main results:

* `Script.Extension.look_extend` — a look with a later deadline decides the same, or the call would
  have given up;
* `Script.Extension.attempt_extend` — **a segment with more time is the same segment**;
* `Script.Extension.not_succeeds_of_expired` — a call whose deadline has come without what it waits
  for does not succeed.
-/

import ReentrantGate.Proofs.Script.Lawful
import ReentrantGate.Proofs.Script.Translation
import ReentrantGate.Script.Extension

set_option relaxedAutoImplicit false
set_option autoImplicit false

namespace ReentrantGate

/-- The call gives up, or finds no deadline. -/
def Gate.Segment.GivesUp : Gate.Segment → Prop
  | park .. => False
  | done _ _ _ verdict => verdict = .timedOut ∨ verdict = .overflowed

namespace Script

/-- **A journal that reports only successes** of the calls with a label. -/
def Succeeds (label : Nat) (journal : List Entry) : Prop :=
  ∀ r ∈ journal.filterMap (Entry.result? label), r = .flag true

theorem Succeeds.of_prefix {label : Nat} {journal later : List Entry} (h : Succeeds label later)
    (hp : journal <+: later) : Succeeds label journal :=
  fun r hr => h r ((hp.filterMap _).subset hr)

namespace Extension

variable (x : Extension)

/-! ### What becomes of everything -/

/-- What becomes of the timeout of a waiting entry. -/
def timeout (timeout : Timeout) : Timeout :=
  match x.new with
  | .enterFor new => new
  | _ => timeout

/-- What becomes of the wait of a call that gets more time, at a gate. -/
def waiting : Gate.Waiting → Gate.Waiting
  | .entry timeout d => .entry (x.timeout timeout) (x.deadline d)
  | .exclusivity d => .exclusivity (x.deadline d)
  | .drain d => .drain (x.deadline d)

/-- What becomes of a wait in a call. -/
def wait (c : Call) (w : Wait) : Wait :=
  if x.marks c then
    match w with
    | .gate i waiting => .gate i (x.waiting waiting)
    | .event i d => .event i (x.deadline d)
  else w

/-- What becomes of a segment at a gate. -/
def gateSegment : Gate.Segment → Gate.Segment
  | .park g w => .park g (x.waiting w)
  | .done g room note verdict => .done g room note verdict

@[simp] theorem place_wait (c : Call) (w : Wait) : (x.wait c w).place = w.place := by
  unfold Extension.wait
  split
  · cases w with
    | event i d => rfl
    | gate i waiting => cases waiting <;> rfl
  · rfl

/-- What becomes of a system: the world stays. -/
def translation : Translation where
  world := id
  call := x.call
  wait := x.wait
  gates_world _ := rfl
  clock_world _ := rfl
  world_clock _ _ := rfl
  place_wait := x.place_wait
  call_single _ _ := ⟨_, _, rfl⟩
  call_scope site _ _ _ _ := ⟨site, rfl, by rw [call, calls_eq_map]⟩

theorem task_start (c : Call) : x.translation.task (.start c) = .start (x.call c) := rfl

theorem task_resume (c : Call) (wait : Wait) :
    x.translation.task (.resume c wait) = .resume (x.call c) (x.wait c wait) := rfl

theorem segment_park (w : World) (c : Call) (wait : Wait) :
    x.translation.segment (.park w c wait) = .park w (x.call c) (x.wait c wait) := rfl

/-! ### Calls -/

section Calls

variable {x} {c : Call}

theorem eq_single_of_marks (h : x.marks c = true) :
    ∃ site : Site, site.label = x.label ∧ c = .single site x.old ∧
      x.call c = .single site x.new := by
  cases c with
  | single site op =>
      simp only [marks, Bool.and_eq_true, decide_eq_true_eq] at h
      refine ⟨site, h.1, by rw [h.2], ?_⟩
      simp only [call, h, and_self, if_true]
  | scope site hold timeout body panics => cases h

theorem call_single_of_not_marks {site : Site} {op : Operation}
    (h : x.marks (.single site op) = false) : x.call (.single site op) = .single site op := by
  simp only [marks, Bool.and_eq_false_iff, decide_eq_false_iff_not] at h
  have hne : ¬(site.label = x.label ∧ op = x.old) := fun hc => h.elim (· hc.1) (· hc.2)
  simp only [call, if_neg hne]

variable (x) in
@[simp] theorem site_call (c : Call) : (x.call c).site = c.site := by
  cases c <;> rfl

theorem name_new : x.new.name = x.old.name := by
  rcases x.kinds with ⟨old, new, ho, hn⟩ | ⟨old, new, ho, hn⟩ | ⟨old, new, ho, hn⟩ <;>
    rw [ho, hn] <;> rfl

variable (x) in
@[simp] theorem name_call (c : Call) : (x.call c).name = c.name := by
  cases hm : x.marks c with
  | true =>
      obtain ⟨site, -, rfl, hc⟩ := eq_single_of_marks hm
      rw [hc]
      exact name_new
  | false =>
      cases c with
      | single site op => rw [call_single_of_not_marks hm]
      | scope site hold timeout body panics => rfl

variable (x) in
@[simp] theorem finish_call (t : ThreadId) (c : Call) (r : Result) (ns : List Notice) (w : World) :
    Task.finish t (x.call c) r ns w = Task.finish t c r ns w := by
  simp only [Task.finish, World.report, site_call, name_call]

/-- A call that gets more time ends as its verdict says. -/
theorem conclude_of_marks (hm : x.marks c = true) (t : ThreadId) (v : Gate.Verdict)
    (ns : List Notice) (w : World) :
    Task.conclude t c v ns w = Task.finish t c (Task.ofVerdict v) ns w := by
  obtain ⟨site, -, rfl, -⟩ := eq_single_of_marks hm
  rcases x.kinds with ⟨old, new, ho, -⟩ | ⟨old, new, ho, -⟩ | ⟨old, new, ho, -⟩ <;>
    rw [ho] <;> cases v <;> rfl

theorem conclude_call_of_marks (hm : x.marks c = true) (t : ThreadId) (v : Gate.Verdict)
    (ns : List Notice) (w : World) :
    Task.conclude t (x.call c) v ns w = Task.finish t c (Task.ofVerdict v) ns w := by
  rw [← finish_call x]
  obtain ⟨site, -, rfl, hc⟩ := eq_single_of_marks hm
  rw [hc]
  rcases x.kinds with ⟨old, new, -, hn⟩ | ⟨old, new, -, hn⟩ | ⟨old, new, -, hn⟩ <;>
    rw [hn] <;> cases v <;> rfl

variable (x) in
/-- However a verdict ends a call, it ends the call with more time in the same way. -/
theorem conclude_call (t : ThreadId) (c : Call) (v : Gate.Verdict) (ns : List Notice) (w : World) :
    Task.conclude t (x.call c) v ns w = Task.conclude t c v ns w := by
  cases hm : x.marks c with
  | true => rw [conclude_call_of_marks hm, conclude_of_marks hm]
  | false =>
      cases c with
      | single site op => rw [call_single_of_not_marks hm]
      | scope site hold timeout body panics =>
          cases v with
          | granted => rfl
          | timedOut => exact finish_call x t (.scope site hold timeout body panics) _ ns w
          | released => exact finish_call x t (.scope site hold timeout body panics) _ ns w
          | misused u => exact finish_call x t (.scope site hold timeout body panics) _ ns w
          | overflowed => exact finish_call x t (.scope site hold timeout body panics) _ ns w

/-- Only a success is reported of a call in a journal that reports only successes. -/
theorem eq_of_succeeds_finish {t : ThreadId} {r : Result} {ns : List Notice} {w : World}
    (hm : x.marks c = true)
    (hs : Succeeds x.label (Task.finish t c r ns w).world.journal) : r = .flag true := by
  obtain ⟨site, hl, rfl, -⟩ := eq_single_of_marks hm
  refine hs r (List.mem_filterMap.2 ⟨_, List.mem_append_right _ List.mem_cons_self, ?_⟩)
  simp [Entry.result?, Call.site, hl]

end Calls

/-! ### One look -/

/-- **A look with a later deadline decides the same**, or the call would have given up. -/
theorem look_extend (holds : Bool) (d : Deadline) (now : Nat) :
    look holds d now = .expired ∨
      (look holds d now = .ready ∧ look holds (x.deadline d) now = .ready) ∨
        ∃ k l, look holds d now = .park k ∧ look holds (x.deadline d) now = .park l := by
  cases hl : look holds d now with
  | expired => exact .inl rfl
  | ready => exact .inr (.inl ⟨rfl, look_eq_ready.2 (look_eq_ready.1 hl)⟩)
  | park k =>
      obtain ⟨hf, hd, -⟩ := look_eq_park.1 hl
      refine .inr (.inr ⟨k, _, rfl, look_eq_park.2 ⟨hf, fun b hb => ?_, rfl⟩⟩)
      obtain ⟨a, ha, hab⟩ := x.le_of_deadline hb
      exact Nat.lt_of_lt_of_le (hd a ha) hab

/-! ### Segments of gates -/

section Gates

variable {t : ThreadId} {now : Nat} {g : Gate} {d : Deadline}

theorem awaitEntry_extend (timeout : Timeout) :
    (Gate.awaitEntry t timeout d now g).GivesUp ∨
      Gate.awaitEntry t (x.timeout timeout) (x.deadline d) now g =
        x.gateSegment (Gate.awaitEntry t timeout d now g) := by
  unfold Gate.awaitEntry
  rcases x.look_extend g.closer.isNone d now with h | ⟨h, h'⟩ | ⟨k, l, h, h'⟩
  · rw [h]
    exact .inl (.inl rfl)
  · rw [h, h']
    exact .inr rfl
  · rw [h, h']
    exact .inr rfl

theorem awaitDrain_extend :
    (Gate.awaitDrain t d now g).GivesUp ∨
      Gate.awaitDrain t (x.deadline d) now g = x.gateSegment (Gate.awaitDrain t d now g) := by
  unfold Gate.awaitDrain
  rcases x.look_extend (g.foreign = 0) d now with h | ⟨h, h'⟩ | ⟨k, l, h, h'⟩
  · rw [h]
    exact .inl (.inl rfl)
  · rw [h, h']
    exact .inr rfl
  · rw [h, h']
    exact .inr rfl

theorem awaitExclusivity_extend :
    (Gate.awaitExclusivity t d now g).GivesUp ∨
      Gate.awaitExclusivity t (x.deadline d) now g =
        x.gateSegment (Gate.awaitExclusivity t d now g) := by
  unfold Gate.awaitExclusivity
  rcases x.look_extend g.closer.isNone d now with h | ⟨h, h'⟩ | ⟨k, l, h, h'⟩
  · rw [h]
    exact .inl (.inl rfl)
  · -- the claim is made, and the close waits on under the same deadline
    rw [h, h']
    exact x.awaitDrain_extend
  · rw [h, h']
    exact .inr rfl

theorem resume_extend (w : Gate.Waiting) :
    (Gate.resume t now w g).GivesUp ∨
      Gate.resume t now (x.waiting w) g = x.gateSegment (Gate.resume t now w g) := by
  cases w with
  | entry timeout d => exact x.awaitEntry_extend timeout
  | exclusivity d => exact x.awaitExclusivity_extend
  | drain d => exact x.awaitDrain_extend

theorem begin_enter_extend {old new : Timeout} (ho : x.old = .enterFor old)
    (hn : x.new = .enterFor new) (hd : (x.new.deadline? now).isSome = true) :
    (Gate.begin t now (.enter old) g).GivesUp ∨
      Gate.begin t now (.enter new) g = x.gateSegment (Gate.begin t now (.enter old) g) := by
  have htimeout : x.timeout old = new := by simp only [timeout, hn]
  have hdeadlines := x.deadline_cases hd
  simp only [ho, hn, Operation.deadline?_enterFor] at hdeadlines
  simp only [Gate.begin, Gate.enter]
  split
  · exact .inr rfl
  · rcases hdeadlines with hnone | ⟨d, hold, hnew⟩
    · rw [hnone]
      exact .inl (.inr rfl)
    · rw [hold, hnew, ← htimeout]
      exact x.awaitEntry_extend old

theorem begin_close_extend {old new : Timeout} (ho : x.old = .closeFor old)
    (hn : x.new = .closeFor new) (hd : (x.new.deadline? now).isSome = true) :
    (Gate.begin t now (.close old) g).GivesUp ∨
      Gate.begin t now (.close new) g = x.gateSegment (Gate.begin t now (.close old) g) := by
  have hdeadlines := x.deadline_cases hd
  simp only [ho, hn, Operation.deadline?_closeFor] at hdeadlines
  simp only [Gate.begin, Gate.close]
  split
  · exact .inr rfl
  · rcases hdeadlines with hnone | ⟨d, hold, hnew⟩
    · rw [hnone]
      exact .inl (.inr rfl)
    · rw [hold, hnew]
      exact x.awaitExclusivity_extend

end Gates

/-! ### Segments of tasks -/

section Tasks

variable {x} {t : ThreadId} {c : Call} {w : World} {i : Nat}

theorem wait_of_marks (hm : x.marks c = true) (wait : Wait) :
    x.wait c wait = match wait with
      | .gate i waiting => .gate i (x.waiting waiting)
      | .event i d => .event i (x.deadline d) := by
  simp only [Extension.wait, hm, if_true]

theorem wait_of_not_marks (hm : x.marks c = false) (wait : Wait) : x.wait c wait = wait := by
  simp only [Extension.wait, hm, Bool.false_eq_true, if_false]

/-- Whatever becomes of its note, a call that gives up does not report a success. -/
theorem not_givesUp_of_succeeds {segment : Gate → Gate.Segment} {g : Gate} (hm : x.marks c = true)
    (hg : w.gates[i]? = some g)
    (hs : Succeeds x.label (Task.atGate t c i segment (Task.conclude t c) w).world.journal) :
    ¬(segment g).GivesUp := by
  intro hgives
  simp only [Task.atGate, hg] at hs
  cases hseg : segment g with
  | park g' waiting => simp [hseg, Gate.Segment.GivesUp] at hgives
  | done g' room note verdict =>
      simp only [hseg, Gate.Segment.GivesUp] at hgives hs
      cases hemit : (w.setGate i g').emit note with
      | mk w' failed =>
          rw [hemit] at hs
          cases failed with
          | true => cases eq_of_succeeds_finish hm hs
          | false =>
              simp only [conclude_of_marks hm] at hs
              have hflag := eq_of_succeeds_finish hm hs
              rcases hgives with rfl | rfl <;> cases hflag

/-- At a gate, a call that gets more time. -/
theorem atGate_extend {segment segment' : Gate → Gate.Segment} (hm : x.marks c = true)
    (hseg : ∀ g, w.gates[i]? = some g →
      (segment g).GivesUp ∨ segment' g = x.gateSegment (segment g))
    (hs : Succeeds x.label (Task.atGate t c i segment (Task.conclude t c) w).world.journal) :
    Task.atGate t (x.call c) i segment' (Task.conclude t (x.call c)) w =
      x.translation.segment (Task.atGate t c i segment (Task.conclude t c) w) := by
  unfold Task.atGate
  cases hg : w.gates[i]? with
  | none => exact finish_call x t c _ _ _
  | some g =>
      have hsame := (hseg g hg).resolve_left (not_givesUp_of_succeeds hm hg hs)
      simp only [hsame]
      cases segment g with
      | park g' waiting => simp only [gateSegment, segment_park, wait_of_marks hm]
      | done g' room note verdict =>
          simp only [gateSegment]
          cases (w.setGate i g').emit note with
          | mk w' failed =>
              cases failed with
              | true => exact finish_call x t c _ _ _
              | false =>
                  simp only [conclude_call, conclude_of_marks hm]
                  rfl

/-- At a gate, a call that gets no more time itself. -/
theorem atGate_call {segment : Gate → Gate.Segment}
    {k k' : Gate.Verdict → List Notice → World → Segment} (hm : x.marks c = false)
    (hk : ∀ v ns w, k' v ns w = x.translation.segment (k v ns w)) :
    Task.atGate t (x.call c) i segment k' w =
      x.translation.segment (Task.atGate t c i segment k w) := by
  unfold Task.atGate
  cases w.gates[i]? with
  | none => exact finish_call x t c _ _ _
  | some g =>
      dsimp only
      cases segment g with
      | park g' waiting => simp only [segment_park, wait_of_not_marks hm]
      | done g' room note verdict =>
          dsimp only
          cases (w.setGate i g').emit note with
          | mk w' failed =>
              cases failed with
              | true => exact finish_call x t c _ _ _
              | false => exact hk ..

theorem conclude_eq_segment (t : ThreadId) (c : Call) (v : Gate.Verdict) (ns : List Notice)
    (w : World) :
    Task.conclude t (x.call c) v ns w = x.translation.segment (Task.conclude t c v ns w) := by
  obtain ⟨w', follow, hc, -⟩ := Task.conclude_eq_done t c v ns w
  rw [conclude_call, hc]
  rfl

theorem ofWait_of_marks (hm : x.marks c = true) (success : Bool) :
    Task.ofWait c success = .flag success ∧ Task.ofWait (x.call c) success = .flag success := by
  obtain ⟨site, -, rfl, hc⟩ := eq_single_of_marks hm
  rw [hc]
  rcases x.kinds with ⟨old, new, ho, hn⟩ | ⟨old, new, ho, hn⟩ | ⟨old, new, ho, hn⟩ <;>
    rw [ho, hn] <;> exact ⟨rfl, rfl⟩

/-- At an event, a call that gets more time. -/
theorem atEvent_extend {d : Deadline} (hm : x.marks c = true)
    (hs : Succeeds x.label (Task.atEvent t c i d w).world.journal) :
    Task.atEvent t (x.call c) i (x.deadline d) w =
      x.translation.segment (Task.atEvent t c i d w) := by
  unfold Task.atEvent at hs ⊢
  cases he : w.events[i]? with
  | none => exact finish_call x t c _ _ _
  | some e =>
      simp only [he, Event.await] at hs ⊢
      rcases x.look_extend e.set d w.clock with h | ⟨h, h'⟩ | ⟨k, l, h, h'⟩
      · rw [h] at hs
        have hflag := eq_of_succeeds_finish hm hs
        rw [(ofWait_of_marks hm false).1] at hflag
        cases hflag
      · simp only [h, h', (ofWait_of_marks hm true).1, (ofWait_of_marks hm true).2, finish_call]
        rfl
      · simp only [h, h', segment_park, wait_of_marks hm]

/-- At an event, a call that gets no more time itself. -/
theorem atEvent_call {d : Deadline} (hm : x.marks c = false)
    (hw : ∀ success, Task.ofWait (x.call c) success = Task.ofWait c success) :
    Task.atEvent t (x.call c) i d w = x.translation.segment (Task.atEvent t c i d w) := by
  unfold Task.atEvent
  cases w.events[i]? with
  | none => exact finish_call x t c _ _ _
  | some e =>
      dsimp only
      cases e.await d w.clock with
      | park => simp only [segment_park, wait_of_not_marks hm]
      | done e' success => simp only [hw, finish_call]; rfl

theorem ofDrop_call (x : Extension) (c : Call) (hold : Hold) (v : Gate.Verdict) :
    Task.ofDrop (x.call c) hold v = Task.ofDrop c hold v := by
  have hrelease : Task.ofRelease (x.call c) = Task.ofRelease c := by
    cases hm : x.marks c with
    | true =>
        obtain ⟨site, -, rfl, hc⟩ := eq_single_of_marks hm
        rw [hc]
        rcases x.kinds with ⟨old, new, ho, hn⟩ | ⟨old, new, ho, hn⟩ | ⟨old, new, ho, hn⟩ <;>
          rw [ho, hn] <;> rfl
    | false =>
        cases c with
        | single site op => rw [call_single_of_not_marks hm]
        | scope site hold timeout body panics => rfl
  cases v with
  | released => exact hrelease
  | granted => rfl
  | timedOut => rfl
  | misused u => rfl
  | overflowed => rfl

/-- A guard is dropped on behalf of a call, which never parks. -/
theorem dispose_call (x : Extension) (hold : Hold) :
    Task.dispose t (x.call c) hold i w = x.translation.segment (Task.dispose t c hold i w) := by
  unfold Task.dispose Task.atGate
  cases w.gates[i]? with
  | none => exact finish_call x t c _ _ _
  | some g =>
      dsimp only
      cases hseg : Gate.begin t w.clock (Task.disposal hold) g with
      | park g' waiting =>
          cases hold with
          | entry => exact absurd hseg Gate.exit_ne_park
          | close => exact absurd hseg Gate.reopen_ne_park
      | done g' room note verdict =>
          dsimp only
          cases (w.setGate i g').emit note with
          | mk w' failed =>
              cases failed with
              | true => exact finish_call x t c _ _ _
              | false => simp only [ofDrop_call, finish_call]; rfl

/-- A segment of a call that stays as it is, stays as it is. -/
theorem segment_of_parksIn {s : Segment} (hm : x.marks c = false) (hc : x.call c = c)
    (hs : s.ParksIn c) : x.translation.segment s = s := by
  cases s with
  | done w ns f => rfl
  | park w c' wait =>
      obtain rfl : c' = c := hs
      simp only [segment_park, hc, wait_of_not_marks hm]

/-- A request of a call that gets more time. -/
theorem request_extend {r r' : Gate.Request} (hm : x.marks c = true)
    (hr : ∀ g, (Gate.begin t w.clock r g).GivesUp ∨
      Gate.begin t w.clock r' g = x.gateSegment (Gate.begin t w.clock r g))
    (hs : Succeeds x.label (Task.request t c r w).world.journal) :
    Task.request t (x.call c) r' w = x.translation.segment (Task.request t c r w) := by
  unfold Task.request
  rw [site_call]
  exact atGate_extend hm (fun g _ => hr g) hs

theorem perform_waitFor_of_lt {site : Site} (d : Duration) (h : site.event < w.events.length) :
    Task.perform t site (.waitFor d) w =
      match Instant.add? w.clock d.toNanos with
      | none => Task.finish t (.single site (.waitFor d)) (.panicked .instantOverflow) [] w
      | some deadline => Task.atEvent t (.single site (.waitFor d)) site.event (some deadline) w :=
  if_pos h

theorem perform_waitFor_of_not_lt {site : Site} (d : Duration)
    (h : ¬site.event < w.events.length) :
    Task.perform t site (.waitFor d) w =
      Task.finish t (.single site (.waitFor d)) (.unknown .event) [] w :=
  if_neg h

/-- The start of a wait for an event that gets more time. -/
theorem waitFor_extend {site : Site} {old new : Duration} (ho : x.old = .waitFor old)
    (hn : x.new = .waitFor new) (hm : x.marks (.single site x.old) = true)
    (hd : (x.new.deadline? w.clock).isSome = true)
    (hs : Succeeds x.label (Task.perform t site x.old w).world.journal) :
    Task.perform t site x.new w = x.translation.segment (Task.perform t site x.old w) := by
  obtain ⟨site', -, heq, hc⟩ := eq_single_of_marks hm
  cases heq
  have hdeadlines := x.deadline_cases hd
  simp only [ho, hn, Operation.deadline?_waitFor, Option.map_eq_some_iff,
    Option.map_eq_none_iff] at hdeadlines
  rw [ho] at hm hs ⊢
  rw [ho, hn] at hc
  rw [hn]
  by_cases hlt : site.event < w.events.length
  · rw [perform_waitFor_of_lt old hlt] at hs ⊢
    rw [perform_waitFor_of_lt new hlt]
    rcases hdeadlines with hnone | ⟨d, ⟨a, ha, rfl⟩, b, hb, hab⟩
    · rw [hnone] at hs
      cases eq_of_succeeds_finish hm hs
    · simp only [ha] at hs ⊢
      simp only [hb]
      rw [hab, ← hc]
      exact atEvent_extend hm hs
  · rw [perform_waitFor_of_not_lt old hlt, perform_waitFor_of_not_lt new hlt, ← hc, finish_call]
    rfl

/-- The first segment of a call that gets more time. -/
theorem start_extend (hm : x.marks c = true) (hd : (x.new.deadline? w.clock).isSome = true)
    (hs : Succeeds x.label (Task.attempt t (.start c) w).world.journal) :
    Task.attempt t (.start (x.call c)) w = x.translation.segment (Task.attempt t (.start c) w) := by
  obtain ⟨site, -, rfl, hc⟩ := eq_single_of_marks hm
  rcases x.kinds with ⟨old, new, ho, hn⟩ | ⟨old, new, ho, hn⟩ | ⟨old, new, ho, hn⟩
  · have hrequest := request_extend (t := t) hm fun g => x.begin_enter_extend (g := g) ho hn hd
    rw [hc, hn, ho] at hrequest
    rw [ho] at hs
    rw [hc, hn, ho]
    exact hrequest hs
  · have hrequest := request_extend (t := t) hm fun g => x.begin_close_extend (g := g) ho hn hd
    rw [hc, hn, ho] at hrequest
    rw [ho] at hs
    rw [hc, hn, ho]
    exact hrequest hs
  · rw [hc]
    exact waitFor_extend ho hn hm hd hs

/-- A thread that was parked in a call that gets more time. -/
theorem resume_task_extend (hm : x.marks c = true) (wait : Wait)
    (hs : Succeeds x.label (Task.attempt t (.resume c wait) w).world.journal) :
    Task.attempt t (x.translation.task (.resume c wait)) w =
      x.translation.segment (Task.attempt t (.resume c wait) w) := by
  rw [task_resume, wait_of_marks hm]
  cases wait with
  | gate i waiting => exact atGate_extend hm (fun g _ => x.resume_extend waiting) hs
  | event i d => exact atEvent_extend hm hs

/-- A segment of a task whose call gets no more time itself. -/
theorem attempt_task_of_not_marks {task : Task} (hm : x.marks task.call = false) :
    Task.attempt t (x.translation.task task) w = x.translation.segment (Task.attempt t task w) := by
  cases task with
  | release c hold gate => exact dispose_call x hold
  | start c =>
      have hm' : x.marks c = false := hm
      cases c with
      | single site op =>
          have hc := call_single_of_not_marks hm'
          have hparks : (Task.attempt t (.start (.single site op)) w).ParksIn (.single site op) :=
            Task.parksIn_attempt
          rw [segment_of_parksIn hm' hc hparks, task_start, hc]
      | scope site hold timeout body panics =>
          exact atGate_call hm' (conclude_eq_segment t (.scope site hold timeout body panics))
  | resume c wait =>
      have hm' : x.marks c = false := hm
      cases c with
      | single site op =>
          have hc := call_single_of_not_marks hm'
          have hparks :
              (Task.attempt t (.resume (.single site op) wait) w).ParksIn (.single site op) :=
            Task.parksIn_attempt
          rw [segment_of_parksIn hm' hc hparks, task_resume, hc, wait_of_not_marks hm']
      | scope site hold timeout body panics =>
          rw [task_resume, wait_of_not_marks hm']
          cases wait with
          | gate i waiting =>
              exact atGate_call hm' (conclude_eq_segment t (.scope site hold timeout body panics))
          | event i d => exact atEvent_call hm' fun _ => rfl

variable (x) in
/-- **A segment with more time is the same segment**, if its journal reports only successes of the
calls that get more time, and there is a deadline for those that start. -/
theorem attempt_extend (t : ThreadId) (task : Task) (w : World)
    (hd : ∀ c, task = .start c → x.marks c = true → (x.new.deadline? w.clock).isSome = true)
    (hs : Succeeds x.label (task.attempt t w).world.journal) :
    (x.translation.task task).attempt t w = x.translation.segment (task.attempt t w) := by
  cases hm : x.marks task.call with
  | false => exact attempt_task_of_not_marks hm
  | true =>
      cases task with
      | start c => exact start_extend hm (hd c rfl hm) hs
      | resume c wait => exact resume_task_extend hm wait hs
      | release c hold gate => exact dispose_call x hold

/-! ### Giving up -/

theorem givesUp_resume {g : Gate} {now d : Nat} {waiting : Gate.Waiting}
    (hr : waiting.ready g = false) (hd : waiting.deadline = some d) (hle : d ≤ now) :
    (Gate.resume t now waiting g).GivesUp := by
  have hexpired : ∀ {holds : Bool}, holds = false → look holds (some d) now = .expired :=
    fun h => look_eq_expired.2 ⟨h, d, rfl, hle⟩
  cases waiting with
  | entry timeout deadline =>
      obtain rfl : deadline = some d := hd
      simp only [Gate.Waiting.ready] at hr
      simp only [Gate.resume, Gate.awaitEntry, hexpired hr]
      exact .inl rfl
  | exclusivity deadline =>
      obtain rfl : deadline = some d := hd
      simp only [Gate.Waiting.ready] at hr
      simp only [Gate.resume, Gate.awaitExclusivity, hexpired hr]
      exact .inl rfl
  | drain deadline =>
      obtain rfl : deadline = some d := hd
      simp only [Gate.Waiting.ready] at hr
      simp only [Gate.resume, Gate.awaitDrain, hexpired hr]
      exact .inl rfl

/-- **A call whose deadline has come without what it waits for** does not succeed. -/
theorem not_succeeds_of_expired {wait : Wait} {d : Nat} (hm : x.marks c = true)
    (hr : ¬wait.Ready w) (hd : wait.deadline = some d) (hle : d ≤ w.clock) :
    ¬Succeeds x.label (Task.attempt t (.resume c wait) w).world.journal := by
  intro hs
  cases wait with
  | gate i waiting =>
      cases hg : w.gates[i]? with
      | none =>
          simp only [Task.attempt, Task.atGate, hg] at hs
          cases eq_of_succeeds_finish hm hs
      | some g =>
          have hready : waiting.ready g = false :=
            Bool.eq_false_iff.2 fun h => hr ⟨g, hg, h⟩
          exact not_givesUp_of_succeeds hm hg hs (givesUp_resume hready hd hle)
  | event i deadline =>
      obtain rfl : deadline = some d := hd
      cases he : w.events[i]? with
      | none =>
          simp only [Task.attempt, Task.atEvent, he] at hs
          cases eq_of_succeeds_finish hm hs
      | some e =>
          have hset : e.set = false := Bool.eq_false_iff.2 fun h => hr ⟨e, he, h⟩
          have hexpired : look e.set (some d) w.clock = .expired :=
            look_eq_expired.2 ⟨hset, d, rfl, hle⟩
          simp only [Task.attempt, Task.atEvent, he, Event.await, hexpired] at hs
          have hflag := eq_of_succeeds_finish hm hs
          rw [(ofWait_of_marks hm false).1] at hflag
          cases hflag

end Tasks

end Extension

end Script

end ReentrantGate
