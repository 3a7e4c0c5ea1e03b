/-
**What a segment of a task does to gates and events.**

Whatever call a thread carries out, a segment of it does one of a few things: it is a segment of one
gate, a look at one event, a number of signals for one event, or it leaves all gates and events
alone.  The relation `Script.Effect` lists them, with the notices that go with each; guards, handles
and the log play no part in it.

Main definitions:

* `Script.World.Follows` — two worlds with the same gates, events and clock, the second with more in
  its journal;
* `Script.Task.AtGate`, `Script.Task.AtEvent` — how a task comes to a gate or to an event;
* `Script.Effect` — what a segment of a task can do.

Main results:

* `Script.Task.attempt_effect` — **every segment of a task is on the list**;
* `Script.Effect.prefix_journal`, `Script.Effect.clock_eq` — no segment takes anything out of the
  journal, or moves the clock.
-/

import ReentrantGate.Event.Crowd
import ReentrantGate.Script.Progress

set_option relaxedAutoImplicit false
set_option autoImplicit false

namespace ReentrantGate.Script

/-! ### Worlds that differ in other things -/

/-- The world `w'` has the gates, events and clock of `w`, and the journal of `w` with perhaps more
at its end. -/
structure World.Follows (w' w : World) : Prop where
  gates : w'.gates = w.gates
  events : w'.events = w.events
  clock : w'.clock = w.clock
  journal : w.journal <+: w'.journal

namespace World

variable {w w' w'' : World} {t : ThreadId}

theorem Follows.refl (w : World) : w.Follows w := ⟨rfl, rfl, rfl, List.prefix_refl _⟩

theorem Follows.trans (h' : w''.Follows w') (h : w'.Follows w) : w''.Follows w where
  gates := h'.gates.trans h.gates
  events := h'.events.trans h.events
  clock := h'.clock.trans h.clock
  journal := h.journal.trans h'.journal

theorem follows_report (w : World) (t : ThreadId) (c : Call) (r : Result) :
    (w.report t c r).Follows w := ⟨rfl, rfl, rfl, List.prefix_append ..⟩

theorem follows_emit (w : World) (note : Option Gate.Note) : (w.emit note).1.Follows w := by
  cases note with
  | none => exact .refl w
  | some note =>
      unfold emit
      cases w.silent with
      | true => exact .refl w
      | false =>
          cases w.failing with
          | zero => exact ⟨rfl, rfl, rfl, List.prefix_append ..⟩
          | succ n => exact ⟨rfl, rfl, rfl, List.prefix_refl _⟩

theorem follows_keep (w : World) (g : Guard) : (w.keep g).Follows w :=
  ⟨rfl, rfl, rfl, List.prefix_refl _⟩

theorem follows_withoutGuard (w : World) (t : ThreadId) (name : String) :
    (w.withoutGuard t name).Follows w := ⟨rfl, rfl, rfl, List.prefix_refl _⟩

theorem follows_handles (w : World) (handles : Handles) :
    { w with handles := handles }.Follows w := ⟨rfl, rfl, rfl, List.prefix_refl _⟩

theorem follows_failing (w : World) (count : Nat) : { w with failing := count }.Follows w :=
  ⟨rfl, rfl, rfl, List.prefix_refl _⟩

/-- A gate that is put back changes nothing. -/
theorem setGate_self {i : Nat} {g : Gate} (h : w.gates[i]? = some g) : w.setGate i g = w := by
  obtain ⟨hlt, hget⟩ := List.getElem?_eq_some_iff.1 h
  simp [World.setGate, ← hget]

theorem Follows.setGate (h : w'.Follows w) (i : Nat) (g : Gate) :
    (w'.setGate i g).Follows (w.setGate i g) :=
  ⟨by simp [World.setGate, h.gates], h.events, h.clock, h.journal⟩

end World

/-! ### The list -/

namespace Task

theorem follow_nothing (task : Task) : task.follow .nothing = [] := by cases task <;> rfl

/-- Whether a task goes on with a call that was parked. -/
def isResume : Task → Bool
  | resume .. => true
  | _ => false

/-- The segment of gate `i` that a task of `t` carries out, when the gate is `g`: the first one of a
request, or the next one of a thread that was parked there. -/
inductive AtGate (t : ThreadId) (now : Nat) (g : Gate) : Task → Nat → Gate.Segment → Prop
  | begin {task : Task} {i : Nat} (r : Gate.Request) : task.isResume = false →
      AtGate t now g task i (Gate.begin t now r g)
  | resume {c : Call} {i : Nat} {waiting : Gate.Waiting} :
      AtGate t now g (.resume c (.gate i waiting)) i (Gate.resume t now waiting g)

/-- The deadline with which a task looks at event `i`: that of a wait which starts, or of one that
was parked there. -/
inductive AtEvent (now : Nat) : Task → Nat → Deadline → Prop
  | begin {task : Task} {i : Nat} {limit : Option Duration} {deadline : Deadline} :
      task.isResume = false →
      Event.Crowd.deadline? { clock := now } limit = some deadline → AtEvent now task i deadline
  | resume {c : Call} {i : Nat} {deadline : Deadline} :
      AtEvent now (.resume c (.event i deadline)) i deadline

section Inversions

variable {t : ThreadId} {now i j : Nat} {g : Gate} {task : Task} {segment : Gate.Segment}
  {deadline : Deadline}

theorem ne_resume (h : task.isResume = false) (c : Call) (wait : Wait) : task ≠ .resume c wait := by
  rintro rfl
  cases h

theorem AtGate.begin_or_resume (h : task.AtGate t now g i segment) :
    (task.isResume = false ∧ ∃ r, segment = Gate.begin t now r g) ∨
      ∃ c waiting, task = .resume c (.gate i waiting) ∧ segment = Gate.resume t now waiting g := by
  cases h with
  | begin r hr => exact .inl ⟨hr, r, rfl⟩
  | resume => exact .inr ⟨_, _, rfl, rfl⟩

/-- A task that comes to one gate was not parked at another. -/
theorem AtGate.ne_resume (h : task.AtGate t now g j segment) (hji : j ≠ i) (c : Call)
    (waiting : Gate.Waiting) : task ≠ .resume c (.gate i waiting) := by
  rcases h.begin_or_resume with ⟨hr, -⟩ | ⟨c', waiting', rfl, -⟩
  · exact Task.ne_resume hr c _
  · simp [hji]

theorem AtEvent.begin_or_resume (h : task.AtEvent now i deadline) :
    (task.isResume = false ∧
        ∃ limit, Event.Crowd.deadline? { clock := now } limit = some deadline) ∨
      ∃ c, task = .resume c (.event i deadline) := by
  cases h with
  | begin hr hd => exact .inl ⟨hr, _, hd⟩
  | resume => exact .inr ⟨_, rfl⟩

/-- A task that comes to an event was not parked at a gate. -/
theorem AtEvent.ne_resume_gate (h : task.AtEvent now j deadline) (c : Call)
    (waiting : Gate.Waiting) : task ≠ .resume c (.gate i waiting) := by
  rcases h.begin_or_resume with ⟨hr, -⟩ | ⟨c', rfl⟩
  · exact Task.ne_resume hr c _
  · simp

/-- A task that comes to one event was not parked at another. -/
theorem AtEvent.ne_resume (h : task.AtEvent now j deadline) (hji : j ≠ i) (c : Call)
    (d : Deadline) : task ≠ .resume c (.event i d) := by
  rcases h.begin_or_resume with ⟨hr, -⟩ | ⟨c', rfl⟩
  · exact Task.ne_resume hr c _
  · simp [hji]

/-- A task that comes to a gate was not parked at an event. -/
theorem AtGate.ne_resume_event (h : task.AtGate t now g j segment) (c : Call) (d : Deadline) :
    task ≠ .resume c (.event i d) := by
  rcases h.begin_or_resume with ⟨hr, -⟩ | ⟨c', waiting', rfl, -⟩
  · exact Task.ne_resume hr c _
  · simp

end Inversions

end Task

/-- Whether there is no such place in a world. -/
def Wait.Missing (w : World) : Wait → Prop
  | gate i _ => w.gates[i]? = none
  | event i _ => w.events[i]? = none

/-- **What a segment of a task can do** to the gates and events of a world, and to whom it gives
notice. -/
inductive Effect (t : ThreadId) (w : World) (task : Task) : Segment → Prop
  | gatePark {i : Nat} {g g' : Gate} {waiting : Gate.Waiting} {w' : World} :
      w.gates[i]? = some g → task.AtGate t w.clock g i (.park g' waiting) →
      w'.Follows (w.setGate i g') → Effect t w task (.park w' task.call (.gate i waiting))
  | gateDone {i : Nat} {g g' : Gate} {room : Option Gate.Room} {note : Option Gate.Note}
      {verdict : Gate.Verdict} {w' : World} {follow : Follow} : w.gates[i]? = some g →
      task.AtGate t w.clock g i (.done g' room note verdict) → w'.Follows (w.setGate i g') →
      follow = .nothing ∨ verdict = .granted →
      Effect t w task (.done w' (room.map fun r => .all (.room i r)).toList follow)
  | eventPark {i : Nat} {e : Event} {deadline : Deadline} : w.events[i]? = some e →
      task.AtEvent w.clock i deadline → e.await deadline w.clock = .park →
      Effect t w task (.park w task.call (.event i deadline))
  | eventDone {i : Nat} {e e' : Event} {deadline : Deadline} {success : Bool} {w' : World} :
      w.events[i]? = some e → task.AtEvent w.clock i deadline →
      e.await deadline w.clock = .done e' success → w'.Follows (w.setEvent i e') →
      Effect t w task (.done w' [] .nothing)
  | signal {i times : Nat} {w' : World} : task.isResume = false →
      w'.Follows (if times = 0 then w else w.signal i) →
      Effect t w task (.done w' (List.replicate times (.one (.event i))) .nothing)
  | apart {w' : World} : (∀ c wait, task = .resume c wait → wait.Missing w) →
      w'.Follows w → Effect t w task (.done w' [] .nothing)

/-! ### Every segment is on the list -/

namespace Task

variable {t : ThreadId} {w w' : World} {task : Task} {c : Call} {i : Nat}

theorem not_missing_of_start (h : task.isResume = false) :
    ∀ c wait, task = .resume c wait → wait.Missing w :=
  fun c wait heq => absurd heq (ne_resume h c wait)

/-- A call that is over leaves gates and events alone. -/
theorem effect_finish (h : w'.Follows w) (hr : task.isResume = false) (r : Result) :
    Effect t w task (finish t c r [] w') :=
  .apart (not_missing_of_start hr) ((World.follows_report ..).trans h)

/-! ### Segments at gates -/

/-- However a verdict ends a call, that is all that happens, and there is more to do only if it was
granted something. -/
theorem conclude_eq_done (t : ThreadId) (c : Call) (v : Gate.Verdict) (ns : List Notice)
    (w : World) : ∃ w' follow, conclude t c v ns w = .done w' ns follow ∧ w'.Follows w ∧
      (follow = .nothing ∨ v = .granted) := by
  unfold conclude
  split
  · exact ⟨_, _, rfl, .refl w, .inr rfl⟩
  · split
    · exact ⟨_, _, rfl, (World.follows_report ..).trans (World.follows_keep ..), .inr rfl⟩
    · exact ⟨_, _, rfl, World.follows_keep .., .inr rfl⟩
  · exact ⟨_, _, rfl, World.follows_report .., .inl rfl⟩

/-- A segment at a gate has the effect of the gate's segment, however its verdict ends the call. -/
theorem effect_atGate {segment : Gate → Gate.Segment}
    {k : Gate.Verdict → List Notice → World → Segment} (h : w'.Follows w)
    (hs : ∀ g, w.gates[i]? = some g → task.AtGate t w.clock g i (segment g))
    (hm : w.gates[i]? = none → ∀ c wait, task = .resume c wait → wait.Missing w)
    (hk : ∀ v ns x, ∃ x' follow, k v ns x = .done x' ns follow ∧ x'.Follows x ∧
      (follow = .nothing ∨ v = .granted)) :
    Effect t w task (atGate t task.call i segment k w') := by
  unfold atGate
  split
  · rename_i hg
    rw [h.gates] at hg
    exact .apart (hm hg) ((World.follows_report ..).trans h)
  · rename_i g hg
    rw [h.gates] at hg
    have hseg := hs g hg
    split
    · rename_i g' waiting hpark
      rw [hpark] at hseg
      exact .gatePark hg hseg (h.setGate i g')
    · rename_i g' room note verdict hdone
      rw [hdone] at hseg
      have hemit := (World.follows_emit (w'.setGate i g') note).trans (h.setGate i g')
      split
      · rename_i x hx
        rw [hx] at hemit
        exact .gateDone hg hseg ((World.follows_report ..).trans hemit) (.inl rfl)
      · rename_i x hx
        rw [hx] at hemit
        obtain ⟨x', follow, hkx, hx', hmore⟩ :=
          hk verdict (room.map fun room => Notice.all (.room i room)).toList x
        rw [hkx]
        exact .gateDone hg hseg (hx'.trans hemit) hmore

theorem effect_request (hr : task.isResume = false) (r : Gate.Request) :
    Effect t w task (request t task.call r w) :=
  effect_atGate (.refl w) (fun _ _ => .begin r hr) (fun _ => not_missing_of_start hr)
    fun v ns x => conclude_eq_done t task.call v ns x

theorem effect_requestMillis (hr : task.isResume = false) (ms : Int)
    (r : Timeout → Gate.Request) : Effect t w task (requestMillis t task.call ms r w) := by
  unfold requestMillis
  split
  · exact effect_finish (.refl w) hr _
  · exact effect_request hr _

theorem effect_dispose (h : w'.Follows w) (hr : task.isResume = false) (hold : Hold) :
    Effect t w task (dispose t task.call hold i w') := by
  refine effect_atGate h (fun g _ => ?_) (fun _ => not_missing_of_start hr) fun v ns x =>
    ⟨_, _, rfl, World.follows_report .., .inl rfl⟩
  rw [h.clock]
  exact .begin _ hr

theorem effect_inspect (hr : task.isResume = false) (f : Gate → Result) :
    Effect t w task (inspect t c f w) := by
  unfold inspect
  split <;> exact effect_finish (.refl w) hr _

/-! ### Segments at events -/

/-- A look at an event has the effect that the event says. -/
theorem effect_atEvent {deadline : Deadline} (hd : task.AtEvent w.clock i deadline)
    (hm : w.events[i]? = none → ∀ c wait, task = .resume c wait → wait.Missing w) :
    Effect t w task (atEvent t task.call i deadline w) := by
  unfold atEvent
  split
  · rename_i he
    exact .apart (hm he) (World.follows_report ..)
  · rename_i e he
    split
    · rename_i hpark
      exact .eventPark he hd hpark
    · rename_i e' success hdone
      exact .eventDone he hd hdone (World.follows_report ..)

theorem effect_endFamily (hr : task.isResume = false) (o : Option (Handles × Option Nat)) :
    Effect t w task (endFamily t c o w) := by
  unfold endFamily
  split
  · exact effect_finish (.refl w) hr _
  · exact effect_finish (World.follows_handles ..) hr _
  · rename_i handles e
    have hw : { w with handles := handles }.signal e |>.Follows (w.signal e) :=
      ⟨rfl, rfl, rfl, List.prefix_refl _⟩
    exact @Effect.signal t w task e 1 _ hr ((World.follows_report ..).trans hw)

theorem effect_withEvent {segment : World → Segment} (hr : task.isResume = false)
    (h : Effect t w task (segment w)) : Effect t w task (withEvent t c segment w) := by
  unfold withEvent
  split
  · exact h
  · exact effect_finish (.refl w) hr _

theorem effect_perform {site : Site} {op : Operation} :
    Effect t w (.start (.single site op)) (perform t site op w) := by
  have hr : (start (.single site op)).isResume = false := rfl
  cases op with
  | enter ms => exact effect_requestMillis hr ms .enter
  | close ms => exact effect_requestMillis hr ms .close
  | enterFor timeout => exact effect_request hr _
  | exit => exact effect_request hr _
  | closeFor timeout => exact effect_request hr _
  | reopen => exact effect_request hr _
  | guarded hold timeout name => exact effect_request hr _
  | entries => exact effect_inspect hr _
  | isClosed => exact effect_inspect hr _
  | snapshot => exact effect_inspect hr _
  | drop name =>
      simp only [perform]
      split
      · exact effect_finish (.refl w) hr _
      · exact effect_dispose (World.follows_withoutGuard ..) hr _
  | forget name => exact effect_finish (World.follows_withoutGuard ..) hr _
  | signal times =>
      simp only [perform]
      exact effect_withEvent hr (.signal hr (World.follows_report ..))
  | wait =>
      have hlimit : Event.Crowd.deadline? { clock := w.clock } none = some none := rfl
      exact effect_atEvent (.begin hr hlimit) fun _ => not_missing_of_start hr
  | waitFor duration =>
      simp only [perform]
      refine effect_withEvent hr ?_
      split
      · exact effect_finish (.refl w) hr _
      · rename_i deadline hd
        have hlimit : Event.Crowd.deadline? { clock := w.clock } (some duration) =
            some (some deadline) := by simp [Event.Crowd.deadline?, hd]
        exact effect_atEvent (.begin hr hlimit) fun _ => not_missing_of_start hr
  | createHandle name => exact effect_withEvent hr (effect_endFamily hr _)
  | cloneHandle source name => exact effect_endFamily hr _
  | dropHandle name => exact effect_endFamily hr _
  | failRecords count => exact effect_finish (World.follows_failing ..) hr _

/-- **Every segment of a task is on the list.** -/
theorem attempt_effect (t : ThreadId) (task : Task) (w : World) :
    Effect t w task (attempt t task w) := by
  cases task with
  | start c =>
      cases c with
      | single site op => exact effect_perform
      | scope site hold timeout body panics =>
          exact @effect_request t w (.start (.scope site hold timeout body panics)) rfl _
  | resume c wait =>
      cases wait with
      | gate i waiting =>
          refine @effect_atGate t w w (.resume c (.gate i waiting)) i _ _ (.refl w)
            (fun _ _ => .resume) ?_ fun v ns x => conclude_eq_done t c v ns x
          rintro hg _ _ ⟨rfl, rfl⟩
          exact hg
      | event i deadline =>
          refine @effect_atEvent t w (.resume c (.event i deadline)) i _ .resume ?_
          rintro he _ _ ⟨rfl, rfl⟩
          exact he
  | release c hold gate =>
      exact @effect_dispose t w w (.release c hold gate) gate (.refl w) rfl hold

end Task

/-! ### What no segment does -/

/-- The world that a segment leaves behind. -/
def Segment.world : Segment → World
  | park w _ _ => w
  | done w _ _ => w

namespace Effect

variable {t : ThreadId} {w : World} {task : Task} {s : Segment}

/-- **No segment takes anything out of the journal.** -/
theorem prefix_journal (h : Effect t w task s) : w.journal <+: s.world.journal := by
  cases h with
  | gatePark _ _ hw => exact hw.journal
  | gateDone _ _ hw _ => exact hw.journal
  | eventPark _ _ _ => exact List.prefix_refl _
  | eventDone _ _ _ hw => exact hw.journal
  | signal _ hw =>
      refine List.IsPrefix.trans ?_ hw.journal
      split <;> exact List.prefix_refl _
  | apart _ hw => exact hw.journal

/-- **No segment moves the clock.** -/
theorem clock_eq (h : Effect t w task s) : s.world.clock = w.clock := by
  cases h with
  | gatePark _ _ hw => exact hw.clock
  | gateDone _ _ hw _ => exact hw.clock
  | eventPark _ _ _ => rfl
  | eventDone _ _ _ hw => exact hw.clock
  | signal _ hw =>
      refine hw.clock.trans ?_
      split <;> rfl
  | apart _ hw => exact hw.clock

/-- No segment adds a gate or takes one away. -/
theorem length_gates (h : Effect t w task s) : s.world.gates.length = w.gates.length := by
  cases h with
  | gatePark _ _ hw => simp [Segment.world, hw.gates, World.setGate]
  | gateDone _ _ hw _ => simp [Segment.world, hw.gates, World.setGate]
  | eventPark _ _ _ => rfl
  | eventDone _ _ _ hw => simp [Segment.world, hw.gates, World.setEvent]
  | signal _ hw =>
      rw [Segment.world, hw.gates]
      split <;> rfl
  | apart _ hw => rw [Segment.world, hw.gates]

/-- No segment adds an event or takes one away. -/
theorem length_events (h : Effect t w task s) : s.world.events.length = w.events.length := by
  cases h with
  | gatePark _ _ hw => simp [Segment.world, hw.events, World.setGate]
  | gateDone _ _ hw _ => simp [Segment.world, hw.events, World.setGate]
  | eventPark _ _ _ => rfl
  | eventDone _ _ _ hw => simp [Segment.world, hw.events, World.setEvent]
  | signal _ hw =>
      rw [Segment.world, hw.events]
      split
      · rfl
      · simp [World.signal]
  | apart _ hw => rw [Segment.world, hw.events]

end Effect

end ReentrantGate.Script
