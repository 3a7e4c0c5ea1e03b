/-
**What a thread does next.**

A thread in the middle of a script has a stack of *tasks*: calls to start, a call to resume after it
was parked, and guards to release.  Carrying out one segment of a task either parks the thread or
finishes with the task.  Only a segment that finishes notifies anybody.

Main definitions:

* `Script.Wait`, `Script.Place`, `Script.Notice` — why a thread is parked, where, and who wakes it;
* `Script.weigh` — the weights of all members of a list together;
* `Script.Task`, `Script.Follow`, `Script.Segment`;
* `Task.attempt` — one segment of a task.
-/

import ReentrantGate.Script.World

set_option relaxedAutoImplicit false
set_option autoImplicit false

namespace ReentrantGate.Script

/-! ### Parking -/

/-- Why a thread is parked: at a gate, or for an event until a deadline. -/
inductive Wait
  | gate (index : Nat) (waiting : Gate.Waiting)
  | event (index : Nat) (deadline : Deadline)
  deriving DecidableEq

/-- Where a thread is parked: in a room of a gate, or at an event. -/
inductive Place
  | room (gate : Nat) (room : Gate.Room)
  | event (index : Nat)
  deriving DecidableEq

namespace Wait

/-- The place of a thread that waits. -/
def place : Wait → Place
  | gate i w => .room i w.room
  | event i _ => .event i

/-- The deadline of a thread that waits. -/
def deadline : Wait → Deadline
  | gate _ w => w.deadline
  | event _ d => d

end Wait

/-- Who is woken: all threads at a place, or the one that has been there longest. -/
inductive Notice
  | all (place : Place)
  | one (place : Place)
  deriving DecidableEq

/-! ### Adding up -/

/-- The weights of all members of a list together. -/
def weigh {α : Type} (weight : α → Nat) : List α → Nat
  | [] => 0
  | a :: as => weight a + weigh weight as

section Weigh

variable {α β : Type} (weight : α → Nat)

@[simp] theorem weigh_nil : weigh weight [] = 0 := rfl

@[simp] theorem weigh_cons (a : α) (as : List α) :
    weigh weight (a :: as) = weight a + weigh weight as := rfl

@[simp] theorem weigh_append (as bs : List α) :
    weigh weight (as ++ bs) = weigh weight as + weigh weight bs := by
  induction as with
  | nil => simp
  | cons a as ih =>
      rw [List.cons_append, weigh_cons, weigh_cons, ih]
      omega

theorem weigh_map (f : β → α) (bs : List β) :
    weigh weight (bs.map f) = weigh (fun b => weight (f b)) bs := by
  induction bs with
  | nil => rfl
  | cons b bs ih => rw [List.map_cons, weigh_cons, weigh_cons, ih]

end Weigh

/-! ### Tasks -/

/-- A call to start, a call to resume, or a guard to release on behalf of a call. -/
inductive Task
  | start (call : Call)
  | resume (call : Call) (wait : Wait)
  | release (call : Call) (hold : Hold) (gate : Nat)

/-- What is left to do when a segment has finished: nothing, the body of the scope whose guard was
acquired, or the release of a guard whose name was taken by a new one. -/
inductive Follow
  | nothing
  | body
  | release (hold : Hold) (gate : Nat)

/-- One segment of a task. -/
inductive Segment
  | park (world : World) (call : Call) (wait : Wait)
  | done (world : World) (notices : List Notice) (follow : Follow)

namespace Task

/-- How much work a task may still be. -/
def weight : Task → Nat
  | start c => c.weight
  | resume c _ => c.weight
  | release .. => 1

/-- The weight of a stack of tasks. -/
def weights (ts : List Task) : Nat := weigh weight ts

/-- The call that a task belongs to. -/
def call : Task → Call
  | start c => c
  | resume c _ => c
  | release c .. => c

/-- The body of a scope, followed by the release of its guard. -/
def ofBody : Call → List Task
  | .single .. => []
  | .scope site hold timeout body panics =>
      body.map start ++ [release (.scope site hold timeout body panics) hold site.gate]

/-- The tasks that follow a task. -/
def follow : Task → Follow → List Task
  | _, .nothing => []
  | release .., _ => []
  | task, .body => ofBody task.call
  | task, .release hold gate => [release task.call hold gate]

/-! ### How calls end -/

/-- The result of a call that ends with a verdict of its gate. -/
def ofVerdict : Gate.Verdict → Result
  | .granted => .flag true
  | .timedOut => .flag false
  | .released => .ok
  | .misused usage => .refused (.misuse usage)
  | .overflowed => .panicked .instantOverflow

/-- The result of a call that waited for its event. -/
def ofWait (c : Call) (success : Bool) : Result :=
  match c with
  | .single _ .wait => .ok
  | _ => .flag success

/-- The result of a call whose guard was released: a scope panics if it was told to. -/
def ofRelease : Call → Result
  | .single _ (.guarded ..) => .flag true
  | .single .. => .ok
  | .scope _ _ _ _ panics => if panics then .panicked .scope else .flag true

/-- The result of a call whose guard was dropped with some verdict. -/
def ofDrop (c : Call) (hold : Hold) : Gate.Verdict → Result
  | .released => ofRelease c
  | .misused _ => .panicked (.guardOutlived hold)
  | verdict => ofVerdict verdict

/-- The call is over. -/
def finish (t : ThreadId) (c : Call) (result : Result) (notices : List Notice) (w : World) :
    Segment := .done (w.report t c result) notices .nothing

/-! ### Segments at gates -/

/-- A segment at gate `i`.  A sink that fails on the note unwinds the call after everything else
has been done; otherwise `conclude` says how the verdict ends the call. -/
def atGate (t : ThreadId) (c : Call) (i : Nat) (segment : Gate → Gate.Segment)
    (conclude : Gate.Verdict → List Notice → World → Segment) (w : World) : Segment :=
  match w.gates[i]? with
  | none => finish t c (.unknown .gate) [] w
  | some g =>
      match segment g with
      | .park g' waiting => .park (w.setGate i g') c (.gate i waiting)
      | .done g' woken note verdict =>
          let notices := (woken.map fun room => Notice.all (.room i room)).toList
          match (w.setGate i g').emit note with
          | (w', true) => finish t c (.panicked .sinkFailed) notices w'
          | (w', false) => conclude verdict notices w'

/-- How a verdict ends a call that asked a gate for something. -/
def conclude (t : ThreadId) (c : Call) (verdict : Gate.Verdict) (notices : List Notice)
    (w : World) : Segment :=
  match c, verdict with
  | .scope .., .granted => .done w notices .body
  | .single site (.guarded hold _ name), .granted =>
      match w.guard? t name with
      | none => finish t c (.flag true) notices (w.keep ⟨t, name, hold, site.gate⟩)
      | some old =>
          .done (w.keep ⟨t, name, hold, site.gate⟩) notices (.release old.hold old.gate)
  | _, _ => finish t c (ofVerdict verdict) notices w

/-- A call asks its gate for something. -/
def request (t : ThreadId) (c : Call) (r : Gate.Request) (w : World) : Segment :=
  atGate t c c.site.gate (Gate.begin t w.clock r) (conclude t c) w

/-- A call asks its gate for something with a timeout in the signed convention. -/
def requestMillis (t : ThreadId) (c : Call) (ms : Int) (r : Timeout → Gate.Request) (w : World) :
    Segment :=
  match Timeout.ofMillis? ms with
  | none => finish t c (.refused (.invalidTimeout ms)) [] w
  | some timeout => request t c (r timeout) w

/-- What acquiring a guard asks of the gate. -/
def acquisition (timeout : Timeout) : Hold → Gate.Request
  | .entry => .enter timeout
  | .close => .close timeout

/-- What dropping a guard asks of the gate. -/
def disposal : Hold → Gate.Request
  | .entry => .exit
  | .close => .reopen

/-- A guard is dropped on behalf of a call. -/
def dispose (t : ThreadId) (c : Call) (hold : Hold) (gate : Nat) (w : World) : Segment :=
  atGate t c gate (Gate.begin t w.clock (disposal hold))
    (fun verdict notices w' => finish t c (ofDrop c hold verdict) notices w') w

/-- A call only looks at its gate. -/
def inspect (t : ThreadId) (c : Call) (look : Gate → Result) (w : World) : Segment :=
  match w.gates[c.site.gate]? with
  | none => finish t c (.unknown .gate) [] w
  | some g => finish t c (look g) [] w

/-! ### Segments at events -/

/-- A segment of a wait for event `i`. -/
def atEvent (t : ThreadId) (c : Call) (i : Nat) (deadline : Deadline) (w : World) : Segment :=
  match w.events[i]? with
  | none => finish t c (.unknown .event) [] w
  | some e =>
      match e.await deadline w.clock with
      | .park => .park w c (.event i deadline)
      | .done e' success => finish t c (ofWait c success) [] (w.setEvent i e')

/-- An operation on handles is over; it may have ended a family. -/
def endFamily (t : ThreadId) (c : Call) (outcome : Option (Handles × Option Nat)) (w : World) :
    Segment :=
  match outcome with
  | none => finish t c (.unknown .guard) [] w
  | some (handles, none) => finish t c .ok [] { w with handles := handles }
  | some (handles, some e) =>
      finish t c .ok [.one (.event e)] ({ w with handles := handles }.signal e)

/-- A call about an event that does not exist changes nothing. -/
def withEvent (t : ThreadId) (c : Call) (segment : World → Segment) (w : World) : Segment :=
  if c.site.event < w.events.length then segment w else finish t c (.unknown .event) [] w

/-! ### One segment -/

/-- The first segment of an operation. -/
def perform (t : ThreadId) (site : Site) (op : Operation) (w : World) : Segment :=
  let c := Call.single site op
  match op with
  | .enter ms => requestMillis t c ms .enter w
  | .enterFor timeout => request t c (.enter timeout) w
  | .exit => request t c .exit w
  | .close ms => requestMillis t c ms .close w
  | .closeFor timeout => request t c (.close timeout) w
  | .reopen => request t c .reopen w
  | .entries => inspect t c (fun g => .count g.entered) w
  | .isClosed => inspect t c (fun g => .flag (0 < g.closed)) w
  | .snapshot => inspect t c (fun g => .view g.snapshot) w
  | .guarded hold timeout _ => request t c (acquisition timeout hold) w
  | .drop name =>
      match w.guard? t name with
      | none => finish t c (.unknown .guard) [] w
      | some g => dispose t c g.hold g.gate (w.withoutGuard t name)
  | .forget name => finish t c .ok [] (w.withoutGuard t name)
  | .signal times =>
      withEvent t c (fun w =>
        finish t c .ok (List.replicate times (.one (.event site.event)))
          (if times = 0 then w else w.signal site.event)) w
  | .wait => atEvent t c site.event none w
  | .waitFor duration =>
      withEvent t c (fun w =>
        match Instant.add? w.clock duration.toNanos with
        | none => finish t c (.panicked .instantOverflow) [] w
        | some deadline => atEvent t c site.event (some deadline) w) w
  | .createHandle name =>
      withEvent t c (fun w => endFamily t c (some (w.handles.create name site.event)) w) w
  | .cloneHandle source name => endFamily t c (w.handles.clone? source name) w
  | .dropHandle name => endFamily t c (w.handles.drop? name) w
  | .failRecords count => finish t c .ok [] { w with failing := count }

/-- One segment of a task. -/
def attempt (t : ThreadId) (task : Task) (w : World) : Segment :=
  match task with
  | start (.single site op) => perform t site op w
  | start (.scope site hold timeout body panics) =>
      request t (.scope site hold timeout body panics) (acquisition timeout hold) w
  | resume c (.gate i waiting) =>
      atGate t c i (Gate.resume t w.clock waiting) (conclude t c) w
  | resume c (.event i deadline) => atEvent t c i deadline w
  | release c hold gate => dispose t c hold gate w

end Task

end ReentrantGate.Script
