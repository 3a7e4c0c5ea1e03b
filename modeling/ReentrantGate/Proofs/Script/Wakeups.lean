/-
**No wakeup storm.**

A thread may be woken for nothing and park again, over and over, but it takes others to wake it, and
they run out of calls.  A thread that parks wakes nobody; whoever wakes others is through with its
call; and whoever is woken by the clock gives its call up and does not park in it again, in neither
phase of a close.  So there is an end to every step.

Main definitions:

* `Script.Wait.Fails` — what a thread waits for is not the case;
* `Script.World.Ends` — a call is over, and the journal says so;
* `Script.System.Calm` — whom a turn can wake;
* `Script.System.Expires` — the clock ends the call of a sleeper;
* `Script.System.Rests` — a step takes finitely many turns and deadlines, and ends at rest.

Main results:

* `Script.Task.attempt_of_fails` — a thread that was woken for nothing parks where it was;
* `Script.Task.done_of_notices` — **only a call that is over wakes others**;
* `Script.Task.attempt_of_expired` — **a call that was waiting is over when its deadline has come**;
* `Script.no_wakeup_storm` — **every step comes to rest, and nobody is woken without need**.
-/

import ReentrantGate.Proofs.Script.Extension
import ReentrantGate.Proofs.Script.Settling

set_option relaxedAutoImplicit false
set_option autoImplicit false

/-! ### Whom a gate wakes -/

namespace ReentrantGate.Gate

variable {t : ThreadId} {now : Nat} {g g' : Gate} {room : Option Room} {note : Option Note}
  {timeout : Timeout} {deadline : Deadline}

theorem awaitEntry_granted
    (h : awaitEntry t timeout deadline now g = .done g' room note .granted) : room = none := by
  unfold awaitEntry at h
  split at h
  · cases h
    rfl
  · cases h
  · cases h

theorem awaitDrain_granted (h : awaitDrain t deadline now g = .done g' room note .granted) :
    room = none := by
  unfold awaitDrain at h
  split at h
  · cases h
    rfl
  · cases h
  · cases h

theorem awaitExclusivity_granted
    (h : awaitExclusivity t deadline now g = .done g' room note .granted) : room = none := by
  unfold awaitExclusivity at h
  split at h
  · exact awaitDrain_granted h
  · cases h
  · cases h

/-- **Nobody is woken by a call that is granted something**, when it starts, ... -/
theorem begin_granted {r : Request} (h : begin t now r g = .done g' room note .granted) :
    room = none := by
  cases r with
  | enter timeout =>
      simp only [begin, enter] at h
      split at h
      · cases h
        rfl
      · split at h
        · cases h
        · exact awaitEntry_granted h
  | exit =>
      simp only [begin, exit] at h
      split at h <;> cases h
  | close timeout =>
      simp only [begin, close] at h
      split at h
      · cases h
        rfl
      · split at h
        · cases h
        · exact awaitExclusivity_granted h
  | reopen =>
      simp only [begin, reopen] at h
      split at h
      · split at h <;> cases h
      · cases h

/-- ... and when it goes on. -/
theorem resume_granted {w : Waiting} (h : resume t now w g = .done g' room note .granted) :
    room = none := by
  cases w with
  | entry timeout deadline => exact awaitEntry_granted h
  | exclusivity deadline => exact awaitExclusivity_granted h
  | drain deadline => exact awaitDrain_granted h

/-- A thread that was woken for nothing, and before its deadline, parks as before. -/
theorem resume_of_not_ready {w : Waiting} (hr : w.ready g = false)
    (hd : ∀ d, w.deadline = some d → now < d) : resume t now w g = .park g w := by
  cases w with
  | entry timeout deadline =>
      have hlook : look g.closer.isNone deadline now = .park (deadline.map (· - now)) :=
        look_eq_park.2 ⟨hr, hd, rfl⟩
      simp only [resume, awaitEntry, hlook]
  | exclusivity deadline =>
      have hlook : look g.closer.isNone deadline now = .park (deadline.map (· - now)) :=
        look_eq_park.2 ⟨hr, hd, rfl⟩
      simp only [resume, awaitExclusivity, hlook]
  | drain deadline =>
      have hlook : look (g.foreign = 0) deadline now = .park (deadline.map (· - now)) :=
        look_eq_park.2 ⟨hr, hd, rfl⟩
      simp only [resume, awaitDrain, hlook]

end ReentrantGate.Gate

namespace ReentrantGate.Script

/-! ### Segments of a call -/

/-- What a thread waits for is not the case. -/
def Wait.Fails (w : World) : Wait → Prop
  | gate i waiting => ∃ g, w.gates[i]? = some g ∧ waiting.ready g = false
  | event i _ => ∃ e, w.events[i]? = some e ∧ e.set = false

/-- The call `c` of `t` is over in `w'`: the journal of `w` goes on with at most one log record and
says so. -/
def World.Ends (t : ThreadId) (c : Call) (w w' : World) : Prop :=
  ∃ (note : Option Record) (r : Result) (inside closing : Bool),
    w'.journal = w.journal ++ note.toList.map Entry.record ++
      [.finished t c.site.label c.name r inside closing]

namespace Task

variable {t : ThreadId} {task : Task} {c : Call} {wait : Wait} {w w' : World} {ns : List Notice}
  {follow : Follow}

/-- A segment that leaves nothing to do ends its call. -/
theorem ends_of_done (h : task.attempt t w = .done w' ns .nothing) : w.Ends t task.call w' := by
  have hwrites := attempt_writes t task w
  rw [h] at hwrites
  cases hwrites with
  | report hnotes hjournal =>
      obtain ⟨note, hnote⟩ := hnotes
      exact ⟨note, _, _, _, hjournal.trans (by rw [hnote])⟩
  | more _ hmore => exact absurd rfl hmore

/-- **A thread that was woken for nothing parks where it was**, and nothing has happened. -/
theorem attempt_of_fails (hf : wait.Fails w) (hd : ∀ d, wait.deadline = some d → w.clock < d) :
    attempt t (.resume c wait) w = .park w c wait := by
  cases wait with
  | gate i waiting =>
      obtain ⟨g, hg, hready⟩ := hf
      have hpark := Gate.resume_of_not_ready (t := t) hready hd
      simp only [attempt, atGate, hg, hpark, World.setGate_self hg]
  | event i deadline =>
      obtain ⟨e, he, hset⟩ := hf
      have hlook := look_eq_park.2 ⟨hset, hd, rfl⟩
      simp only [Wait.deadline] at hlook
      simp only [attempt, atEvent, he, Event.await, hlook]

theorem call_of_park (h : task.attempt t w = .park w' c wait) : c = task.call := by
  have hparks := @parksIn_attempt t task w
  rwa [h] at hparks

/-- What follows a task does not park in its call. -/
theorem follow_ne_park (task : Task) (follow : Follow) :
    ∀ x ∈ task.follow follow, ∀ w w' wait, x.attempt t w ≠ .park w' task.call wait := by
  intro x hx w w' wait hpark
  have hweight := weight_of_attempt_park hpark
  have hlt := task.weights_follow_lt follow
  have hle : x.weight ≤ weights (task.follow follow) := le_weigh_of_mem weight hx
  cases task with
  | start c =>
      simp only [call, weight] at *
      omega
  | resume c wait =>
      simp only [call, weight] at *
      omega
  | release c hold gate => cases follow <;> cases hx

/-- **Only a call that is over wakes others.** -/
theorem done_of_notices (h : task.attempt t w = .done w' ns follow) (hns : ns ≠ []) :
    follow = .nothing ∧ w.Ends t task.call w' := by
  have hnothing : follow = .nothing := by
    have heffect := attempt_effect t task w
    rw [h] at heffect
    generalize hseg : Segment.done w' ns follow = segment at heffect
    cases heffect with
    | gatePark _ _ _ => cases hseg
    | @gateDone i g g' room note verdict _ _ _ hat _ hmore =>
        cases hseg
        rcases hmore with hnothing | rfl
        · exact hnothing
        · -- what is granted wakes nobody
          have hroom : room = none := by
            rcases hat.begin_or_resume with ⟨-, r, hr⟩ | ⟨c, waiting, -, hr⟩
            · exact Gate.begin_granted hr.symm
            · exact Gate.resume_granted hr.symm
          rw [hroom] at hns
          exact absurd rfl hns
    | eventPark _ _ _ => cases hseg
    | eventDone _ _ _ _ => cases hseg; rfl
    | signal _ _ => cases hseg; rfl
    | apart _ _ => cases hseg; rfl
  subst hnothing
  exact ⟨rfl, ends_of_done h⟩

/-- **A call that was waiting is over when its deadline has come**, unless what it waits for is the
case. -/
theorem attempt_of_expired {d : Nat} (hr : ¬wait.Ready w) (hd : wait.deadline = some d)
    (hle : d ≤ w.clock) : ∃ w' ns, attempt t (.resume c wait) w = .done w' ns .nothing := by
  have heffect := attempt_effect t (.resume c wait) w
  generalize hseg : attempt t (.resume c wait) w = segment at heffect
  cases heffect with
  | gatePark _ _ _ => exact absurd hseg (attempt_ne_park hd hle)
  | @gateDone i g g' room note verdict w' _ hg hat _ hmore =>
      rcases hat.begin_or_resume with ⟨hresume, -⟩ | ⟨c', waiting, heq, hsegment⟩
      · cases hresume
      · cases heq
        have hready : waiting.ready g = false := Bool.eq_false_iff.2 fun h => hr ⟨g, hg, h⟩
        have hgives := Extension.givesUp_resume (t := t) hready hd hle
        rw [← hsegment] at hgives
        rcases hmore with rfl | rfl
        · exact ⟨_, _, rfl⟩
        · rcases hgives with hverdict | hverdict <;> cases hverdict
  | eventPark _ _ _ => exact absurd hseg (attempt_ne_park hd hle)
  | eventDone _ _ _ _ => exact ⟨_, _, rfl⟩
  | signal _ _ => exact ⟨_, _, rfl⟩
  | apart _ _ => exact ⟨_, _, rfl⟩

end Task

/-! ### Turns -/

namespace System

/-- **Whom a turn can wake**, and who may park in it. -/
structure Calm (s : System) : Prop where
  /-- A thread that was woken for nothing parks where it was, behind the others, and nothing else
  happens. -/
  again : ∀ {t c wait rest rs}, s.runnable = ⟨t, .resume c wait :: rest⟩ :: rs →
    wait.Fails s.world → (∀ d, wait.deadline = some d → s.world.clock < d) →
    s.turn = { s with parked := s.parked ++ [⟨t, c, wait, rest⟩], runnable := rs }
  /-- Whoever parks, parks in the call that it was in, and wakes nobody. -/
  parks : ∀ {t task rest rs w c wait}, s.runnable = ⟨t, task :: rest⟩ :: rs →
    task.attempt t s.world = .park w c wait →
    c = task.call ∧ s.turn = ⟨w, s.parked ++ [⟨t, c, wait, rest⟩], rs⟩
  /-- Whoever gives notice to others is through with its call. -/
  notifies : ∀ {t task rest rs w ns follow}, s.runnable = ⟨t, task :: rest⟩ :: rs →
    task.attempt t s.world = .done w ns follow → ns ≠ [] →
    follow = .nothing ∧ s.world.Ends t task.call w
  /-- If there is somebody who does not stay parked, the call of the first runner is over. -/
  wakes : ∀ {t task rest rs}, s.runnable = ⟨t, task :: rest⟩ :: rs →
    ¬s.parked <+: s.turn.parked → s.world.Ends t task.call s.turn.world
  /-- A thread whose deadline has come is through with its wait, and will not park in that call. -/
  expires : ∀ {t c wait rest rs d}, s.runnable = ⟨t, .resume c wait :: rest⟩ :: rs →
    wait.deadline = some d → d ≤ s.world.clock →
    ∃ w ns follow, Task.attempt t (.resume c wait) s.world = .done w ns follow ∧
      ∀ x ∈ Task.follow (.resume c wait) follow, ∀ v v' wait',
        x.attempt t v ≠ .park v' c wait'

/-- **Every turn is calm.** -/
theorem calm (s : System) : s.Calm where
  again hs hf hd := turn_of_park hs (Task.attempt_of_fails hf hd)
  parks hs h := ⟨Task.call_of_park h, turn_of_park hs h⟩
  notifies _ h hns := Task.done_of_notices h hns
  wakes {t task rest rs} hs hwoken := by
    have hworld : s.turn.world = (task.attempt t s.world).world := by
      rw [turn_of_cons hs, world_carryOut]
    cases h : task.attempt t s.world with
    | park w c wait =>
        rw [turn_of_park hs h] at hwoken
        exact absurd (List.prefix_append ..) hwoken
    | done w ns follow =>
        have hns : ns ≠ [] := by
          rintro rfl
          refine hwoken ?_
          rw [turn_of_cons hs]
          simp [carryOut, h, notify]
        rw [hworld, h]
        exact (Task.done_of_notices h hns).2
  expires {t c wait rest rs d} _ hd hle := by
    cases h : Task.attempt t (.resume c wait) s.world with
    | park w c' wait' => exact absurd h (Task.attempt_ne_park hd hle)
    | done w ns follow =>
        exact ⟨w, ns, follow, rfl, Task.follow_ne_park (.resume c wait) follow⟩

/-! ### Deadlines -/

/-- **The clock ends the call of a sleeper**: the journal says that it is over, and the thread goes
on with what comes after the call. -/
structure Expires (s : System) (p : Due) : Prop where
  ends : s.world.Ends p.sleeper.thread p.sleeper.call (s.rouse p).world
  leaves : ∃ rs, (s.rouse p).runnable = ⟨p.sleeper.thread, p.sleeper.rest⟩ :: rs

variable {s : System} {target : Nat} {p : Due}

/-- **A sleeper that is woken by the clock at rest is through with its call.** -/
theorem Lawful.expires (h : s.Lawful) (hs : s.runnable = [])
    (hp : popDue target s.parked = some p) : s.Expires p := by
  obtain ⟨before, after, hparked, hearliest⟩ := popDue_eq_some_iff.1 hp
  have hready : ¬p.sleeper.wait.Ready (s.awake p).world := h.not_ready hs (by simp [hparked])
  obtain ⟨w, ns, hdone⟩ := Task.attempt_of_expired (t := p.sleeper.thread) (c := p.sleeper.call)
    hready hearliest.deadline (Nat.le_max_right ..)
  have hrouse : s.rouse p = (s.awake p).turn := rfl
  have hturn := turn_of_cons (s := s.awake p) rfl
  constructor
  · have hworld : (s.rouse p).world = w := by
      rw [hrouse, hturn, world_carryOut]
      exact congrArg Segment.world hdone
    have hends : (s.awake p).world.Ends p.sleeper.thread p.sleeper.call w :=
      Task.ends_of_done hdone
    rw [hworld]
    exact hends
  · rw [hrouse, hturn]
    exact ⟨_, runnable_carryOut_done (s := { s.awake p with runnable := s.runnable }) _ hdone⟩

theorem lapse_of_some (hp : popDue target s.parked = some p) :
    s.lapse target = (s.awake p).settle := by
  rw [settle_of_ne_nil (by simp [awake]), ← rouse_eq_turn]
  simp only [lapse, hp]

/-- Deadlines keep a system lawful and at rest. -/
theorem Lawful.lapse (h : s.Lawful) (hs : s.runnable = []) :
    (s.lapse target).Lawful ∧ (s.lapse target).runnable = [] := by
  unfold System.lapse
  split
  · exact ⟨h, hs⟩
  · rename_i p hp
    exact ⟨h.settle_rouse hs hp, runnable_settle _⟩

theorem Lawful.lapses (h : s.Lawful) (hs : s.runnable = []) (k : Nat) :
    ((System.lapse target)^[k] s).Lawful ∧ ((System.lapse target)^[k] s).runnable = [] := by
  induction k generalizing s with
  | zero => exact ⟨h, hs⟩
  | succ k ih =>
      obtain ⟨h', hs'⟩ := @Lawful.lapse _ target h hs
      exact ih h' hs'

/-! ### Steps -/

/-- **A step comes to rest.**  The calls of a thread take so many turns.  While the clock moves, so
many deadlines come until none is left; each ends the call of a sleeper, and takes so many turns. -/
structure Rests (s : System) (step : Step) : Prop where
  rest : (s.take step).1.runnable = []
  perform : ∀ {t calls}, step = .perform t calls → s.isParked t = false →
    (s.take step).1 = turn^[(s.turnsIn step).length] (s.clear.enlist t calls)
  advance : ∀ {ns target}, step = .advance ns → target = s.world.clock + ns →
    ∃ k ≤ s.load, popDue target ((lapse target)^[k] s.clear).parked = none ∧
      (s.take step).1 = { (lapse target)^[k] s.clear with
        world := { ((lapse target)^[k] s.clear).world with clock := target } }
  lapses : ∀ {ns target k p}, step = .advance ns → target = s.world.clock + ns →
    popDue target ((lapse target)^[k] s.clear).parked = some p →
    ((lapse target)^[k] s.clear).Expires p ∧ ∃ n,
      (lapse target)^[k + 1] s.clear = turn^[n] (((lapse target)^[k] s.clear).awake p) ∧
        ((lapse target)^[k + 1] s.clear).runnable = []

/-- **Every step from a lawful system at rest comes to rest.** -/
theorem Lawful.rests (h : s.Lawful) (hs : s.runnable = []) (step : Step) : s.Rests step where
  rest := runnable_take hs
  perform {t calls} hstep ht := by
    subst hstep
    rw [take_of_not_parked ht, turnsIn, if_neg (ne_true_of_eq_false ht)]
    exact settle_eq_iterate _
  advance {ns target} hstep htarget := by
    subst hstep htarget
    exact advance_eq_iterate s.clear _
  lapses {ns target k p} _ _ hp := by
    obtain ⟨hl, hr⟩ := @Lawful.lapses _ target h.clear hs k
    have hlater := @Lawful.lapses _ target h.clear hs (k + 1)
    rw [Function.iterate_succ_apply', lapse_of_some hp] at hlater ⊢
    exact ⟨hl.expires hr hp, _, settle_eq_iterate _, hlater.2⟩

end System

/-- **No wakeup storm.**  A script takes no more turns than the work in its calls, times one more
than its steps, and its steps.  Whatever steps have been taken before, every step comes to rest.  A
thread that is woken for nothing parks again and wakes nobody, only a call that is over wakes
others, and a thread that is woken by the clock is through with its call. -/
theorem no_wakeup_storm (gates events : Nat) (silent : Bool) (steps : List Step) :
    (moments (System.fresh gates events silent) steps).length ≤
        weigh Step.weight steps * (steps.length + 1) + steps.length ∧
      (∀ step, ((System.fresh gates events silent).takeAll steps).Rests step) ∧
      ∀ s ∈ moments (System.fresh gates events silent) steps, s.Calm := by
  have hlawful := System.lawful_fresh gates events silent
  refine ⟨length_moments_le gates events silent steps, fun step => ?_, fun s _ => s.calm⟩
  exact (hlawful.takeAll rfl steps).rests (System.runnable_takeAll rfl steps) step

end ReentrantGate.Script
