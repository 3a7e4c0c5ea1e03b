/-
**Two runs that go hand in hand.**

A translation changes the calls and waits of a system and what its world keeps, but not who is
there, where everybody is parked, and what follows what.  Notices then find the same threads.  If
the next segment of the translated system is the translation of the next segment, then so are the
systems after the turn, and if that is so at all moments they come to rest hand in hand.

Main definitions:

* `Script.Translation` — what becomes of worlds, calls and waits, and with them of tasks, segments
  and systems;
* `Script.Translation.Respects` — the next segment is translated.

Main results:

* `Script.Translation.turn_system`, `Script.Translation.settle_system` — **a turn of the translated
  system is the translation of the turn**, and so is coming to rest;
* `Script.Translation.advance_system_of_some`, `Script.Translation.take_system` — the clock and
  steps.
-/

import ReentrantGate.Script.Moments

set_option relaxedAutoImplicit false
set_option autoImplicit false

namespace ReentrantGate.Script

/-! ### Translations -/

/-- **A translation**: gates, clock and places are the same, and so is the shape of calls. -/
structure Translation where
  world : World → World
  call : Call → Call
  wait : Call → Wait → Wait
  gates_world : ∀ w, (world w).gates = w.gates
  clock_world : ∀ w, (world w).clock = w.clock
  world_clock : ∀ w now, world { w with clock := now } = { world w with clock := now }
  place_wait : ∀ c w, (wait c w).place = w.place
  call_single : ∀ site op, ∃ site' op', call (.single site op) = .single site' op'
  call_scope : ∀ site hold timeout body panics, ∃ site' : Site, site'.gate = site.gate ∧
    call (.scope site hold timeout body panics) = .scope site' hold timeout (body.map call) panics

namespace Translation

variable (x : Translation)

/-- What becomes of a task. -/
def task : Task → Task
  | .start c => .start (x.call c)
  | .resume c w => .resume (x.call c) (x.wait c w)
  | .release c hold gate => .release (x.call c) hold gate

/-- What becomes of a segment. -/
def segment : Segment → Segment
  | .park w c wait => .park (x.world w) (x.call c) (x.wait c wait)
  | .done w ns f => .done (x.world w) ns f

/-- What becomes of a sleeper. -/
def sleeper (z : Sleeper) : Sleeper where
  thread := z.thread
  call := x.call z.call
  wait := x.wait z.call z.wait
  rest := z.rest.map x.task

/-- What becomes of a runner. -/
def runner (r : Runner) : Runner where
  thread := r.thread
  tasks := r.tasks.map x.task

/-- What becomes of a system. -/
def system (s : System) : System where
  world := x.world s.world
  parked := s.parked.map x.sleeper
  runnable := s.runnable.map x.runner

/-- What becomes of a sleeper that is due, with the others. -/
def due (p : System.Due) : System.Due where
  sleeper := x.sleeper p.sleeper
  deadline := p.deadline
  others := p.others.map x.sleeper

/-- What becomes of a step. -/
def step : Step → Step
  | .advance ns => .advance ns
  | .perform t cs => .perform t (cs.map x.call)

/-! ### Notices -/

@[simp] theorem isAt_sleeper (z : Sleeper) (p : Place) : (x.sleeper z).isAt p = z.isAt p := by
  simp only [Sleeper.isAt, sleeper, x.place_wait]

/-- A notice leaves the same sleepers. -/
theorem left_sleepers (n : Notice) (zs : List Sleeper) :
    n.left (zs.map x.sleeper) = (n.left zs).map x.sleeper := by
  cases n with
  | all p => simp [Notice.left, List.filter_map, Function.comp_def]
  | one p => simp [Notice.left, List.eraseP_map, Function.comp_def]

/-- A notice finds the same sleepers. -/
theorem woken_sleepers (n : Notice) (zs : List Sleeper) :
    n.woken (zs.map x.sleeper) = (n.woken zs).map x.sleeper := by
  cases n with
  | all p => simp [Notice.woken, List.filter_map, Function.comp_def]
  | one p =>
      simp only [Notice.woken, List.find?_map, Function.comp_def, isAt_sleeper]
      cases zs.find? (·.isAt p) <;> rfl

theorem heed_system (s : System) (n : Notice) : (x.system s).heed n = x.system (s.heed n) := by
  simp only [System.heed, system, left_sleepers, woken_sleepers, List.map_append, List.map_map]
  rfl

theorem notify_system (s : System) (ns : List Notice) :
    (x.system s).notify ns = x.system (s.notify ns) := by
  induction ns generalizing s with
  | nil => rfl
  | cons n ns ih =>
      have h := ih (s.heed n)
      rw [← heed_system] at h
      exact h

/-! ### Turns -/

theorem follow_task (task : Task) (f : Follow) :
    (x.task task).follow f = (task.follow f).map x.task := by
  have hbody : ∀ c : Call, Task.ofBody (x.call c) = (Task.ofBody c).map x.task := by
    intro c
    cases c with
    | single site op =>
        obtain ⟨site', op', hc⟩ := x.call_single site op
        rw [hc]
        rfl
    | scope site hold timeout body panics =>
        obtain ⟨site', hgate, hc⟩ := x.call_scope site hold timeout body panics
        have hrelease : x.task (.release (.scope site hold timeout body panics) hold site.gate) =
            .release (.scope site' hold timeout (body.map x.call) panics) hold site'.gate := by
          rw [← hc, hgate]
          rfl
        simp only [hc, Task.ofBody, List.map_append, List.map_map, List.map_cons, List.map_nil,
          hrelease]
        rfl
  cases f with
  | nothing => cases task <;> rfl
  | body =>
      cases task with
      | start c => exact hbody c
      | resume c wait => exact hbody c
      | release c hold gate => rfl
  | release hold gate => cases task <;> rfl

/-- If the segment is translated then so is all that comes of it. -/
theorem carryOut_system (s : System) (t : ThreadId) (task : Task) (rest : List Task)
    (h : (x.task task).attempt t (x.world s.world) = x.segment (task.attempt t s.world)) :
    (x.system s).carryOut t (x.task task) (rest.map x.task) =
      x.system (s.carryOut t task rest) := by
  have hworld : (x.system s).world = x.world s.world := rfl
  simp only [System.carryOut, hworld, h]
  cases task.attempt t s.world with
  | park w c wait => simp [segment, system, sleeper]
  | done w ns f =>
      have hnotify := x.notify_system { s with world := w } ns
      have hsame : { x.system s with world := x.world w } = x.system { s with world := w } := rfl
      simp only [segment, follow_task, hsame, hnotify]
      simp [system, runner]

/-- **The next segment is translated**: that of the first runner. -/
def Respects (s : System) : Prop :=
  ∀ t task rest rs, s.runnable = ⟨t, task :: rest⟩ :: rs →
    (x.task task).attempt t (x.world s.world) = x.segment (task.attempt t s.world)

variable {x}

/-- **A turn of the translated system is the translation of the turn.** -/
theorem turn_system {s : System} (h : x.Respects s) : (x.system s).turn = x.system s.turn := by
  obtain ⟨w, zs, rs⟩ := s
  cases rs with
  | nil => rfl
  | cons r rs =>
      obtain ⟨t, tasks⟩ := r
      cases tasks with
      | nil => rfl
      | cons task rest => exact x.carryOut_system ⟨w, zs, rs⟩ t task rest (h t task rest rs rfl)

/-- **The translated system comes to rest hand in hand.** -/
theorem settle_system {s : System} (h : ∀ u ∈ s.turns, x.Respects u) :
    (x.system s).settle = x.system s.settle := by
  fun_induction System.settle s with
  | case1 s hs => exact System.settle_of_nil (by simp [system, hs])
  | case2 s hs ih =>
      have hne : (x.system s).runnable ≠ [] := by simpa [system] using hs
      rw [System.turns_of_ne_nil hs] at h
      rw [System.settle_of_ne_nil hne, turn_system (h s List.mem_cons_self)]
      exact ih fun u hu => h u (List.mem_cons_of_mem _ hu)

/-! ### The clock and steps -/

theorem advance_system_of_none {s : System} {target : Nat}
    (h : System.popDue target s.parked = none)
    (h' : System.popDue target (s.parked.map x.sleeper) = none) :
    (x.system s).advance target = x.system (s.advance target) := by
  have hclock := x.world_clock s.world target
  rw [System.advance_of_none h, System.advance_of_none h']
  simp only [system, hclock]

/-- The clock wakes the same sleeper, and everything comes to rest again. -/
theorem advance_system_of_some {s : System} {target : Nat} {p : System.Due}
    (h' : System.popDue target (s.parked.map x.sleeper) = some (x.due p))
    (hawake : x.Respects (s.awake p)) (hturns : ∀ u ∈ (s.rouse p).turns, x.Respects u) :
    (x.system s).advance target = (x.system (s.rouse p).settle).advance target := by
  have hsame : (x.system s).awake (x.due p) = x.system (s.awake p) := by
    have hclock : (x.system s).world.clock = s.world.clock := x.clock_world s.world
    have hworld := x.world_clock s.world (max s.world.clock p.deadline)
    simp only [System.awake, hclock]
    simp only [system, hworld]
    rfl
  have hrouse : (x.system s).rouse (x.due p) = x.system (s.rouse p) := by
    rw [System.rouse_eq_turn, hsame, System.rouse_eq_turn, turn_system hawake]
  rw [System.advance_of_some h', hrouse, settle_system hturns]

/-- An empty journal stays empty. -/
def Clears : Prop :=
  ∀ w : World, x.world { w with journal := [] } = { x.world w with journal := [] }

theorem clear_system (hx : x.Clears) (s : System) : (x.system s).clear = x.system s.clear := by
  have hworld := hx s.world
  simp only [System.clear, system, hworld]

theorem isParked_system (s : System) (t : ThreadId) : (x.system s).isParked t = s.isParked t := by
  simp only [System.isParked, system, List.any_map]
  rfl

theorem enlist_system (s : System) (t : ThreadId) (cs : List Call) :
    (x.system s).enlist t (cs.map x.call) = x.system (s.enlist t cs) := by
  simp only [System.enlist, system, runner, List.map_append, List.map_cons, List.map_nil,
    List.map_map]
  rfl

/-- **A step of the translated system is the translation of the step**, if moving the clock is, and
is skipped in both or in neither. -/
theorem take_system {s : System} {step : Step} (hx : x.Clears)
    (hadvance : ∀ ns, step = .advance ns → (x.system s.clear).advance (s.world.clock + ns) =
      x.system (s.clear.advance (s.world.clock + ns)))
    (hturns : ∀ t cs, step = .perform t cs → ∀ u ∈ s.turnsIn step, x.Respects u) :
    (x.system s).take (x.step step) = (x.system (s.take step).1, (s.take step).2) := by
  cases step with
  | advance ns =>
      have hclock : (x.system s).world.clock = s.world.clock := x.clock_world s.world
      rw [Translation.step, System.take_advance, System.take_advance, clear_system hx,
        hclock, hadvance ns rfl]
  | perform t cs =>
      cases ht : s.isParked t with
      | true =>
          have ht' : (x.system s).isParked t = true := by rw [isParked_system, ht]
          rw [Translation.step, System.take_of_parked ht, System.take_of_parked ht',
            clear_system hx]
      | false =>
          have ht' : (x.system s).isParked t = false := by rw [isParked_system, ht]
          have hmoments := hturns t cs rfl
          simp only [System.turnsIn, ht, Bool.false_eq_true, if_false] at hmoments
          rw [Translation.step, System.take_of_not_parked ht, System.take_of_not_parked ht',
            clear_system hx, enlist_system, settle_system hmoments]

/-- All that is seen of the translated system is the same, the journal apart. -/
theorem observe_system (s : System) (busy : Bool) :
    (x.system s).observe busy =
      { s.observe busy with journal := (x.world s.world).journal } := by
  simp only [System.observe, system, List.map_map, x.gates_world, x.clock_world]
  rfl

end Translation

end ReentrantGate.Script
