/-
**Threads taking turns.**

A system is a world and the threads that are in the middle of a script step: *sleepers* are parked,
in the order in which they parked, and *runners* can go on, in the order in which they may.  The
first runner carries out one segment at a time.  It stays first until it parks, which puts it at the
end of the sleepers, or has nothing left to do; those it wakes go to the end of the runners.

The clock moves only when it is advanced: to the earliest deadline that is due, whose thread then
runs until everything has come to rest, and so on up to the target.

Main definitions:

* `Script.Runner`, `Script.Sleeper`, `Script.System`;
* `System.everyone` — all threads of a system with what they have to do;
* `System.notify` — some sleepers become runners;
* `System.turn` — the first runner carries out a segment;
* `System.settle` — turns until there is no runner left;
* `System.advance` — the clock moves.

Main results:

* `System.load_notify` — waking threads does not change the work that is left;
* `System.turn_lt` — every turn either reduces that work, or parks a thread;
* `System.load_rouse_lt` — a thread woken at its deadline reduces it.
-/

import ReentrantGate.Script.Progress

set_option relaxedAutoImplicit false
set_option autoImplicit false

namespace ReentrantGate.Script

/-! ### Threads -/

/-- A thread that can go on with its tasks. -/
structure Runner where
  thread : ThreadId
  tasks : List Task

/-- A thread that is parked in a call and has further tasks. -/
structure Sleeper where
  thread : ThreadId
  call : Call
  wait : Wait
  rest : List Task

namespace Runner

/-- How much work a runner may still be. -/
def weight (r : Runner) : Nat := Task.weights r.tasks

end Runner

namespace Sleeper

/-- A sleeper that is woken goes on with its call. -/
def wake (z : Sleeper) : Runner := ⟨z.thread, .resume z.call z.wait :: z.rest⟩

/-- How much work a sleeper may still be. -/
def weight (z : Sleeper) : Nat := z.wake.weight

/-- Whether a sleeper is parked at a place. -/
def isAt (p : Place) (z : Sleeper) : Bool := z.wait.place = p

end Sleeper

/-- The sleepers that a notice wakes. -/
def Notice.woken (zs : List Sleeper) : Notice → List Sleeper
  | all p => zs.filter (·.isAt p)
  | one p => (zs.find? (·.isAt p)).toList

/-- The sleepers that a notice leaves parked. -/
def Notice.left (zs : List Sleeper) : Notice → List Sleeper
  | all p => zs.filter (!·.isAt p)
  | one p => zs.eraseP (·.isAt p)

/-- A world with its sleepers and runners. -/
structure System where
  world : World
  parked : List Sleeper := []
  runnable : List Runner := []

namespace System

/-- All threads of a system: the sleepers, as they will go on when they are woken, and the
runners. -/
def everyone (s : System) : List Runner := s.parked.map Sleeper.wake ++ s.runnable

/-- The work that is left in a system. -/
def load (s : System) : Nat := weigh Sleeper.weight s.parked + weigh Runner.weight s.runnable

/-! ### Turns -/

/-- One notice wakes sleepers, who queue up behind the runners. -/
def heed (s : System) (n : Notice) : System :=
  { s with
    parked := n.left s.parked
    runnable := s.runnable ++ (n.woken s.parked).map Sleeper.wake }

/-- Notices are heeded one after another. -/
def notify (s : System) (ns : List Notice) : System := ns.foldl heed s

/-- Thread `t` carries out one segment of a task, with further tasks after it; all others are in
the system. -/
def carryOut (s : System) (t : ThreadId) (task : Task) (rest : List Task) : System :=
  match task.attempt t s.world with
  | .park w c wait => { s with world := w, parked := s.parked ++ [⟨t, c, wait, rest⟩] }
  | .done w notices follow =>
      let s' := { s with world := w }.notify notices
      { s' with runnable := ⟨t, task.follow follow ++ rest⟩ :: s'.runnable }

/-- The first runner carries out a segment, or leaves if it has nothing to do. -/
def turn (s : System) : System :=
  match s.runnable with
  | [] => s
  | ⟨_, []⟩ :: rs => { s with runnable := rs }
  | ⟨t, task :: rest⟩ :: rs => { s with runnable := rs }.carryOut t task rest

/-! ### The work that is left -/

theorem sum_filter (p : Sleeper → Bool) (zs : List Sleeper) :
    weigh Sleeper.weight (zs.filter p) + weigh Sleeper.weight (zs.filter (!p ·)) =
      weigh Sleeper.weight zs := by
  induction zs with
  | nil => rfl
  | cons z zs ih =>
      by_cases h : p z = true <;> simp [h] <;> omega

theorem sum_find (p : Sleeper → Bool) (zs : List Sleeper) :
    weigh Sleeper.weight (zs.find? p).toList + weigh Sleeper.weight (zs.eraseP p) =
      weigh Sleeper.weight zs := by
  induction zs with
  | nil => rfl
  | cons z zs ih =>
      by_cases h : p z = true <;> simp [h]
      omega

theorem sum_woken_left (n : Notice) (zs : List Sleeper) :
    weigh Sleeper.weight (n.woken zs) + weigh Sleeper.weight (n.left zs) =
      weigh Sleeper.weight zs := by
  cases n with
  | all p => exact sum_filter (·.isAt p) zs
  | one p => exact sum_find (·.isAt p) zs

theorem load_heed (s : System) (n : Notice) : (s.heed n).load = s.load := by
  have h := sum_woken_left n s.parked
  have hw : weigh (fun z => Runner.weight (Sleeper.wake z)) = weigh Sleeper.weight := rfl
  simp only [load, heed, weigh_append, weigh_map, hw]
  omega

/-- Waking threads does not change the work that is left. -/
theorem load_notify (s : System) (ns : List Notice) : (s.notify ns).load = s.load := by
  induction ns generalizing s with
  | nil => rfl
  | cons n ns ih => exact (ih (s.heed n)).trans (load_heed s n)

theorem load_carryOut_done (s : System) {t : ThreadId} {task : Task} (rest : List Task) {w : World}
    {ns : List Notice} {f : Follow} (h : task.attempt t s.world = .done w ns f) :
    (s.carryOut t task rest).load < s.load + task.weight + Task.weights rest := by
  have hf := task.weights_follow_lt f
  have hn := load_notify { s with world := w } ns
  simp only [carryOut, h]
  simp only [load, weigh_cons, Runner.weight, Task.weights_append] at hn ⊢
  omega

theorem load_carryOut_le (s : System) (t : ThreadId) (task : Task) (rest : List Task) :
    (s.carryOut t task rest).load ≤ s.load + task.weight + Task.weights rest := by
  cases h : task.attempt t s.world with
  | done w ns f => exact Nat.le_of_lt (load_carryOut_done s rest h)
  | park w c wait =>
      have hw := Task.weight_of_attempt_park h
      simp only [carryOut, h, load, weigh_append, weigh_cons, weigh_nil, Sleeper.weight,
        Sleeper.wake, Runner.weight, Task.weights, Task.weight] at hw ⊢
      omega

theorem runnable_carryOut_park (s : System) {t : ThreadId} {task : Task} (rest : List Task)
    {w : World} {c : Call} {wait : Wait} (h : task.attempt t s.world = .park w c wait) :
    (s.carryOut t task rest).runnable = s.runnable := by
  simp [carryOut, h]

/-- **Every turn gets on**: it reduces the work that is left, or leaves fewer runners. -/
theorem turn_lt {s : System} (h : s.runnable ≠ []) :
    s.turn.load < s.load ∨
      s.turn.load = s.load ∧ s.turn.runnable.length < s.runnable.length := by
  obtain ⟨w, zs, rs⟩ := s
  cases rs with
  | nil => exact absurd rfl h
  | cons r rs =>
      obtain ⟨t, ts⟩ := r
      cases ts with
      | nil => exact .inr ⟨by simp [turn, load, Runner.weight, Task.weights], by simp [turn]⟩
      | cons task rest =>
          have hle := load_carryOut_le ⟨w, zs, rs⟩ t task rest
          have hload : load ⟨w, zs, ⟨t, task :: rest⟩ :: rs⟩ =
              load ⟨w, zs, rs⟩ + task.weight + Task.weights rest := by
            simp only [load, weigh_cons, Runner.weight, Task.weights]
            omega
          cases ha : task.attempt t w with
          | done w' ns f =>
              have := load_carryOut_done ⟨w, zs, rs⟩ rest ha
              exact .inl (by simpa [turn, hload] using this)
          | park w' c wait =>
              have hlen := runnable_carryOut_park ⟨w, zs, rs⟩ rest ha
              rcases Nat.lt_or_eq_of_le hle with hlt | heq
              · exact .inl (by simpa [turn, hload] using hlt)
              · exact .inr ⟨by simpa [turn, hload] using heq, by simp [turn, hlen]⟩

/-! ### Coming to rest -/

/-- Turns are taken until nobody can go on. -/
def settle (s : System) : System :=
  if s.runnable = [] then s else s.turn.settle
termination_by (s.load, s.runnable.length)
decreasing_by
  rcases turn_lt ‹_› with h | ⟨h, hl⟩
  · exact .left _ _ h
  · rw [h]
    exact .right _ hl

theorem load_settle_le (s : System) : s.settle.load ≤ s.load := by
  fun_induction settle s with
  | case1 s h => exact Nat.le_refl _
  | case2 s h ih =>
      rcases turn_lt h with hl | ⟨hl, _⟩ <;> omega

theorem runnable_settle (s : System) : s.settle.runnable = [] := by
  fun_induction settle s with
  | case1 s h => exact h
  | case2 s h ih => exact ih

/-! ### Moving the clock -/

/-- A sleeper whose deadline has come, with the sleepers around it. -/
structure Due where
  sleeper : Sleeper
  deadline : Nat
  others : List Sleeper

/-- The sleeper with the earliest deadline up to `target`, among equals the one that has been parked
longest. -/
def popDue (target : Nat) : List Sleeper → Option Due
  | [] => none
  | z :: zs =>
      match z.wait.deadline.filter (· ≤ target), popDue target zs with
      | none, none => none
      | some d, none => some ⟨z, d, zs⟩
      | none, some p => some { p with others := z :: p.others }
      | some d, some p =>
          if d ≤ p.deadline then some ⟨z, d, zs⟩ else some { p with others := z :: p.others }

theorem deadline_of_popDue {target : Nat} {zs : List Sleeper} {p : Due}
    (h : popDue target zs = some p) : p.sleeper.wait.deadline = some p.deadline := by
  induction zs generalizing p with
  | nil => simp [popDue] at h
  | cons z zs ih =>
      simp only [popDue] at h
      split at h
      · simp at h
      · rename_i hd _
        cases h
        exact (Option.filter_eq_some_iff.1 hd).1
      · rename_i q _ hq
        cases h
        have := ih hq
        exact this
      · rename_i hd hq
        split at h
        · cases h
          exact (Option.filter_eq_some_iff.1 hd).1
        · cases h
          have := ih hq
          exact this

theorem sum_popDue {target : Nat} {zs : List Sleeper} {p : Due} (h : popDue target zs = some p) :
    p.sleeper.weight + weigh Sleeper.weight p.others = weigh Sleeper.weight zs := by
  induction zs generalizing p with
  | nil => simp [popDue] at h
  | cons z zs ih =>
      simp only [popDue] at h
      split at h
      · simp at h
      · cases h
        simp
      · rename_i q _ hq
        cases h
        have := ih hq
        simp only [weigh_cons]
        omega
      · rename_i hq
        split at h
        · cases h
          simp
        · cases h
          have := ih hq
          simp only [weigh_cons]
          omega

/-- The clock moves to a deadline, never backwards, and the thread that waited for it goes on. -/
def rouse (s : System) (p : Due) : System :=
  let s' := { s with
    world := { s.world with clock := max s.world.clock p.deadline }
    parked := p.others }
  s'.carryOut p.sleeper.thread (.resume p.sleeper.call p.sleeper.wait) p.sleeper.rest

/-- **A thread woken at its deadline reduces the work that is left.** -/
theorem load_rouse_lt {s : System} {target : Nat} {p : Due}
    (h : popDue target s.parked = some p) : (s.rouse p).load < s.load := by
  have hd := deadline_of_popDue h
  have hs := sum_popDue h
  have hp : ∀ w c wait, Task.attempt p.sleeper.thread (.resume p.sleeper.call p.sleeper.wait)
      { s.world with clock := max s.world.clock p.deadline } ≠ .park w c wait :=
    fun _ _ _ => Task.attempt_ne_park hd (Nat.le_max_right ..)
  cases ha : Task.attempt p.sleeper.thread (.resume p.sleeper.call p.sleeper.wait)
      { s.world with clock := max s.world.clock p.deadline } with
  | park w c wait => exact absurd ha (hp w c wait)
  | done w ns f =>
      have hl := load_carryOut_done { s with
        world := { s.world with clock := max s.world.clock p.deadline }
        parked := p.others } p.sleeper.rest ha
      refine Nat.lt_of_lt_of_le hl ?_
      simp only [load, Sleeper.weight, Sleeper.wake, Runner.weight, Task.weights,
        weigh_cons] at hs ⊢
      omega

/-- The clock moves to `target`; on the way each deadline that comes wakes its thread, and the clock
stands still until everything has come to rest. -/
def advance (s : System) (target : Nat) : System :=
  match _ : popDue target s.parked with
  | none => { s with world := { s.world with clock := target } }
  | some p => (s.rouse p).settle.advance target
termination_by s.load
decreasing_by exact Nat.lt_of_le_of_lt (load_settle_le _) (load_rouse_lt ‹_›)

/-- A thread that is not parked starts calls one after another. -/
def submit (s : System) (t : ThreadId) (calls : List Call) : System :=
  { s with runnable := s.runnable ++ [Runner.mk t (calls.map .start)] }.settle

/-- Whether a thread is in the middle of a step. -/
def isParked (s : System) (t : ThreadId) : Bool := s.parked.any (·.thread = t)

end System

end ReentrantGate.Script
