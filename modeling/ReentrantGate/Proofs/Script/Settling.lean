/-
**Every step comes to rest.**

Woken threads may park again, a close that gives up wakes everybody, and a finished call lets its
thread go on to the next one.  Still there is an end to it.  A turn either finishes a task, and what
follows a task weighs less than the task, or it parks a thread and leaves one runner less.  While
nobody finishes anything, nobody is woken.  So the work that is left, times one more than the number
of threads, together with the number of runners goes down with every turn; and each deadline that
comes finishes a task as well.  The turns of a whole script are bounded by its calls.

Main definitions:

* `Script.System.fuel` — what goes down with every turn;
* `Script.System.lapse` — the next deadline comes, and everything comes to rest;
* `Script.Step.weight` — the work in the calls of a step.

Main results:

* `Script.System.fuel_turn_lt` — **every turn uses fuel up**;
* `Script.System.length_turns_le`, `Script.System.length_turnsUntil_le` — the turns until all is at
  rest, and while the clock moves;
* `Script.System.settle_eq_iterate`, `Script.System.advance_eq_iterate` — coming to rest is so many
  turns, and moving the clock so many deadlines;
* `Script.length_moments_le` — **the turns of a script are bounded by its calls**.
-/

import Mathlib.Logic.Function.Iterate
import ReentrantGate.Proofs.Script.Lawful
import ReentrantGate.Proofs.Script.Reports
import ReentrantGate.Proofs.Script.Translation

set_option relaxedAutoImplicit false
set_option autoImplicit false

namespace ReentrantGate.Script

/-! ### Fuel -/

namespace System

/-- What goes down with every turn of at most `n` threads. -/
def fuel (n : Nat) (s : System) : Nat := s.load * (n + 1) + s.runnable.length

/-- The next deadline up to `target` comes, and everything comes to rest. -/
def lapse (target : Nat) (s : System) : System :=
  match popDue target s.parked with
  | none => s
  | some p => (s.rouse p).settle

variable {s : System} {n target : Nat} {p : Due}

theorem length_runnable_le (s : System) : s.runnable.length ≤ s.everyone.length := by
  simp [everyone]

/-- Nobody comes in a turn. -/
theorem length_everyone_turn_le (s : System) : s.turn.everyone.length ≤ s.everyone.length := by
  unfold turn
  split
  · exact Nat.le_refl _
  · rename_i t rs hs
    rw [(everyone_perm_of_runnable hs).length_eq]
    exact Nat.le_succ _
  · rename_i t task rest rs hs
    rw [(everyone_perm_of_runnable hs).length_eq,
      (everyone_carryOut { s with runnable := rs } t task rest).length_eq]
    exact Nat.le_refl _

theorem length_everyone_awake {p : Due} (hp : popDue target s.parked = some p) :
    (s.awake p).everyone.length = s.everyone.length := by
  obtain ⟨before, after, hparked, hearliest⟩ := popDue_eq_some_iff.1 hp
  exact (everyone_awake hparked hearliest.others).length_eq

/-- Less work pays for all runners there can be. -/
theorem fuel_lt_of_load {s s' : System} (hn : s'.everyone.length ≤ n) (h : s'.load < s.load) :
    s'.fuel n < s.load * (n + 1) := by
  have hrunners := length_runnable_le s'
  have hmul : (s'.load + 1) * (n + 1) ≤ s.load * (n + 1) := Nat.mul_le_mul_right _ h
  rw [Nat.succ_mul] at hmul
  unfold fuel
  omega

/-- **Every turn uses fuel up.** -/
theorem fuel_turn_lt (hn : s.everyone.length ≤ n) (h : s.runnable ≠ []) :
    s.turn.fuel n < s.fuel n := by
  have hn' := Nat.le_trans (length_everyone_turn_le s) hn
  rcases turn_lt h with hload | ⟨hload, hlen⟩
  · -- less work is left, and that pays for all whom the turn may have woken
    have := fuel_lt_of_load hn' hload
    unfold fuel at this ⊢
    omega
  · -- the work is the same, and there is a runner less
    unfold fuel
    rw [hload]
    omega

/-! ### Turns until all is at rest -/

theorem length_everyone_settle_le (s : System) : s.settle.everyone.length ≤ s.everyone.length := by
  fun_induction settle s with
  | case1 s _ => exact Nat.le_refl _
  | case2 s _ ih => exact Nat.le_trans ih (length_everyone_turn_le s)

/-- **There are no more turns than there is fuel.** -/
theorem length_turns_le (hn : s.everyone.length ≤ n) :
    s.turns.length + s.settle.fuel n ≤ s.fuel n := by
  fun_induction settle s with
  | case1 s h =>
      rw [turns_of_nil h]
      simp
  | case2 s h ih =>
      have hturn := fuel_turn_lt hn h
      have hlater := ih (Nat.le_trans (length_everyone_turn_le s) hn)
      rw [turns_of_ne_nil h, List.length_cons]
      omega

/-- **Coming to rest is so many turns.** -/
theorem settle_eq_iterate (s : System) : s.settle = turn^[s.turns.length] s := by
  fun_induction settle s with
  | case1 s h =>
      rw [turns_of_nil h]
      rfl
  | case2 s h ih =>
      rw [turns_of_ne_nil h, List.length_cons, Function.iterate_succ_apply]
      exact ih

/-! ### Deadlines until the clock has moved -/

theorem length_everyone_rouse_le (hp : popDue target s.parked = some p) :
    (s.rouse p).everyone.length ≤ s.everyone.length := by
  rw [rouse_eq_turn, ← length_everyone_awake hp]
  exact length_everyone_turn_le _

theorem length_everyone_advance_le (s : System) (target : Nat) :
    (s.advance target).everyone.length ≤ s.everyone.length := by
  fun_induction advance s target with
  | case1 s _ => exact Nat.le_refl _
  | case2 s p hp ih =>
      have hsettle := length_everyone_settle_le (s.rouse p)
      exact Nat.le_trans ih (Nat.le_trans hsettle (length_everyone_rouse_le hp))

/-- **While the clock moves, there are no more turns than there is fuel.** -/
theorem length_turnsUntil_le (hn : s.everyone.length ≤ n) (target : Nat) :
    (s.turnsUntil target).length + (s.advance target).fuel n ≤ s.fuel n := by
  fun_induction advance s target with
  | case1 s hp =>
      rw [turnsUntil_of_none hp]
      simp [fuel, load]
  | case2 s p hp ih =>
      have hroused := Nat.le_trans (length_everyone_rouse_le hp) hn
      have hload := fuel_lt_of_load hroused (load_rouse_lt hp)
      have hturns := length_turns_le hroused
      have hlater := ih (Nat.le_trans (length_everyone_settle_le _) hroused)
      rw [turnsUntil_of_some hp, List.length_append, List.length_cons]
      unfold fuel at hload hturns hlater ⊢
      omega

/-- **Moving the clock is so many deadlines**, and none is left when the clock stops. -/
theorem advance_eq_iterate (s : System) (target : Nat) :
    ∃ k ≤ s.load, popDue target ((lapse target)^[k] s).parked = none ∧
      s.advance target = { (lapse target)^[k] s with
        world := { ((lapse target)^[k] s).world with clock := target } } := by
  fun_induction advance s target with
  | case1 s hp => exact ⟨0, Nat.zero_le _, hp, rfl⟩
  | case2 s p hp ih =>
      obtain ⟨k, hk, hnone, heq⟩ := ih
      have hlapse : s.lapse target = (s.rouse p).settle := by
        simp only [lapse, hp]
      have hload := Nat.lt_of_le_of_lt (load_settle_le _) (load_rouse_lt hp)
      refine ⟨k + 1, Nat.lt_of_le_of_lt hk hload, ?_, ?_⟩
      · rwa [Function.iterate_succ_apply, hlapse]
      · rwa [Function.iterate_succ_apply, hlapse]

/-! ### Steps -/

theorem fuel_clear (n : Nat) (s : System) : s.clear.fuel n = s.fuel n := rfl

theorem fuel_enlist (n : Nat) (s : System) (t : ThreadId) (calls : List Call) :
    (s.enlist t calls).fuel n = s.fuel n + Call.weights calls * (n + 1) + 1 := by
  have hload : (s.enlist t calls).load = s.load + Call.weights calls := by
    simp [load, enlist, Runner.weight, Task.weights_map_start, Nat.add_assoc]
  rw [fuel, hload, Nat.add_mul]
  simp only [fuel, enlist, List.length_append, List.length_singleton]
  omega

/-- A step brings one thread at most. -/
theorem length_everyone_take_le (s : System) (step : Step) :
    (s.take step).1.everyone.length ≤ s.everyone.length + 1 := by
  cases step with
  | advance ns => exact Nat.le_succ_of_le (length_everyone_advance_le s.clear _)
  | perform t calls =>
      cases ht : s.isParked t with
      | true =>
          rw [take_of_parked ht]
          exact Nat.le_succ _
      | false =>
          rw [take_of_not_parked ht]
          have hsettle := length_everyone_settle_le (s.clear.enlist t calls)
          simpa [enlist, clear, everyone, Nat.add_assoc] using hsettle

end System

/-- The work in the calls of a step. -/
def Step.weight : Step → Nat
  | advance _ => 0
  | perform _ calls => Call.weights calls

namespace System

variable {s : System} {n target : Nat} {p : Due}

/-- **A step takes no more turns than there was fuel and its calls bring.** -/
theorem length_turnsIn_le (step : Step) (hn : s.everyone.length + 1 ≤ n) :
    (s.turnsIn step).length + (s.take step).1.fuel n ≤
      s.fuel n + step.weight * (n + 1) + 1 := by
  cases step with
  | advance ns =>
      have hturns : (s.turnsIn (.advance ns)).length + (s.take (.advance ns)).1.fuel n ≤ s.fuel n :=
        length_turnsUntil_le (s := s.clear) (Nat.le_of_succ_le hn) _
      omega
  | perform t calls =>
      cases ht : s.isParked t with
      | true =>
          rw [take_of_parked ht, turnsIn, if_pos ht, List.length_nil, fuel_clear]
          omega
      | false =>
          have henlisted : (s.clear.enlist t calls).everyone.length ≤ n := by
            simpa [enlist, clear, everyone, Nat.add_assoc] using hn
          have hturns := length_turns_le henlisted
          rw [fuel_enlist, fuel_clear] at hturns
          rw [take_of_not_parked ht, turnsIn, if_neg (ne_true_of_eq_false ht), Step.weight]
          exact Nat.le_trans hturns (Nat.le_of_eq (Nat.add_assoc ..))

theorem Lawful.takeAll (h : s.Lawful) (hs : s.runnable = []) (steps : List Step) :
    (s.takeAll steps).Lawful := by
  induction steps generalizing s with
  | nil => exact h
  | cons step steps ih => exact ih (h.take hs step) (runnable_take hs)

end System

/-- **A script takes no more turns than there was fuel and its calls bring.** -/
theorem length_moments_add_le {s : System} {steps : List Step} {n : Nat}
    (hn : s.everyone.length + steps.length ≤ n) :
    (moments s steps).length + (s.takeAll steps).fuel n ≤
      s.fuel n + weigh Step.weight steps * (n + 1) + steps.length := by
  induction steps generalizing s with
  | nil => simp [moments, System.takeAll]
  | cons step steps ih =>
      rw [List.length_cons] at hn ⊢
      have hmore := System.length_everyone_take_le s step
      have hnow : s.everyone.length + 1 ≤ n := by omega
      have hthen : (s.take step).1.everyone.length + steps.length ≤ n := by omega
      have hstep := System.length_turnsIn_le step hnow
      have hlater := ih hthen
      rw [moments, List.length_append, System.takeAll_cons, weigh_cons, Nat.add_mul]
      omega

/-- **The turns of a script are bounded by its calls** and its length. -/
theorem length_moments_le (gates events : Nat) (silent : Bool) (steps : List Step) :
    (moments (System.fresh gates events silent) steps).length ≤
      weigh Step.weight steps * (steps.length + 1) + steps.length := by
  have hnobody : (System.fresh gates events silent).everyone.length + steps.length ≤
      steps.length := Nat.le_of_eq (Nat.zero_add _)
  have hempty : (System.fresh gates events silent).fuel steps.length = 0 := Nat.zero_mul _
  have hlength := length_moments_add_le hnobody
  omega

end ReentrantGate.Script
