/-
**Why workers die.**

A worker draws a number from a range that ends with one of the settings, and for that the word after
the setting must exist.  An enterer counts its entries, and it can draw a depth that it cannot
count.  Settings are *bounded* if none of this can befall a worker that gets to it.  Then nobody
dies except of a deadline that the clock cannot hold, and whoever dies has left the gate.

Main definitions:

* `Stress.Settings.hands`, `Stress.Settings.quota` — the workers of a kind, and their rounds;
* `Stress.Settings.Bounded` — every draw that comes up has its bound, and every entry can be
  counted;
* `Stress.Worker.Rostered` — what is known of a worker at every moment;
* `Stress.Arena.Vacated` — no worker has died inside.

Main results:

* `Stress.Arena.Reachable.rostered` — **a worker dies only of a bound, a count or a deadline**;
* `Stress.Arena.Reachable.deadline_of_dying`, `Stress.Arena.Reachable.vacated` — **in a run with
  bounded settings it is a deadline, and nobody dies inside**.
-/

import ReentrantGate.Proofs.Stress.Rounds

set_option relaxedAutoImplicit false
set_option autoImplicit false

namespace ReentrantGate

/-- A deadline that the clock cannot hold now, it cannot hold later. -/
theorem Timeout.deadline?_eq_none_of_le {timeout : Timeout} {now later : Nat}
    (h : timeout.deadline? now = none) (hle : now ≤ later) : timeout.deadline? later = none := by
  cases timeout with
  | infinite => cases h
  | millis ms =>
      simp only [deadline?, Instant.add?, Option.map_eq_none_iff, ite_eq_right_iff,
        reduceCtorEq, imp_false] at h ⊢
      omega

namespace Stress

/-! ### Kinds of workers -/

namespace Settings

/-- The number of workers of a kind. -/
def hands (s : Settings) (closer : Bool) : Nat := if closer then s.closers else s.enterers

/-- The rounds that each worker of a kind has at the start. -/
def quota (s : Settings) (closer : Bool) : Nat :=
  if closer then s.iterations / 10 else s.iterations

/-- **Every draw that comes up has a bound, and every entry can be counted**: an enterer draws a
depth and its work, a closer only its work, and a worker without rounds draws nothing. -/
def Bounded (s : Settings) : Prop :=
  (0 < s.enterers → 0 < s.iterations → s.depth ≤ maxHeld ∧ s.spins < maxWord) ∧
    (0 < s.closers → 10 ≤ s.iterations → s.spins < maxWord)

end Settings

/-- Whether a worker of a kind can get through every round. -/
def Plan.drawable (p : Plan) (closer : Bool) : Bool :=
  hasBound p.spins && (closer || p.depth ≤ maxHeld)

variable {s : Settings} {p : Plan}

/-- A depth without a bound is too large to be counted. -/
theorem not_le_maxHeld_of_hasBound {n : Nat} (h : hasBound n = false) : ¬n ≤ maxHeld := by
  have hlt : maxHeld < maxWord := by decide
  have hle := of_decide_eq_false h
  omega

/-- A plan has the depth and the spins of its settings. -/
theorem Arena.plan_eq (hp : Arena.plan? s = some p) : p.depth = s.depth ∧ p.spins = s.spins := by
  obtain ⟨timeout, -, rfl⟩ := Option.map_eq_some_iff.1 hp
  exact ⟨rfl, rfl⟩

theorem bounded_iff (hp : Arena.plan? s = some p) :
    s.Bounded ↔ ∀ closer, 0 < s.hands closer → 0 < s.quota closer → p.drawable closer = true := by
  obtain ⟨hdepth, hspins⟩ := Arena.plan_eq hp
  have htens : 0 < s.iterations / 10 ↔ 10 ≤ s.iterations := by omega
  simp only [Bool.forall_bool, Settings.hands, Settings.quota, Plan.drawable, hasBound, hdepth,
    hspins, Settings.Bounded, htens, Bool.false_eq_true, if_false, if_true, Bool.and_eq_true,
    Bool.false_or, Bool.true_or, decide_eq_true_eq, true_and, and_comm]

/-! ### What is known of a worker -/

/-- Whether a worker dies or has died. -/
def Stage.dying : Stage → Bool
  | opening dying => dying
  | ending dying => dying
  | finished died => died
  | _ => false

/-- A worker that has died was dying. -/
theorem Stage.dying_of_died {stage : Stage} (h : stage.died = true) : stage.dying = true := by
  cases stage <;> simp_all [Stage.dying, Stage.died]

/-- A worker that dies has a round that it will not end. -/
theorem Stage.pending_of_dying {stage : Stage} (h : stage.dying = true) : 0 < stage.pending := by
  cases stage <;> simp_all [Stage.dying, Stage.pending]

namespace Worker

/-- **What is known of a worker at every moment**: there are workers of its kind, it has no more
rounds than at the start, it began a round only if it had one, and if it dies then the clock cannot
hold its deadlines, or those of its kind do not get through every round. -/
structure Rostered (s : Settings) (p : Plan) (clock : Nat) (w : Worker) : Prop where
  hands : 0 < s.hands w.closer
  rounds : w.rounds ≤ s.quota w.closer
  begun : 0 < w.stage.pending → 0 < s.quota w.closer
  dying : w.stage.dying = true →
    p.timeout.deadline? clock = none ∨ p.drawable w.closer = false

variable {w w' : Worker} {sh sh' : Shared} {clock later : Nat} {stage : Stage}

namespace Rostered

theorem mono (h : w.Rostered s p clock) (hle : clock ≤ later) : w.Rostered s p later where
  hands := h.hands
  rounds := h.rounds
  begun := h.begun
  dying hd := (h.dying hd).imp_left fun hno => Timeout.deadline?_eq_none_of_le hno hle

/-- A worker that goes on with its round, or ends it. -/
theorem goto (h : w.Rostered s p clock) (hs : w.stage = stage) {next : Stage}
    (hp : next.pending ≤ stage.pending)
    (hd : next.dying = true → stage.dying = true ∨
      p.timeout.deadline? clock = none ∨ p.drawable w.closer = false) :
    (w.goto next).Rostered s p clock where
  hands := h.hands
  rounds := h.rounds
  begun hn := h.begun (by
    rw [hs]
    exact hn.trans_le hp)
  dying hdn := by
    rcases hd hdn with hst | hd
    · exact h.dying (hs ▸ hst)
    · exact hd

/-- A worker that goes on alive. -/
theorem goto_alive (h : w.Rostered s p clock) (hs : w.stage = stage) {next : Stage}
    (hp : next.pending ≤ stage.pending) (hd : next.dying = false) :
    (w.goto next).Rostered s p clock := by
  refine h.goto hs hp fun hdying => ?_
  rw [hd] at hdying
  cases hdying

/-- A worker that begins a round. -/
theorem start (h : w.Rostered s p clock) {n : Nat} (hr : w.rounds = n + 1) {next : Stage}
    (hd : next.dying = true → p.timeout.deadline? clock = none ∨ p.drawable w.closer = false) :
    Rostered s p clock { w with rounds := n, stage := next } := by
  have hle := h.rounds
  exact ⟨h.hands, by simp only; omega, fun _ => by simp only; omega, hd⟩

end Rostered

/-- **A move keeps to the roster.** -/
theorem Moves.rostered (m : w.Moves p sh sh' w') (hserves : w.stage.serves w.closer = true)
    (h : w.Rostered s p sh.crowd.clock) : w'.Rostered s p sh'.crowd.clock := by
  rw [m.clock_eq]
  have hspins : hasBound p.spins = false → p.drawable w.closer = false := by
    intro hno
    simp [Plan.drawable, hno]
  have hdepth : w.closer = false → ¬p.depth ≤ maxHeld → p.drawable w.closer = false := by
    intro hcl hno
    simp [Plan.drawable, hcl, hno]
  cases m with
  | still => exact h
  | park _ _ => exact h
  | crash _ hcl hr hno =>
      exact h.start hr fun _ => .inr (hdepth hcl (not_le_maxHeld_of_hasBound hno))
  | startEntry _ _ hr _ => exact h.start hr nofun
  | startClose _ _ hr => exact h.start hr nofun
  | collapse hs hno => exact h.goto hs le_rfl fun _ => .inr (.inr (hspins hno))
  | faint hs hno => exact h.goto hs le_rfl fun _ => .inr (.inr (hspins hno))
  | entryOverflowed hs hover _ => exact h.goto hs le_rfl fun _ => .inr (.inl hover)
  | closeOverflowed hs hover _ => exact h.goto hs le_rfl fun _ => .inr (.inl hover)
  | @reopen dying _ _ hs _ =>
      cases dying with
      | true => exact h.goto hs le_rfl .inl
      | false => exact h.goto_alive hs le_rfl rfl
  | leave hs => exact h.goto hs le_rfl .inl
  | retire hs _ => exact h.goto_alive hs le_rfl rfl
  | entered hs _ => exact h.goto_alive hs le_rfl rfl
  | entryTimedOut hs _ _ => exact h.goto_alive hs (Nat.zero_le _) rfl
  | arrive hs => exact h.goto_alive hs le_rfl rfl
  | nest hs _ => exact h.goto_alive hs le_rfl rfl
  | overrun hs hdeep _ =>
      have hcl : w.closer = false := Stage.enterer_of_present hserves (by rw [hs]; rfl)
      exact h.goto hs le_rfl fun _ => .inr (.inr (hdepth hcl (Nat.not_le.2 hdeep)))
  | settle hs => exact h.goto_alive hs le_rfl rfl
  | work hs => exact h.goto_alive hs le_rfl rfl
  | depart hs => exact h.goto_alive hs le_rfl rfl
  | exit hs _ => exact h.goto_alive hs le_rfl rfl
  | count hs => exact h.goto_alive hs (Nat.zero_le _) rfl
  | closed hs _ => exact h.goto_alive hs le_rfl rfl
  | closeTimedOut hs _ _ => exact h.goto_alive hs (Nat.zero_le _) rfl
  | check hs => exact h.goto_alive hs le_rfl rfl
  | hold hs => exact h.goto_alive hs le_rfl rfl
  | recheck hs => exact h.goto_alive hs (Nat.zero_le _) rfl

end Worker

namespace Arena

variable {a b : Arena}

/-- Whoever is in the crew is of a kind that has workers, with the rounds of that kind. -/
theorem rostered_of_mem_crew {w : Worker} (hw : w ∈ crew s) (clock : Nat) :
    w.Rostered s p clock := by
  have hstage := stage_of_mem_crew hw
  have hbegun : ¬0 < w.stage.pending := by simp [hstage, Stage.pending]
  have hdying : w.stage.dying ≠ true := by simp [hstage, Stage.dying]
  rcases List.mem_append.1 hw with hw | hw
  · obtain ⟨i, hi, rfl⟩ := List.mem_map.1 hw
    exact ⟨(Nat.zero_le i).trans_lt (List.mem_range.1 hi), le_rfl, fun h => absurd h hbegun,
      fun h => absurd h hdying⟩
  · obtain ⟨i, hi, rfl⟩ := List.mem_map.1 hw
    exact ⟨(Nat.zero_le i).trans_lt (List.mem_range.1 hi), le_rfl, fun h => absurd h hbegun,
      fun h => absurd h hdying⟩

/-- **What can happen next keeps to the roster.** -/
theorem Step.rostered (hs : Step p a b) (hm : a.Manned p)
    (h : ∀ w ∈ a.workers, w.Rostered s p a.shared.crowd.clock) :
    ∀ w ∈ b.workers, w.Rostered s p b.shared.crowd.clock := by
  cases hs with
  | @worker before after w w' s' hws m =>
      intro v hv
      rw [List.mem_append, List.mem_cons] at hv
      have hw : w ∈ a.workers := by simp [hws]
      have hothers : v ∈ a.workers → v.Rostered s p s'.crowd.clock := by
        intro hv
        rw [m.clock_eq]
        exact h v hv
      rcases hv with hv | rfl | hv
      · exact hothers (by simp [hws, hv])
      · exact m.rostered (hm.fits w hw).serves (h w hw)
      · exact hothers (by simp [hws, hv])
  | disturb _ hclock _ => exact fun w hw => (h w hw).mono hclock
  | interrupt => exact h
  | start _ => exact h
  | wake _ _ => exact h

/-- **A worker dies only of a bound, a count or a deadline**, at every moment of every run. -/
theorem Reachable.rostered (h : Reachable s p a) :
    ∀ w ∈ a.workers, w.Rostered s p a.shared.crowd.clock := by
  induction h with
  | start => exact fun w hw => rostered_of_mem_crew hw _
  | act hr ha ih => exact (hr.manned.act_step ha).rostered hr.manned ih

/-! ### Bounded settings -/

/-- No worker has died inside: whoever has died has left the gate. -/
def Vacated (a : Arena) : Prop :=
  ∀ w ∈ a.workers, w.stage.died = true → a.shared.crowd.gate.depth w.thread = 0

/-- With bounded settings whoever dies is of a kind that gets through every round. -/
theorem Reachable.drawable_of_dying (h : Reachable s p a) (hp : plan? s = some p) (hb : s.Bounded)
    {w : Worker} (hw : w ∈ a.workers) (hd : w.stage.dying = true) :
    p.drawable w.closer = true := by
  have hr := h.rostered w hw
  exact (bounded_iff hp).1 hb w.closer hr.hands (hr.begun (Stage.pending_of_dying hd))

/-- **With bounded settings a worker dies only of a deadline** that the clock cannot hold. -/
theorem Reachable.deadline_of_dying (h : Reachable s p a) (hp : plan? s = some p) (hb : s.Bounded)
    {w : Worker} (hw : w ∈ a.workers) (hd : w.stage.dying = true) :
    p.timeout.deadline? a.shared.crowd.clock = none := by
  refine ((h.rostered w hw).dying hd).resolve_right ?_
  rw [h.drawable_of_dying hp hb hw hd]
  nofun

/-- Enterers get through every round if the plan is safe. -/
theorem drawable_eq_safe (p : Plan) : p.drawable false = p.safe := rfl

/-- A worker that dies outside, or with a plan that is safe, has no entry. -/
theorem Manned.depth_of_died (h : a.Manned p) {w : Worker} (hw : w ∈ a.workers)
    (hd : w.stage.died = true) (hsafe : w.closer = false → p.safe = true) :
    a.shared.crowd.gate.depth w.thread = 0 := by
  rcases (h.fits w hw).depth with hdepth | ⟨-, hcl, hno⟩
  · rw [hdepth]
    cases hs : w.stage <;> simp_all [Stage.died, Stage.entries]
  · rw [hsafe hcl] at hno
    cases hno

/-- **With bounded settings nobody dies inside.** -/
theorem Reachable.vacated (h : Reachable s p a) (hp : plan? s = some p) (hb : s.Bounded) :
    a.Vacated := by
  intro w hw hd
  refine h.manned.depth_of_died hw hd fun hcl => ?_
  have hdraw := h.drawable_of_dying hp hb hw (Stage.dying_of_died hd)
  rwa [hcl, drawable_eq_safe] at hdraw

end Arena

end Stress

end ReentrantGate
