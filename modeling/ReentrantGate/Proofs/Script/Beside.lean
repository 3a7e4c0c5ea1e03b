/-
**The others go on as if a visitor were not there.**

While a visit lasts, the system with the visitor and the one without it go hand in hand.  At each
turn of another thread both are in the same state, but for the visitor; its own turns only happen
in the one.  When the clock comes to the deadline of the visitor, it stands still for it in the one
system and goes on in the other, and before anybody else is woken both have the same time again.

Main definitions:

* `Script.System.ofOthers` — the moments in which other threads take their turns;
* `Script.System.Beside` — the same moment with a thread and without it.

Main results:

* `Script.Visit.Hides.settle`, `Script.Visit.Hides.advance`, `Script.Visit.Hides.take` — **the
  others come to rest, are woken by the clock and take their steps as if the visitor were not
  there**.
-/

import Mathlib.Data.List.Forall2
import ReentrantGate.Proofs.Script.Lawful
import ReentrantGate.Proofs.Script.Visit

set_option relaxedAutoImplicit false
set_option autoImplicit false

namespace ReentrantGate.Script

/-! ### The turns of the others -/

namespace System

/-- The moments in which another thread than `t` takes a turn. -/
def ofOthers (t : ThreadId) (ss : List System) : List System :=
  ss.filter fun s => s.runnable.head?.map (·.thread) ≠ some t

/-- **The same moment without a thread**: nothing else is different but the journal. -/
structure Beside (t : ThreadId) (b a : System) : Prop extends b.Without t a where
  clock : b.world.clock = a.world.clock

variable {t u : ThreadId} {s : System} {ss : List System} {tasks : List Task} {rs : List Runner}

theorem ofOthers_append (ss ss' : List System) :
    ofOthers t (ss ++ ss') = ofOthers t ss ++ ofOthers t ss' := List.filter_append ..

theorem ofOthers_cons_self (hs : s.runnable = ⟨t, tasks⟩ :: rs) :
    ofOthers t (s :: ss) = ofOthers t ss := by
  simp [ofOthers, hs]

theorem ofOthers_cons_of_ne (hs : s.runnable = ⟨u, tasks⟩ :: rs) (hu : u ≠ t) :
    ofOthers t (s :: ss) = s :: ofOthers t ss := by
  simp [ofOthers, hs, hu]

end System

namespace Visit

variable {v : Visit}

namespace Hides

variable {a b : System} {target : Nat}

/-! ### Coming to rest -/

/-- **The others come to rest as if the visitor were not there**, and take the same turns. -/
theorem settle (h : v.Hides b a) (hc : b.runnable = [] ∨ b.world.clock = a.world.clock)
    (hg : v.GivesUp a.settle.world.journal) : v.Hides b.settle a.settle ∧
      List.Forall₂ (System.Beside v.thread) b.turns (System.ofOthers v.thread a.turns) := by
  fun_induction System.settle a generalizing b with
  | case1 a ha =>
      have hb : b.runnable = [] := by simp [h.runnable, ha]
      rw [System.settle_of_nil hb, System.turns_of_nil hb, System.turns_of_nil ha]
      exact ⟨h, .nil⟩
  | case2 a ha ih =>
      obtain ⟨⟨u, tasks⟩, rs, hrun⟩ := List.exists_cons_of_ne_nil ha
      have hturn := hg.of_prefix (System.prefix_journal_settle a.turn)
      rw [System.turns_of_ne_nil ha]
      by_cases hu : u = v.thread
      · subst hu
        rw [System.ofOthers_cons_self hrun]
        refine ih (h.turn_self hrun hturn) ?_ hg
        rwa [System.clock_turn]
      · -- somebody can go on in `b`, so the clocks are the same
        have hb : b.runnable ≠ [] := by simp [h.runnable, hrun, hu]
        have hclock := hc.resolve_left hb
        obtain ⟨hsettled, hturns⟩ := ih (h.turn_of_ne hclock hrun hu)
          (.inr (by rw [System.clock_turn, System.clock_turn, hclock])) hg
        rw [System.settle_of_ne_nil hb, System.turns_of_ne_nil hb,
          System.ofOthers_cons_of_ne hrun hu]
        exact ⟨hsettled, .cons ⟨h.toWithout, hclock⟩ hturns⟩

/-! ### The clock -/

/-- A sleeper that is woken by the clock leaves everybody where they are. -/
theorem of_awake {b' : System} {p : System.Due} (h : v.Hides b a)
    (hp : System.popDue target a.parked = some p) (hb : b'.Without v.thread (a.awake p))
    (hj : b'.world.journal = b.world.journal) : v.Hides b' (a.awake p) where
  toWithout := hb
  own r hr := by
    obtain ⟨before, after, hparked, hearliest⟩ := System.popDue_eq_some_iff.1 hp
    exact h.own r ((System.everyone_awake hparked hearliest.others).subset hr)
  account := by
    rw [System.account_awake _ hp]
    exact h.account
  tells := by
    rw [System.journal_awake, hj]
    exact h.tells

/-- The clock has moved, and that is all. -/
theorem of_clock (h : v.Hides b a) (now : Nat) :
    v.Hides { b with world := { b.world with clock := now } }
      { a with world := { a.world with clock := now } } where
  world := by rw [h.world]
  parked := h.parked
  runnable := h.runnable
  own := h.own
  account := h.account
  tells := h.tells

/-- The visitor is due, and nobody else takes a turn. -/
theorem rouse_self {p : System.Due} (h : v.Hides b a) (hb : b.runnable = [])
    (hp : System.popDue target a.parked = some p) (ht : p.sleeper.thread = v.thread)
    (hg : v.GivesUp (a.rouse p).settle.world.journal) : v.Hides b (a.rouse p).settle ∧
      System.ofOthers v.thread (a.awake p :: (a.rouse p).turns) = [] := by
  have hrun : (a.awake p).runnable =
      ⟨v.thread, .resume p.sleeper.call p.sleeper.wait :: p.sleeper.rest⟩ :: a.runnable := by
    rw [← ht]
    rfl
  have hrouse := hg.of_prefix (System.prefix_journal_settle (a.rouse p))
  have hawake := h.of_awake hp (h.toWithout.awake_self hp ht) rfl
  obtain ⟨hsettled, hturns⟩ := (hawake.turn_self hrun hrouse).settle (.inl hb) hg
  rw [System.settle_of_nil hb] at hsettled
  rw [System.turns_of_nil hb, List.forall₂_nil_left_iff] at hturns
  rw [System.ofOthers_cons_self hrun]
  exact ⟨hsettled, hturns⟩

/-- Another thread is due, in both systems and at the same time. -/
theorem rouse_of_ne {p : System.Due} (h : v.Hides b a)
    (hp : System.popDue target a.parked = some p) (ht : p.sleeper.thread ≠ v.thread)
    (hc : max b.world.clock p.deadline = max a.world.clock p.deadline)
    (hg : v.GivesUp (a.rouse p).settle.world.journal) :
    v.Hides (b.rouse (p.without v.thread)).settle (a.rouse p).settle ∧
      List.Forall₂ (System.Beside v.thread)
        (b.awake (p.without v.thread) :: (b.rouse (p.without v.thread)).turns)
        (System.ofOthers v.thread (a.awake p :: (a.rouse p).turns)) := by
  have hrun : (a.awake p).runnable =
      ⟨p.sleeper.thread, .resume p.sleeper.call p.sleeper.wait :: p.sleeper.rest⟩ ::
        a.runnable := rfl
  have hawake := h.of_awake hp (h.toWithout.awake ht) rfl
  have hroused := hawake.turn_of_ne hc hrun ht
  rw [← System.rouse_eq_turn, ← System.rouse_eq_turn] at hroused
  have hclock : (b.rouse (p.without v.thread)).world.clock = (a.rouse p).world.clock := by
    rw [System.rouse_eq_turn, System.rouse_eq_turn, System.clock_turn, System.clock_turn]
    exact hc
  obtain ⟨hsettled, hturns⟩ := hroused.settle (.inr hclock) hg
  rw [System.ofOthers_cons_of_ne hrun ht]
  exact ⟨hsettled, .cons ⟨hawake.toWithout, hc⟩ hturns⟩

/-- **The others are woken by the clock as if the visitor were not there**: when the clock has come
to the deadline of the visitor, the deadlines of the others are still to come. -/
theorem advance (h : v.Hides b a) (hr : a.runnable = [])
    (hc : ∀ z ∈ b.parked, ∀ d, z.wait.deadline = some d →
      max b.world.clock d = max a.world.clock d)
    (hg : v.GivesUp (a.advance target).world.journal) :
    v.Hides (b.advance target) (a.advance target) ∧
      (b.advance target).world.clock = (a.advance target).world.clock ∧
      List.Forall₂ (System.Beside v.thread) (b.turnsUntil target)
        (System.ofOthers v.thread (a.turnsUntil target)) := by
  fun_induction System.advance a target generalizing b with
  | case1 a hp =>
      have hb := h.popDue_eq_none hp
      rw [System.advance_of_none hb, System.turnsUntil_of_none hp, System.turnsUntil_of_none hb]
      exact ⟨h.of_clock target, rfl, .nil⟩
  | case2 a p hp ih =>
      have hsettle := hg.of_prefix (System.prefix_journal_advance (a.rouse p).settle target)
      have hclock := System.clock_settle_rouse a p
      have hrest := System.runnable_settle (a.rouse p)
      obtain ⟨before, after, hparked, hearliest⟩ := System.popDue_eq_some_iff.1 hp
      rw [System.turnsUntil_of_some hp, System.ofOthers_append]
      by_cases ht : p.sleeper.thread = v.thread
      · -- the clock of `b` stays behind, but every deadline there is yet to come in both
        have hb : b.runnable = [] := by simp [h.runnable, hr]
        obtain ⟨hsettled, hturns⟩ := h.rouse_self hb hp ht hsettle
        rw [hturns, List.nil_append]
        refine ih hsettled hrest (fun z hz d hd => ?_) hg
        have hle : p.deadline ≤ d := by
          rw [h.parked] at hz
          exact System.le_of_earliest hearliest (hparked ▸ (List.mem_filter.1 hz).1) hd
        have hsame := hc z hz d hd
        rw [hclock]
        omega
      · have hdue := h.toWithout.popDue_eq_some hp ht
        have hmem : p.sleeper ∈ b.parked := by
          rw [h.parked, hparked]
          simp [ht]
        have hnow := hc p.sleeper hmem p.deadline hearliest.deadline
        obtain ⟨hsettled, hturns⟩ := h.rouse_of_ne hp ht hnow hsettle
        have hclock' : (b.rouse (p.without v.thread)).settle.world.clock =
            (a.rouse p).settle.world.clock := by
          rw [hclock, System.clock_settle_rouse]
          exact hnow
        obtain ⟨hlater, hclocks, hmoments⟩ := ih hsettled hrest (fun _ _ _ _ => by rw [hclock']) hg
        rw [System.advance_of_some hdue, System.turnsUntil_of_some hdue]
        exact ⟨hlater, hclocks, List.rel_append hturns hmoments⟩

/-! ### Steps -/

/-- Both journals start empty. -/
theorem clear (h : v.Hides b a) : v.Hides b.clear a.clear where
  world := by
    simp only [System.clear]
    rw [h.world]
  parked := h.parked
  runnable := h.runnable
  own := h.own
  account := by
    rw [System.account_clear]
    exact Nat.le_trans (Nat.le_add_left ..) h.account
  tells := .inl rfl

theorem isParked_eq {u : ThreadId} (h : v.Hides b a) (hu : u ≠ v.thread) :
    b.isParked u = a.isParked u := by
  simp only [System.isParked, h.parked, List.any_filter]
  congr 1
  funext z
  by_cases hz : z.thread = u
  · simp [hz, hu]
  · simp [hz]

/-- Another thread starts calls in both systems, none of them with the label of the visit. -/
theorem enlist {u : ThreadId} {cs : List Call} (h : v.Hides b a) (hu : u ≠ v.thread)
    (hcs : (Call.allOf cs).countP (·.site.label = v.site.label) = 0) :
    v.Hides (b.enlist u cs) (a.enlist u cs) where
  world := h.world
  parked := h.parked
  runnable := by simp [System.enlist, h.runnable, hu]
  own r hr ht := by
    rcases List.mem_append.1 hr with hr | hr
    · exact h.own r (List.mem_append_left _ hr) ht
    · rcases List.mem_append.1 hr with hr | hr
      · exact h.own r (List.mem_append_right _ hr) ht
      · rw [List.mem_singleton.1 hr] at ht
        exact absurd ht hu
  account := by
    rw [System.account_enlist, hcs]
    exact h.account
  tells := h.tells

/-- **The others take their steps as if the visitor were not there.** -/
theorem take {step : Step} (h : v.Hides b a) (hr : a.runnable = [])
    (hc : b.world.clock = a.world.clock) (hne : ∀ cs, step ≠ .perform v.thread cs)
    (hcalls : step.calls.countP (·.site.label = v.site.label) = 0)
    (hg : v.GivesUp (a.take step).1.world.journal) :
    v.Hides (b.take step).1 (a.take step).1 ∧ (b.take step).2 = (a.take step).2 ∧
      (b.take step).1.world.clock = (a.take step).1.world.clock ∧
      List.Forall₂ (System.Beside v.thread) (b.turnsIn step)
        (System.ofOthers v.thread (a.turnsIn step)) := by
  cases step with
  | advance ns =>
      obtain ⟨hlater, hclock, hturns⟩ :=
        h.clear.advance hr (fun _ _ d _ => congrArg (max · d) hc) hg
      rw [System.take_advance, System.take_advance, System.turnsIn, System.turnsIn, hc]
      exact ⟨hlater, rfl, hclock, hturns⟩
  | perform u cs =>
      have hu : u ≠ v.thread := by
        rintro rfl
        exact hne cs rfl
      have hparked := h.isParked_eq hu
      cases ht : a.isParked u with
      | true =>
          rw [ht] at hparked
          rw [System.take_of_parked ht, System.take_of_parked hparked, System.turnsIn,
            System.turnsIn, if_pos ht, if_pos hparked]
          exact ⟨h.clear, rfl, hc, .nil⟩
      | false =>
          rw [ht] at hparked
          rw [System.take_of_not_parked ht] at hg
          obtain ⟨hlater, hturns⟩ := (h.clear.enlist hu hcalls).settle (.inr hc) hg
          rw [System.take_of_not_parked ht, System.take_of_not_parked hparked, System.turnsIn,
            System.turnsIn, if_neg (ne_true_of_eq_false ht), if_neg (ne_true_of_eq_false hparked)]
          refine ⟨hlater, rfl, ?_, hturns⟩
          rw [System.clock_settle, System.clock_settle]
          exact hc

end Hides

end Visit

end ReentrantGate.Script
