/-
**What is kept when threads take turns in any order.**

Whatever happens, gates stay sound and what a thread waits for fits its gate.  A thread goes on only
by its own turns, and no turn of another changes what it holds.

Main definitions:

* `Gate.held` — how many holds of a kind a thread has;
* `System.Sane` — what is true of all reachable systems;
* `System.Fate` — what becomes of one thread when something happens.

Main results:

* `System.Happens.sane`, `System.Reachable.sane` — **every reachable system is sane**;
* `System.Happens.fate` — **a thread goes on by its own turns**, or by a panic of its own;
* `System.reachable_of_mem_moments` — every moment of a script is reachable.
-/

import ReentrantGate.Proofs.Gate.Turn
import ReentrantGate.Proofs.Script.Lawful
import ReentrantGate.Script.Interleaving

set_option relaxedAutoImplicit false
set_option autoImplicit false

/-! ### What a thread holds -/

namespace ReentrantGate.Gate

/-- How many holds of a kind a thread has: its entries, or the depth of its close.  A claim that
still drains is no hold. -/
def held (g : Gate) (draining : Bool) (t : ThreadId) : Hold → Nat
  | .entry => g.depth t
  | .close => g.closeDepth draining t

namespace Move

variable {g : Gate} {t u : ThreadId} {d : Bool} {hold : Hold} {s : Segment}

/-- A segment changes what its thread holds by what it grants or gives back. -/
theorem held_self (m : Move t g d hold s) (h : g.Sound) (kind : Hold) :
    (s.gate.held s.draining t kind : Int) = g.held d t kind + gained kind hold s.verdict? := by
  cases kind with
  | entry => rw [held, held, m.depth_self h false, balance_occurrence]
  | close => rw [held, held, m.closeDepth_self false, balance_occurrence]

/-- A segment changes nothing that another thread holds. -/
theorem held_of_ne (m : Move t g d hold s) (h : g.Sound) (hu : u ≠ t) (draining : Bool)
    (kind : Hold) : s.gate.held draining u kind = g.held draining u kind := by
  cases kind with
  | entry => exact m.depth_of_ne h hu
  | close => exact m.closeDepth_of_ne hu draining

end Move

end ReentrantGate.Gate

namespace ReentrantGate.Script

theorem World.gate_of_some {w : World} {i : Nat} {g : Gate} (h : w.gates[i]? = some g) :
    w.gate i = g := by
  rw [gate, h, Option.getD_some]

namespace System

variable {s s' u v : System} {t : ThreadId} {tasks : List Task} {x : Option Turn}
  {turns : List Turn} {P : System → Prop}

/-! ### Sane systems -/

/-- **A sane system**: no thread is there twice, only the first task of a thread can be a call to
resume, all gates are sound, and what a thread waits for fits its gate. -/
structure Sane (s : System) : Prop where
  nodup : (s.everyone.map (·.thread)).Nodup
  tails : ∀ r ∈ s.everyone, ∀ x ∈ r.tasks.tail, x.isResume = false
  sound : ∀ (i : Nat) (g : Gate), s.world.gates[i]? = some g → g.Sound
  fits : ∀ (t : ThreadId) (c : Call) (i : Nat) (waiting : Gate.Waiting) (rest : List Task),
    ⟨t, .resume c (.gate i waiting) :: rest⟩ ∈ s.everyone →
      ∀ g, s.world.gates[i]? = some g → waiting.Fits g t

/-- A thread is there once. -/
theorem Sane.eq_of_mem {r r' : Runner} (h : s.Sane) (hr : r ∈ s.everyone) (hr' : r' ∈ s.everyone)
    (ht : r.thread = r'.thread) : r = r' :=
  List.inj_on_of_nodup_map h.nodup hr hr' ht

/-- Nothing of this depends on the order, and who starts calls or releases guards fits anywhere. -/
theorem Sane.of_subset (h : s.Sane) (hg : s'.world.gates = s.world.gates)
    (hn : (s'.everyone.map (·.thread)).Nodup)
    (hsub : ∀ r ∈ s'.everyone, r ∈ s.everyone ∨ ∀ x ∈ r.tasks, x.isResume = false) :
    s'.Sane where
  nodup := hn
  tails r hr x hx := by
    rcases hsub r hr with hr | hstill
    · exact h.tails r hr x hx
    · exact hstill x (List.mem_of_mem_tail hx)
  sound i g hi := h.sound i g (hg ▸ hi)
  fits t c i waiting rest hr g hi := by
    rcases hsub _ hr with hr | hstill
    · exact h.fits t c i waiting rest hr g (hg ▸ hi)
    · cases hstill _ List.mem_cons_self

/-- The first runner stands out from all others. -/
theorem Sane.of_runnable {r : Runner} {rs : List Runner} (h : s.Sane)
    (hs : s.runnable = r :: rs) :
    r ∈ s.everyone ∧ ∀ u ∈ { s with runnable := rs }.everyone,
      u ∈ s.everyone ∧ u.thread ≠ r.thread := by
  have hp := everyone_perm_of_runnable hs
  exact ⟨hp.symm.subset List.mem_cons_self, fun u hu =>
    ⟨hp.symm.subset (List.mem_cons_of_mem _ hu), thread_ne_of_runnable h.nodup hs u hu⟩⟩

/-! ### What a turn does to a gate -/

variable {task : Task} {rest : List Task} {rs : List Runner} {i : Nat} {g : Gate}

/-- The segment of a gate that the first runner carries out there is a move. -/
theorem Sane.move {segment : Gate.Segment} (h : s.Sane)
    (hs : s.runnable = ⟨t, task :: rest⟩ :: rs) (hg : s.world.gates[i]? = some g)
    (hat : task.AtGate t s.world.clock g i segment) : ∃ d hold, Gate.Move t g d hold segment := by
  have hsound := h.sound i g hg
  rcases hat.begin_or_resume with ⟨-, r, rfl⟩ | ⟨c, waiting, rfl, rfl⟩
  · exact ⟨_, _, Gate.begin_move hsound _ r⟩
  · have hfits := h.fits t c i waiting rest (h.of_runnable hs).1 g hg
    exact ⟨_, _, Gate.resume_move hsound hfits _⟩

/-- **A turn of a thread does a move at a gate or leaves the gate alone**, and a thread that parks
there fits it. -/
theorem Sane.gate_of_turn (h : s.Sane) (hs : s.runnable = ⟨t, task :: rest⟩ :: rs)
    (hg : s.world.gates[i]? = some g) :
    ∃ g', s.turn.world.gates[i]? = some g' ∧
      (g' = g ∨ ∃ d hold segment, Gate.Move t g d hold segment ∧ segment.gate = g') ∧
      ∀ w c waiting, task.attempt t s.world = .park w c (.gate i waiting) →
        waiting.Fits g' t := by
  have hlt : i < s.world.gates.length := (List.getElem?_eq_some_iff.1 hg).1
  have he := task.attempt_effect t s.world
  rw [turn_of_cons hs, world_carryOut]
  generalize task.attempt t _ = seg at he ⊢
  cases he with
  | @gatePark j g₀ g' waiting w' hj hat hw =>
      by_cases hji : j = i
      · subst hji
        obtain rfl : g₀ = g := Option.some.inj (hj.symm.trans hg)
        obtain ⟨d, hold, m⟩ := h.move hs hg hat
        refine ⟨g', ?_, .inr ⟨d, hold, _, m, rfl⟩, ?_⟩
        · rw [Segment.world, hw.gates, World.setGate, List.getElem?_set_self hlt]
        · rintro w c waiting' heq
          cases heq
          exact m.of_park.1
      · refine ⟨g, ?_, .inl rfl, ?_⟩
        · rw [Segment.world, hw.gates, World.setGate, List.getElem?_set_ne hji, hg]
        · rintro w c waiting' heq
          cases heq
          exact absurd rfl hji
  | @gateDone j g₀ g' room note verdict w' follow hj hat hw _ =>
      by_cases hji : j = i
      · subst hji
        obtain rfl : g₀ = g := Option.some.inj (hj.symm.trans hg)
        obtain ⟨d, hold, m⟩ := h.move hs hg hat
        refine ⟨g', ?_, .inr ⟨d, hold, _, m, rfl⟩, by simp⟩
        rw [Segment.world, hw.gates, World.setGate, List.getElem?_set_self hlt]
      · refine ⟨g, ?_, .inl rfl, by simp⟩
        rw [Segment.world, hw.gates, World.setGate, List.getElem?_set_ne hji, hg]
  | eventPark _ _ _ =>
      refine ⟨g, hg, .inl rfl, ?_⟩
      rintro w c waiting heq
      cases heq
  | eventDone _ _ _ hw => exact ⟨g, by rw [Segment.world, hw.gates]; exact hg, .inl rfl, by simp⟩
  | signal _ hw =>
      refine ⟨g, ?_, .inl rfl, by simp⟩
      rw [Segment.world, hw.gates]
      split <;> exact hg
  | apart _ hw => exact ⟨g, by rw [Segment.world, hw.gates]; exact hg, .inl rfl, by simp⟩

/-- The gates of a system stay as many as they are. -/
theorem isSome_gate_of_turn {g' : Gate} (hs : s.runnable = ⟨t, task :: rest⟩ :: rs)
    (hg' : s.turn.world.gates[i]? = some g') : ∃ g, s.world.gates[i]? = some g := by
  have hlt := (List.getElem?_eq_some_iff.1 hg').1
  rw [turn_of_cons hs, world_carryOut, (task.attempt_effect t _).length_gates] at hlt
  exact ⟨_, List.getElem?_eq_getElem hlt⟩

/-- A turn changes what its thread has to do, and nobody else comes or goes. -/
theorem everyone_turn (hs : s.runnable = ⟨t, task :: rest⟩ :: rs) :
    s.turn.everyone.Perm (⟨t, afterwards task rest (task.attempt t s.world)⟩ ::
      { s with runnable := rs }.everyone) := by
  rw [turn_of_cons hs]
  exact everyone_carryOut _ t task rest

/-- **A turn keeps a system sane.** -/
theorem Sane.turn (h : s.Sane) (hs : s.runnable = ⟨t, task :: rest⟩ :: rs) : s.turn.Sane := by
  obtain ⟨hfirst, hothers⟩ := h.of_runnable hs
  have hrest : ∀ x ∈ rest, x.isResume = false := h.tails _ hfirst
  have hafter := everyone_turn hs
  constructor
  · rw [turn_of_cons hs]
    exact nodup_carryOut h.nodup hs
  · intro r hr x hx
    rcases List.mem_cons.1 (hafter.subset hr) with rfl | hr
    · exact isResume_of_mem_tail_afterwards hrest hx
    · exact h.tails r (hothers r hr).1 x hx
  · intro i g' hg'
    obtain ⟨g, hg⟩ := isSome_gate_of_turn hs hg'
    obtain ⟨g'', hg'', hmove, -⟩ := h.gate_of_turn hs hg
    obtain rfl : g'' = g' := Option.some.inj (hg''.symm.trans hg')
    rcases hmove with rfl | ⟨d, hold, segment, m, rfl⟩
    · exact h.sound i g'' hg
    · exact m.sound (h.sound i g hg)
  · intro u c i waiting rest' hr g' hg'
    obtain ⟨g, hg⟩ := isSome_gate_of_turn hs hg'
    obtain ⟨g'', hg'', hmove, hpark⟩ := h.gate_of_turn hs hg
    obtain rfl : g'' = g' := Option.some.inj (hg''.symm.trans hg')
    rcases List.mem_cons.1 (hafter.subset hr) with heq | hr
    · obtain ⟨rfl, htasks⟩ := Runner.mk.inj heq
      obtain ⟨w, hseg⟩ := park_of_afterwards hrest htasks
      exact hpark w c waiting hseg
    · obtain ⟨hu, hne⟩ := hothers _ hr
      have hfits := h.fits u c i waiting rest' hu g hg
      rcases hmove with rfl | ⟨d, hold, segment, m, rfl⟩
      · exact hfits
      · exact m.fits_of_ne (h.sound i g hg) hne hfits

/-! ### Whatever happens -/

theorem everyone_shuffle {zs : List Sleeper} (hz : zs.Perm s.parked) (hr : rs.Perm s.runnable) :
    (everyone { s with parked := zs, runnable := rs }).Perm s.everyone :=
  (hz.map Sleeper.wake).append hr

theorem everyone_rouse {z : Sleeper} {zs : List Sleeper} (hz : s.parked = z :: zs) :
    (everyone { s with parked := zs, runnable := s.runnable ++ [z.wake] }).Perm s.everyone := by
  simp only [everyone, hz, List.map_cons, ← List.append_assoc]
  exact List.perm_append_singleton z.wake _

theorem sane_fresh (gates events : Nat) (silent : Bool) : (fresh gates events silent).Sane where
  nodup := List.nodup_nil
  tails := by simp [System.fresh, everyone]
  sound i g hg := by
    obtain rfl : g = {} := (List.mem_replicate.1 (List.mem_of_getElem? hg)).2
    exact Gate.sound_fresh
  fits := by simp [System.fresh, everyone]

/-- **Whatever happens keeps a system sane.** -/
theorem Happens.sane (hs : s.Happens x s') (h : s.Sane) : s'.Sane := by
  cases hs with
  | turn hs => exact h.turn hs
  | leave hs =>
      have hnodup := ((everyone_perm_of_runnable hs).map Runner.thread).nodup_iff.1 h.nodup
      exact h.of_subset rfl (List.nodup_cons.1 hnodup).2
        fun r hr => .inl ((h.of_runnable hs).2 r hr).1
  | @shuffle zs rs hz hr =>
      have hperm := everyone_shuffle hz hr
      exact h.of_subset rfl ((hperm.map _).nodup_iff.2 h.nodup)
        fun r hr => .inl (hperm.subset hr)
  | @rouse z zs hz =>
      have hperm := everyone_rouse hz
      exact h.of_subset rfl ((hperm.map _).nodup_iff.2 h.nodup)
        fun r hr => .inl (hperm.subset hr)
  | tick ns => exact h.of_subset rfl h.nodup fun r hr => .inl hr
  | clear => exact h.of_subset rfl h.nodup fun r hr => .inl hr
  | @enlist t calls ht =>
      refine h.of_subset rfl (nodup_enlist h.nodup ht calls) fun r hr => ?_
      rw [everyone_enlist] at hr
      rcases List.mem_append.1 hr with hr | hr
      · exact .inl hr
      · rw [List.mem_singleton.1 hr]
        refine .inr fun x hx => ?_
        obtain ⟨c, -, rfl⟩ := List.mem_map.1 hx
        rfl
  | @unwind t skipped c hold gate rest rs hs =>
      obtain ⟨hfirst, hothers⟩ := h.of_runnable hs
      have hperm : (everyone { s with runnable := ⟨t, .release c hold gate :: rest⟩ :: rs }).Perm
          (⟨t, .release c hold gate :: rest⟩ :: { s with runnable := rs }.everyone) :=
        List.perm_middle
      refine h.of_subset rfl ?_ fun r hr => ?_
      · have hthreads := (hperm.map Runner.thread).trans
          ((everyone_perm_of_runnable hs).symm.map Runner.thread)
        exact hthreads.nodup_iff.2 h.nodup
      · rcases List.mem_cons.1 (hperm.subset hr) with rfl | hr
        · refine .inr (List.forall_mem_cons.2 ⟨rfl, fun x hx => h.tails _ hfirst x ?_⟩)
          cases skipped with
          | nil => exact hx
          | cons d skipped => exact List.mem_append_right _ (List.mem_cons_of_mem _ hx)
        · exact .inl (hothers r hr).1

/-- **Every reachable system is sane.** -/
theorem Reachable.sane (h : s.Reachable) : s.Sane := by
  obtain ⟨gates, events, silent, turns, hruns⟩ := h
  induction hruns with
  | refl => exact sane_fresh gates events silent
  | tail _ _ hs ih => exact hs.sane ih

/-! ### What becomes of one thread -/

/-- **What becomes of a thread** that has some tasks to do when something happens: it stands aside
and keeps what it holds, it takes its turn, it is done, or it panics. -/
inductive Fate (t : ThreadId) (tasks : List Task) (s : System) : Option Turn → System → Prop
  | aside {x : Option Turn} {s' : System} : (∀ y ∈ x, y.thread ≠ t) → ⟨t, tasks⟩ ∈ s'.everyone →
      (∀ i draining kind, (s'.world.gate i).held draining t kind =
        (s.world.gate i).held draining t kind) → Fate t tasks s x s'
  | own {task : Task} {rest : List Task} {s' : System} : tasks = task :: rest →
      s'.world = (task.attempt t s.world).world →
      ⟨t, afterwards task rest (task.attempt t s.world)⟩ ∈ s'.everyone →
      Fate t tasks s (some ⟨t, task, s.world⟩) s'
  | done {s' : System} : tasks = [] → Fate t tasks s none s'
  | panic {skipped : List Call} {c : Call} {hold : Hold} {gate : Nat} {rest : List Task}
      {s' : System} : tasks = skipped.map .start ++ .release c hold gate :: rest →
      s'.world = s.world → ⟨t, .release c hold gate :: rest⟩ ∈ s'.everyone →
      Fate t tasks s none s'

/-- The turn of another thread changes nothing that a thread holds. -/
theorem Sane.held_of_turn {u : ThreadId} (h : s.Sane) (hs : s.runnable = ⟨u, task :: rest⟩ :: rs)
    (ht : t ≠ u) (i : Nat) (draining : Bool) (kind : Hold) :
    (s.turn.world.gate i).held draining t kind = (s.world.gate i).held draining t kind := by
  cases hg : s.world.gates[i]? with
  | none =>
      have hnone : s.turn.world.gates[i]? = none := by
        rw [List.getElem?_eq_none_iff] at hg ⊢
        rwa [turn_of_cons hs, world_carryOut, (task.attempt_effect u _).length_gates]
      simp only [World.gate, hg, hnone]
  | some g =>
      obtain ⟨g', hg', hmove, -⟩ := h.gate_of_turn hs hg
      rw [World.gate_of_some hg, World.gate_of_some hg']
      rcases hmove with rfl | ⟨d, hold, segment, m, rfl⟩
      · rfl
      · exact m.held_of_ne (h.sound i g hg) ht draining kind

/-- **A thread goes on by its own turns**, or by a panic of its own. -/
theorem Happens.fate (hs : s.Happens x s') (h : s.Sane) (ht : ⟨t, tasks⟩ ∈ s.everyone) :
    Fate t tasks s x s' := by
  cases hs with
  | @turn u task rest rs hs =>
      obtain ⟨hfirst, -⟩ := h.of_runnable hs
      have hafter := everyone_turn hs
      by_cases hu : t = u
      · subst hu
        cases h.eq_of_mem ht hfirst rfl
        refine .own rfl ?_ (hafter.symm.subset List.mem_cons_self)
        rw [turn_of_cons hs, world_carryOut]
      · refine .aside (by simpa using Ne.symm hu) (hafter.symm.subset ?_) (h.held_of_turn hs hu)
        refine List.mem_cons_of_mem _ ?_
        rcases List.mem_cons.1 ((everyone_perm_of_runnable hs).subset ht) with heq | ht
        · exact absurd (congrArg Runner.thread heq) hu
        · exact ht
  | @leave u rs hs =>
      rcases List.mem_cons.1 ((everyone_perm_of_runnable hs).subset ht) with heq | ht
      · cases heq
        exact .done rfl
      · exact .aside nofun ht fun _ _ _ => rfl
  | @shuffle zs rs hz hr =>
      exact .aside nofun ((everyone_shuffle hz hr).symm.subset ht) fun _ _ _ => rfl
  | @rouse z zs hz =>
      exact .aside nofun ((everyone_rouse hz).symm.subset ht) fun _ _ _ => rfl
  | tick ns => exact .aside nofun ht fun _ _ _ => rfl
  | clear => exact .aside nofun ht fun _ _ _ => rfl
  | @enlist u calls hu =>
      refine .aside nofun ?_ fun _ _ _ => rfl
      rw [everyone_enlist]
      exact List.mem_append_left _ ht
  | @unwind u skipped c hold gate rest rs hs =>
      have hperm : (everyone { s with runnable := ⟨u, .release c hold gate :: rest⟩ :: rs }).Perm
          (⟨u, .release c hold gate :: rest⟩ :: { s with runnable := rs }.everyone) :=
        List.perm_middle
      rcases List.mem_cons.1 ((everyone_perm_of_runnable hs).subset ht) with heq | ht
      · cases heq
        exact .panic rfl rfl (hperm.symm.subset List.mem_cons_self)
      · exact .aside nofun (hperm.symm.subset (List.mem_cons_of_mem _ ht)) fun _ _ _ => rfl

/-! ### Scripts -/

theorem Reachable.turn (h : s.Reachable) (hs : s.runnable ≠ []) : s.turn.Reachable := by
  cases hr : s.runnable with
  | nil => exact absurd hr hs
  | cons r rs =>
      obtain ⟨t, tasks⟩ := r
      cases tasks with
      | nil =>
          rw [turn_of_nil hr]
          exact h.happens (.leave hr)
      | cons task rest => exact h.happens (.turn hr)

theorem Reachable.settle (h : s.Reachable) :
    s.settle.Reachable ∧ ∀ u ∈ s.turns, u.Reachable := by
  fun_induction System.settle s with
  | case1 s hs =>
      rw [turns_of_nil hs]
      exact ⟨h, by simp⟩
  | case2 s hs ih =>
      obtain ⟨hsettled, hturns⟩ := ih (h.turn hs)
      rw [turns_of_ne_nil hs]
      exact ⟨hsettled, List.forall_mem_cons.2 ⟨h, hturns⟩⟩


/-- The clock may come to any later time. -/
theorem Happens.clock {now : Nat} (hle : s.world.clock ≤ now) :
    s.Happens none { s with world := { s.world with clock := now } } := by
  have htick := Happens.tick (s := s) (now - s.world.clock)
  rwa [Nat.add_sub_cancel' hle] at htick

theorem Reachable.awake {target : Nat} {p : Due} (h : s.Reachable) (hs : s.runnable = [])
    (hp : popDue target s.parked = some p) : (s.awake p).Reachable := by
  obtain ⟨before, after, hparked, hearliest⟩ := popDue_eq_some_iff.1 hp
  have hperm : (p.sleeper :: p.others).Perm s.parked := by
    rw [hparked, hearliest.others]
    exact List.perm_middle.symm
  have hroused := ((h.happens (.shuffle hperm (.refl _))).happens (.rouse rfl)).happens
    (.clock (Nat.le_max_left s.world.clock p.deadline))
  simpa only [System.awake, hs, List.nil_append] using hroused

theorem Reachable.advance {target : Nat} (h : s.Reachable) (hs : s.runnable = [])
    (hle : s.world.clock ≤ target) :
    (s.advance target).Reachable ∧ ∀ u ∈ s.turnsUntil target, u.Reachable := by
  fun_induction System.advance s target with
  | case1 s hp =>
      rw [turnsUntil_of_none hp]
      exact ⟨h.happens (.clock hle), by simp⟩
  | case2 s p hp ih =>
      have hawake := h.awake hs hp
      obtain ⟨hsettled, hturns⟩ := (hawake.turn (List.cons_ne_nil _ _)).settle
      rw [← rouse_eq_turn] at hsettled hturns
      obtain ⟨hadvanced, hlater⟩ := ih hsettled (runnable_settle _) (clock_settle_rouse_le hp hle)
      rw [turnsUntil_of_some hp]
      exact ⟨hadvanced, List.forall_mem_append.2 ⟨List.forall_mem_cons.2 ⟨hawake, hturns⟩, hlater⟩⟩

theorem Reachable.take (h : s.Reachable) (hs : s.runnable = []) (step : Step) :
    (s.take step).1.Reachable ∧ ∀ u ∈ s.turnsIn step, u.Reachable := by
  have hclear := h.happens .clear
  cases step with
  | advance ns => exact hclear.advance hs (Nat.le_add_right ..)
  | perform t calls =>
      cases ht : s.isParked t with
      | true =>
          rw [take_of_parked ht, turnsIn, if_pos ht]
          exact ⟨hclear, by simp⟩
      | false =>
          have hidle : ∀ r ∈ s.clear.everyone, r.thread ≠ t := thread_ne_of_not_parked hs ht
          rw [take_of_not_parked ht, turnsIn, if_neg (ne_true_of_eq_false ht)]
          exact (hclear.happens (.enlist calls hidle)).settle

/-- **Every moment of a script is reachable.** -/
theorem reachable_of_mem_moments {gates events : Nat} {silent : Bool} {steps : List Step}
    (h : s ∈ moments (System.fresh gates events silent) steps) : s.Reachable := by
  suffices hall : ∀ u : System, u.Reachable → u.runnable = [] → ∀ v ∈ moments u steps,
      v.Reachable from hall _ (.fresh gates events silent) rfl s h
  clear h
  induction steps with
  | nil => simp [moments]
  | cons step steps ih =>
      intro u hu hr v hv
      obtain ⟨htaken, hturns⟩ := hu.take hr step
      rcases List.mem_append.1 hv with hv | hv
      · exact hturns v hv
      · exact ih _ htaken (runnable_take hr) v hv

end System

end ReentrantGate.Script
