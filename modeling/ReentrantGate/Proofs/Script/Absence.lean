/-
**A system without one of its threads.**

If nobody ever finds a certain thread, what the others do is the same without it: the same segments
in the same order, which add the same lines to the journal, and the same threads are woken.  The
thread is not found as long as it is only ever parked in a room of a gate, where either all threads
are woken or none.

Main definitions:

* `Script.System.Without` — a system without one of its threads;
* `Script.System.AtGates` — a thread is parked at gates only;
* `Script.Notice.Passes` — a notice does not look for a thread.

Main results:

* `Script.Task.passes_of_done` — no segment looks for a thread that is parked at a gate;
* `Script.System.Without.turn` — **the turns of the others are the same without the thread**;
* `Script.System.Without.popDue_eq_some`, `Script.System.Without.popDue_eq_none` — **and so is who
  is due next**.
-/

import ReentrantGate.Proofs.Script.Due
import ReentrantGate.Proofs.Script.Retelling
import ReentrantGate.Proofs.Script.Views

set_option relaxedAutoImplicit false
set_option autoImplicit false

namespace ReentrantGate.Script

/-! ### Notices -/

/-- **A notice does not look for a thread**: it is for all at a place, or the thread is not
there. -/
def Notice.Passes (t : ThreadId) (zs : List Sleeper) : Notice → Prop
  | all _ => True
  | one p => ∀ z ∈ zs, z.thread = t → z.isAt p = false

section Notices

variable {t : ThreadId} {zs : List Sleeper} {n : Notice}

theorem Notice.left_subset (n : Notice) (zs : List Sleeper) : n.left zs ⊆ zs := by
  intro z hz
  cases n with
  | all p => exact (List.mem_filter.1 hz).1
  | one p => exact List.mem_of_mem_eraseP hz

/-- If only members that are kept meet a condition, then the first of them is found all the same,
and the others are left. -/
theorem find?_and_eraseP_filter {α : Type} {keep p : α → Bool} {as : List α}
    (h : ∀ a ∈ as, p a = true → keep a = true) :
    (as.filter keep).find? p = as.find? p ∧
      (as.filter keep).eraseP p = (as.eraseP p).filter keep := by
  induction as with
  | nil => exact ⟨rfl, rfl⟩
  | cons a as ih =>
      have ha := h a List.mem_cons_self
      obtain ⟨hfind, herase⟩ := ih fun b hb => h b (List.mem_cons_of_mem _ hb)
      by_cases hp : p a = true
      · simp [ha hp, hp]
      · by_cases hk : keep a = true
        · simp only [List.filter_cons_of_pos hk, List.find?_cons_of_neg hp,
            List.eraseP_cons_of_neg hp, hfind, herase, and_self]
        · simp only [List.filter_cons_of_neg hk, List.find?_cons_of_neg hp,
            List.eraseP_cons_of_neg hp, hfind, herase, and_self]

theorem Notice.keeps_of_isAt {p : Place} (h : (one p).Passes t zs) :
    ∀ z ∈ zs, z.isAt p = true → decide (z.thread ≠ t) = true := by
  intro z hz hp
  rw [decide_eq_true_eq]
  intro ht
  rw [h z hz ht] at hp
  cases hp

/-- Among the others a notice leaves the others. -/
theorem Notice.left_filter (h : n.Passes t zs) :
    n.left (zs.filter (·.thread ≠ t)) = (n.left zs).filter (·.thread ≠ t) := by
  cases n with
  | all p => simp only [left, List.filter_filter, Bool.and_comm]
  | one p => exact (find?_and_eraseP_filter (keeps_of_isAt h)).2

/-- Among the others a notice finds the others. -/
theorem Notice.woken_filter (h : n.Passes t zs) :
    n.woken (zs.filter (·.thread ≠ t)) = (n.woken zs).filter (·.thread ≠ t) := by
  cases n with
  | all p => simp only [woken, List.filter_filter, Bool.and_comm]
  | one p =>
      simp only [woken, (find?_and_eraseP_filter (keeps_of_isAt h)).1]
      refine (List.filter_eq_self.2 fun z hz => ?_).symm
      have hfound := Option.mem_toList.1 hz
      exact keeps_of_isAt h z (List.mem_of_find?_eq_some hfound) (List.find?_some hfound)

end Notices

namespace System

/-- A thread is parked at gates only. -/
def AtGates (t : ThreadId) (s : System) : Prop :=
  ∀ z ∈ s.parked, z.thread = t → ∃ i r, z.wait.place = .room i r

end System

/-- **No segment looks for a thread that is parked at a gate.** -/
theorem Task.passes_of_done {t u : ThreadId} {task : Task} {w w' : World} {s : System}
    {ns : List Notice} {f : Follow} (h : task.attempt u w = .done w' ns f) (hs : s.AtGates t) :
    ∀ n ∈ ns, n.Passes t s.parked := by
  have hevent : ∀ i, (Notice.one (.event i)).Passes t s.parked := by
    intro i z hz ht
    obtain ⟨j, r, hplace⟩ := hs z hz ht
    simp [Sleeper.isAt, hplace]
  have heffect := task.attempt_effect u w
  rw [h] at heffect
  generalize hseg : Segment.done w' ns f = segment at heffect
  cases heffect with
  | gatePark _ _ _ => cases hseg
  | gateDone _ _ _ _ =>
      cases hseg
      intro n hn
      obtain ⟨r, -, rfl⟩ := Option.mem_toList.1 hn |> Option.map_eq_some_iff.1
      trivial
  | eventPark _ _ _ => cases hseg
  | eventDone _ _ _ _ =>
      cases hseg
      intro n hn
      cases hn
  | signal _ _ =>
      cases hseg
      intro n hn
      rw [List.eq_of_mem_replicate hn]
      exact hevent _
  | apart _ _ =>
      cases hseg
      intro n hn
      cases hn

namespace System

/-! ### Without a thread -/

/-- **A system without one of its threads**: `b` is `a` without `t`, but for the clock and the
journal. -/
structure Without (t : ThreadId) (b a : System) : Prop where
  world : b.world = { a.world with clock := b.world.clock, journal := b.world.journal }
  parked : b.parked = a.parked.filter (·.thread ≠ t)
  runnable : b.runnable = a.runnable.filter (·.thread ≠ t)

variable {t u : ThreadId} {a b : System} {task : Task} {rest : List Task}

/-- A thread that is nowhere is not missed. -/
theorem Without.of_nobody (h : ∀ r ∈ a.everyone, r.thread ≠ t) : a.Without t a where
  world := rfl
  parked := by
    refine (List.filter_eq_self.2 fun z hz => ?_).symm
    exact decide_eq_true (h z.wake (List.mem_append_left _ (List.mem_map_of_mem hz)))
  runnable := by
    refine (List.filter_eq_self.2 fun r hr => ?_).symm
    exact decide_eq_true (h r (List.mem_append_right _ hr))

/-- Without a thread that is nowhere the system is the same, but for the clock and the journal. -/
theorem Without.eq_of_nobody (h : b.Without t a) (hn : ∀ r ∈ a.everyone, r.thread ≠ t) :
    b.parked = a.parked ∧ b.runnable = a.runnable := by
  have hself := Without.of_nobody hn
  exact ⟨h.parked.trans hself.parked.symm, h.runnable.trans hself.runnable.symm⟩

theorem Without.heed {n : Notice} (h : b.Without t a) (hn : n.Passes t a.parked) :
    (b.heed n).Without t (a.heed n) where
  world := h.world
  parked := by
    simp only [System.heed, h.parked]
    exact n.left_filter hn
  runnable := by
    simp only [System.heed, h.parked, h.runnable, n.woken_filter hn, List.filter_append,
      List.filter_map]
    rfl

theorem Without.notify {ns : List Notice} (h : b.Without t a)
    (hns : ∀ n ∈ ns, n.Passes t a.parked) : (b.notify ns).Without t (a.notify ns) := by
  induction ns generalizing a b with
  | nil => exact h
  | cons n ns ih =>
      refine ih (h.heed (hns n List.mem_cons_self)) fun m hm => ?_
      have hpasses := hns m (List.mem_cons_of_mem _ hm)
      cases m with
      | all p => trivial
      | one p => exact fun z hz => hpasses z (n.left_subset a.parked hz)

/-- At the same time the worlds are the same, but for the journal. -/
theorem Without.eq_journal (h : b.Without t a) (hc : b.world.clock = a.world.clock) :
    b.world = { a.world with journal := b.world.journal } := by
  have hworld := h.world
  rw [hc] at hworld
  exact hworld

/-- **A segment of another thread is the same without `t`.** -/
theorem Without.carryOut (h : b.Without t a) (hc : b.world.clock = a.world.clock) (hu : u ≠ t)
    (hg : a.AtGates t) (task : Task) (rest : List Task) :
    (b.carryOut u task rest).Without t (a.carryOut u task rest) ∧
      ∃ lines, (a.carryOut u task rest).world.journal = a.world.journal ++ lines ∧
        (b.carryOut u task rest).world.journal = b.world.journal ++ lines := by
  -- the worlds differ in their journals, so both segments are read off the one that starts a
  -- journal
  have hbefore : ∀ js, task.attempt u { a.world with journal := js } =
      (task.attempt u { a.world with journal := [] }).behind js :=
    attempt_journal u task a.world
  have ha := hbefore a.world.journal
  have hb := hbefore b.world.journal
  rw [← h.eq_journal hc] at hb
  cases hseg : task.attempt u { a.world with journal := [] } with
  | park w c wait =>
      rw [hseg] at ha hb
      refine ⟨⟨?_, ?_, ?_⟩, w.journal, ?_, ?_⟩
      · simp only [System.carryOut, ha, hb, Segment.behind]
        rfl
      · simp [System.carryOut, ha, hb, Segment.behind, h.parked, hu]
      · simp only [System.carryOut, ha, hb, Segment.behind, h.runnable]
      · simp only [System.carryOut, ha, Segment.behind, World.behind]
      · simp only [System.carryOut, hb, Segment.behind, World.behind]
  | done w ns f =>
      rw [hseg] at ha hb
      have hpasses := Task.passes_of_done hseg hg
      have hsame : { b with world := w.behind b.world.journal }.Without t
          { a with world := w.behind a.world.journal } := ⟨rfl, h.parked, h.runnable⟩
      have hnotify := hsame.notify hpasses
      refine ⟨⟨?_, ?_, ?_⟩, w.journal, ?_, ?_⟩
      · simp only [System.carryOut, ha, hb, Segment.behind]
        exact hnotify.world
      · simp only [System.carryOut, ha, hb, Segment.behind]
        exact hnotify.parked
      · simp only [System.carryOut, ha, hb, Segment.behind]
        simp [hnotify.runnable, hu]
      · simp only [System.carryOut, ha, Segment.behind, world_notify, World.behind]
      · simp only [System.carryOut, hb, Segment.behind, world_notify, World.behind]

/-- **A turn of another thread is the same without `t`.** -/
theorem Without.turn {tasks : List Task} {rs : List Runner} (h : b.Without t a)
    (hc : b.world.clock = a.world.clock) (hg : a.AtGates t) (ha : a.runnable = ⟨u, tasks⟩ :: rs)
    (hu : u ≠ t) :
    b.turn.Without t a.turn ∧ ∃ lines, a.turn.world.journal = a.world.journal ++ lines ∧
      b.turn.world.journal = b.world.journal ++ lines := by
  have hb : b.runnable = ⟨u, tasks⟩ :: rs.filter (·.thread ≠ t) := by simp [h.runnable, ha, hu]
  have hothers : { b with runnable := rs.filter (·.thread ≠ t) }.Without t
      { a with runnable := rs } := ⟨h.world, h.parked, rfl⟩
  cases tasks with
  | nil =>
      have hturna : a.turn = { a with runnable := rs } := by simp only [System.turn, ha]
      have hturnb : b.turn = { b with runnable := rs.filter (·.thread ≠ t) } := by
        simp only [System.turn, hb]
      rw [hturna, hturnb]
      exact ⟨hothers, [], by simp, by simp⟩
  | cons task rest =>
      have hturna : a.turn = { a with runnable := rs }.carryOut u task rest := by
        simp only [System.turn, ha]
      have hturnb : b.turn =
          { b with runnable := rs.filter (·.thread ≠ t) }.carryOut u task rest := by
        simp only [System.turn, hb]
      rw [hturna, hturnb]
      exact hothers.carryOut hc hu hg task rest

/-! ### Who is due -/

variable {target : Nat} {p : Due}

/-- If nobody is due then nobody is due without `t`. -/
theorem Without.popDue_eq_none (h : b.Without t a) (hp : popDue target a.parked = none) :
    popDue target b.parked = none := by
  rw [popDue_eq_none_iff] at hp ⊢
  intro z hz
  rw [h.parked] at hz
  exact hp z (List.mem_filter.1 hz).1

/-- A sleeper that is due, with the others but for `t`. -/
def Due.without (t : ThreadId) (p : Due) : Due :=
  { p with others := p.others.filter (·.thread ≠ t) }

/-- If another thread is due then it is due without `t`. -/
theorem Without.popDue_eq_some (h : b.Without t a) (hp : popDue target a.parked = some p)
    (hne : p.sleeper.thread ≠ t) : popDue target b.parked = some (p.without t) := by
  rw [popDue_eq_some_iff] at hp ⊢
  obtain ⟨before, after, hparked, hearliest⟩ := hp
  refine ⟨before.filter (·.thread ≠ t), after.filter (·.thread ≠ t), ?_, ?_⟩
  · simp [h.parked, hparked, Due.without, hne]
  · exact {
      others := by simp [Due.without, hearliest.others]
      deadline := hearliest.deadline
      le_target := hearliest.le_target
      lt_before := fun z hz => hearliest.lt_before z (List.mem_filter.1 hz).1
      le_after := fun z hz => hearliest.le_after z (List.mem_filter.1 hz).1 }

/-- If `t` itself is due then the others stay parked. -/
theorem Without.awake_self (h : b.Without t a) (hp : popDue target a.parked = some p)
    (ht : p.sleeper.thread = t) : b.Without t (a.awake p) := by
  obtain ⟨before, after, hparked, hearliest⟩ := popDue_eq_some_iff.1 hp
  refine ⟨h.world, ?_, ?_⟩
  · simp [System.awake, h.parked, hparked, hearliest.others, ht]
  · simp [System.awake, h.runnable, Sleeper.wake, ht]

/-- If another thread is due then it wakes up without `t` as well. -/
theorem Without.awake (h : b.Without t a) (hne : p.sleeper.thread ≠ t) :
    (b.awake (p.without t)).Without t (a.awake p) where
  world := by
    have hworld := h.world
    simp only [System.awake, Due.without]
    rw [hworld]
  parked := rfl
  runnable := by simp [System.awake, Due.without, h.runnable, Sleeper.wake, hne]

end System

end ReentrantGate.Script
