/-
**A claim is not outrun.**

Once a thread has claimed the gate, time is on its side.  Fresh entries of others have to wait, so
among the threads inside there is no new one until the closer is gone: those who are inside may nest
and leave, and whoever has left stays outside.  It makes no difference who gets the lock when, nor
who had been parked or woken before the claim.

So a draining closer that has been notified finds the gate empty of others when it runs, however
late that is, and its close succeeds even past its deadline.

Main definitions:

* `Gate.Crowd.others` — the threads inside other than the closer;
* `Gate.Crowd.ClaimedAlong` — a run during which there is a closer at every moment.

Main results:

* `Gate.Crowd.Step.claim` — a thread that claims the gate changes nobody's entries;
* `Gate.Crowd.Step.others_subset`, `Gate.Crowd.others_subset_of_run` — **nobody gets in behind a
  claim**, in one step and in a run;
* `Gate.Crowd.Orderly.drained_of_notified` — who notifies a draining closer leaves nobody inside;
* `Gate.Crowd.claim_is_not_outrun` — **a claim is not outrun**.
-/

import ReentrantGate.Proofs.Gate.Turn
import ReentrantGate.Proofs.Gate.Wakeups

set_option relaxedAutoImplicit false
set_option autoImplicit false

namespace ReentrantGate.Gate

/-- The close does not go from one thread to another in one segment. -/
theorem Move.closer_eq {g : Gate} {t u : ThreadId} {d : Bool} {hold : Hold} {s : Segment}
    (m : Move t g d hold s) (hc : g.closer = some u) (hs : s.gate.closer ≠ none) :
    s.gate.closer = some u := by
  by_cases hu : u = t
  · obtain ⟨x, hx⟩ := Option.ne_none_iff_exists'.1 hs
    by_cases hxt : x = t
    · rw [hx, hxt, hu]
    · rw [hx, ← hc, (m.closer_iff_of_ne hxt).1 hx]
  · exact (m.closer_iff_of_ne hu).2 hc

namespace Crowd

/-- The threads inside other than `t`. -/
def others (c : Crowd) (t : ThreadId) : Set ThreadId := {u | u ≠ t ∧ 0 < c.gate.depth u}

/-- There is a closer at every moment of a run that starts at `c`. -/
def ClaimedAlong (c : Crowd) (as : List Action) : Prop :=
  ∀ bs d history, bs <+: as → c.run bs = some (d, history) → d.gate.closer ≠ none

variable {c c' d : Crowd} {a : Action} {as : List Action} {history : List Occurrence}
  {o : Option Occurrence} {t u : ThreadId} {v : Visitor}

/-! ### Claims -/

/-- **A thread that claims the gate changes nobody's entries.** -/
theorem Step.claim (hs : Step c a c' o) (hfree : c.gate.closer ≠ some t)
    (hc : c'.gate.closer = some t) (u : ThreadId) : c'.gate.depth u = c.gate.depth u := by
  cases hs with
  | @segment w d hold s rest sinkFails _ hl m =>
      rw [gate_absorb] at hc ⊢
      by_cases ht : t = w
      · subst ht
        cases m with
        | enter _ => exact absurd hc hfree
        | exit _ _ => exact absurd hc hfree
        | lastExit _ _ _ _ => exact absurd hc hfree
        | _ => rfl
      · exact absurd ((m.closer_iff_of_ne ht).1 hc) hfree
  | still _ hg _ _ => rw [hg]

/-- **Nobody gets in behind a claim**, and the closer stays as long as there is one. -/
theorem Step.others_subset (hs : Step c a c' o) (h : c.Orderly) (hc : c.gate.closer = some t)
    (hc' : c'.gate.closer ≠ none) :
    c'.gate.closer = some t ∧ c'.others t ⊆ c.others t := by
  cases hs with
  | @segment w d hold s rest sinkFails _ hl m =>
      rw [gate_absorb] at hc'
      refine ⟨by rw [gate_absorb, m.closer_eq hc hc'], ?_⟩
      rintro u ⟨hut, hu⟩
      rw [gate_absorb] at hu
      refine ⟨hut, ?_⟩
      by_cases huw : u = w
      · -- a thread that is outside cannot get in while another one is the closer
        subst huw
        refine Nat.pos_of_ne_zero fun hout => ?_
        rw [(m.of_outside hc hut.symm hout).1, hout] at hu
        exact absurd hu (Nat.lt_irrefl 0)
      · rwa [m.depth_of_ne h.sound huw] at hu
  | still _ hg _ _ =>
      refine ⟨by rw [hg, hc], ?_⟩
      rw [others, others, hg]

/-- A run with a closer at every moment has one after its first action, and at every moment then. -/
theorem ClaimedAlong.tail (h : ClaimedAlong c (a :: as)) (ha : c.act a = some (c', o)) :
    c'.gate.closer ≠ none ∧ ClaimedAlong c' as := by
  constructor
  · exact h [a] c' o.toList ⟨as, rfl⟩ (by simp [run, ha])
  · intro bs d later hbs hd
    exact h (a :: bs) d (o.toList ++ later) (List.cons_prefix_cons.2 ⟨rfl, hbs⟩)
      (by simp [run, ha, hd])

/-- **Nobody gets in behind a claim during a run**, until the closer is gone. -/
theorem others_subset_of_run (h : c.Orderly) (hc : c.gate.closer = some t)
    (hr : c.run as = some (d, history)) (hclaimed : ClaimedAlong c as) :
    d.gate.closer = some t ∧ d.others t ⊆ c.others t := by
  induction as generalizing c history with
  | nil =>
      cases hr
      exact ⟨hc, Set.Subset.refl _⟩
  | cons a as ih =>
      obtain ⟨c', o, later, ha, hlater, -⟩ := run_cons_eq_some hr
      obtain ⟨hne, htail⟩ := hclaimed.tail ha
      have hs := act_step h ha
      obtain ⟨hc', hsub⟩ := hs.others_subset h hc hne
      obtain ⟨hd, hsub'⟩ := ih (hs.orderly h) hc' hlater htail
      exact ⟨hd, hsub'.trans hsub⟩

/-! ### Notified closers -/

/-- A segment that wakes the draining closer leaves no foreign entry. -/
theorem foreign_of_woken {g : Gate} {hold : Hold} {s : Segment} {b : Bool} (m : Move t g b hold s)
    (hs : s.woken = some .drained) : s.gate.foreign = 0 := by
  cases m with
  | lastExit _ _ _ hf => exact hf
  | _ => simp [Segment.woken] at hs

/-- **Who notifies a draining closer leaves nobody else inside.** -/
theorem Orderly.drained_of_notified (h : c.Orderly) (hv : v ∈ c.parked)
    (hd : v.waiting.draining = true) (ha : c.act a = some (c', o)) (hrouse : a ≠ .rouse v.thread)
    (hv' : v ∉ c'.parked) : c'.gate.foreign = 0 := by
  have hs := act_step h ha
  cases hs with
  | @segment w d hold s rest sinkFails _ hl m =>
      rw [gate_absorb]
      rw [mem_parked_absorb, not_or, not_and_not_right] at hv'
      have hroom : v.waiting.room = .drained := of_decide_eq_true hd
      exact foreign_of_woken m ((hv'.2 (hl.parked ▸ hv)).trans (congrArg some hroom))
  | still hactor _ _ _ =>
      -- somebody else wakes up or time passes, and `v` is still parked
      refine absurd ?_ hv'
      cases a with
      | call u r sinkFails => cases hactor
      | resume u sinkFails => cases hactor
      | tick ns =>
          cases ha
          exact hv
      | rouse u =>
          simp only [act] at ha
          split at ha
          · cases ha
          · cases ha
            refine (List.mem_eraseP_of_neg ?_).2 hv
            simpa using fun hu : v.thread = u => hrouse (hu ▸ rfl)

/-- **A close that has drained stays drained** until its thread runs: whatever the other threads do,
the thread is still there, it is the closer, and nobody else is inside. -/
theorem Orderly.drained_of_run (h : c.Orderly) (hv : v ∈ c.visitors)
    (hd : v.waiting.draining = true) (hf : c.gate.foreign = 0)
    (hr : c.run as = some (d, history)) (hothers : ∀ b ∈ as, b.actor ≠ some v.thread) :
    d.Orderly ∧ v ∈ d.visitors ∧ d.gate.foreign = 0 := by
  induction as generalizing c history with
  | nil =>
      cases hr
      exact ⟨h, hv, hf⟩
  | cons a as ih =>
      obtain ⟨c', o, later, ha, hlater, -⟩ := run_cons_eq_some hr
      obtain ⟨hactor, hrest⟩ := List.forall_mem_cons.1 hothers
      have hs := act_step h ha
      have hc := (h.closer_of_drains (drains_iff.2 ⟨v, hv, rfl, hd⟩)).1
      refine ih (hs.orderly h) ?_ ?_ hlater hrest
      · exact ((hs.alike h hactor).mem_iff v rfl).2 hv
      · cases hs with
        | @segment w d hold s rest sinkFails hw hl m =>
            rw [gate_absorb]
            refine m.foreign_of_ne h.sound ?_ hc hf
            rintro rfl
            exact hactor hw
        | still _ hg _ _ => rw [hg, hf]

/-- A thread that has been woken is found among those who have. -/
theorem Orderly.find_woken (h : c.Orderly) (hw : v ∈ c.woken) :
    c.woken.find? (·.thread = v.thread) = some v := by
  have hfound : (c.woken.find? (·.thread = v.thread)).isSome = true := by
    rw [List.find?_isSome]
    exact ⟨v, hw, decide_eq_true rfl⟩
  obtain ⟨x, hx⟩ := Option.isSome_iff_exists.1 hfound
  obtain ⟨hxv, ht, -⟩ := Leaves.of_find h.nodup hx
  rw [hx, List.inj_on_of_nodup_map h.nodup hxv (List.mem_append_right _ hw) ht]

/-- **A draining thread that finds nobody else inside when it runs has closed the gate.** -/
theorem Orderly.resume_drained (h : c.Orderly) (hv : v ∈ c.visitors)
    (hd : v.waiting.draining = true) (hf : c.gate.foreign = 0) (sinkFails : Bool) :
    c.act (.resume v.thread sinkFails) = some (
      { c with woken := c.woken.eraseP (·.thread = v.thread) },
      some ⟨v.thread, .close, .granted, some (.closed (c.gate.depth v.thread)), sinkFails⟩) := by
  -- nobody is parked for what is the case, so `v` has been woken
  have hready : v.waiting.ready c.gate = true :=
    (Waiting.ready_drained (of_decide_eq_true hd) c.gate).2 hf
  have hw : v ∈ c.woken := by
    refine (List.mem_append.1 hv).resolve_left fun hp => ?_
    rw [h.parked v hp] at hready
    cases hready
  cases hwait : v.waiting with
  | entry timeout deadline => simp [hwait, Waiting.draining, Waiting.room] at hd
  | exclusivity deadline => simp [hwait, Waiting.draining, Waiting.room] at hd
  | drain deadline =>
      have hlook : look (c.gate.foreign = 0) deadline c.clock = .ready :=
        look_eq_ready.2 (decide_eq_true hf)
      have hsegment : Gate.resume v.thread c.clock (.drain deadline) c.gate =
          .done c.gate none (some (.closed (c.gate.depth v.thread))) .granted := by
        rw [Gate.resume, awaitDrain, hlook]
      simp only [act, h.find_woken hw, hwait, hsegment]
      simp [Crowd.absorb, occurrence?, Waiting.hold]

/-- **A claim is not outrun.**  In every crowd that can come about:

* a thread that claims the gate changes nobody's entries;
* while `t` is the closer, until there is none, no other thread gets inside that was outside, and
  once all others are outside they stay there;
* a draining closer that is woken by a notification closes the gate when it runs, whatever the other
  threads do before that and however late it is. -/
theorem claim_is_not_outrun (h : c.Reachable) :
    (∀ t a c' o, c.act a = some (c', o) → c.gate.closer ≠ some t → c'.gate.closer = some t →
      (∀ u, c'.gate.depth u = c.gate.depth u) ∧ c'.others t = c.others t) ∧
    (∀ t as d history, c.gate.closer = some t → c.run as = some (d, history) →
      ClaimedAlong c as → d.gate.closer = some t ∧ d.others t ⊆ c.others t ∧
        (c.others t = ∅ → d.others t = ∅)) ∧
    (∀ v ∈ c.parked, v.waiting.draining = true → ∀ a c' o, c.act a = some (c', o) →
      a ≠ .rouse v.thread → v ∉ c'.parked → ∀ as d history, c'.run as = some (d, history) →
      (∀ b ∈ as, b.actor ≠ some v.thread) → ∀ sinkFails,
      d.act (.resume v.thread sinkFails) = some (
        { d with woken := d.woken.eraseP (·.thread = v.thread) },
        some ⟨v.thread, .close, .granted, some (.closed (d.gate.depth v.thread)), sinkFails⟩)) := by
  have ho := h.orderly
  refine ⟨fun t a c' o ha hfree hc => ?_, fun t as d history hc hr hclaimed => ?_,
    fun v hv hd a c' o ha hrouse hv' as d history hr hothers sinkFails => ?_⟩
  · have hdepth := (act_step ho ha).claim hfree hc
    exact ⟨hdepth, by simp only [others, hdepth]⟩
  · obtain ⟨hd, hsub⟩ := others_subset_of_run ho hc hr hclaimed
    exact ⟨hd, hsub, fun hnone => Set.subset_eq_empty hsub hnone⟩
  · have hs := act_step ho ha
    have hf := ho.drained_of_notified hv hd ha hrouse hv'
    obtain ⟨hod, hvd, hfd⟩ :=
      (hs.orderly ho).drained_of_run (hs.mem_visitors hv) hd hf hr hothers
    exact hod.resume_drained hvd hd hfd sinkFails

/-- The last foreign entry leaves and wakes the closer.  Before the closer has the lock its deadline
goes by, and the thread that has left tries to enter again. -/
theorem claim_is_not_outrun_of_late_closer :
    let closer : Visitor := ⟨⟨"b"⟩, .drain (some 3000000)⟩
    let c : Crowd := ⟨⟨1, 1, some ⟨"b"⟩, [(⟨"a"⟩, 1)]⟩, [closer], [], 2999999⟩
    let c' : Crowd := ⟨⟨0, 1, some ⟨"b"⟩, []⟩, [], [closer], 2999999⟩
    let d : Crowd :=
      ⟨⟨0, 1, some ⟨"b"⟩, []⟩, [⟨⟨"a"⟩, .entry .infinite none⟩], [closer], 3000004⟩
    c.Reachable ∧
      c.act (.call ⟨"a"⟩ .exit false) =
        some (c', some ⟨⟨"a"⟩, .entry, .released, none, false⟩) ∧
      c'.run [.call ⟨"a"⟩ (.enter .infinite) false, .tick 5] = some (d, []) ∧
      d.act (.resume ⟨"b"⟩ true) = some ({ d with woken := [] },
        some ⟨⟨"b"⟩, .close, .granted, some (.closed 0), true⟩) := by
  intro closer c c' d
  have hreach : c.Reachable :=
    ⟨[.call ⟨"a"⟩ (.enter .infinite) false, .call ⟨"b"⟩ (.close (.millis 3)) false,
      .tick 2999999], _, rfl⟩
  have hact : c.act (.call ⟨"a"⟩ .exit false) =
      some (c', some ⟨⟨"a"⟩, .entry, .released, none, false⟩) := rfl
  have hrun : c'.run [.call ⟨"a"⟩ (.enter .infinite) false, .tick 5] = some (d, []) := rfl
  obtain ⟨-, -, hnotified⟩ := claim_is_not_outrun hreach
  exact ⟨hreach, hact, hrun, hnotified closer (by decide) rfl _ _ _ hact (by decide) (by decide)
    _ _ _ hrun (by decide) true⟩

end Crowd

end ReentrantGate.Gate
