/-
**No wakeup is lost.**

A parked thread sleeps until somebody wakes it, so it must never be left parked when what it waits
for comes true.  In every crowd that can come about the threads in `opened` are parked behind
another thread's close, and the closer in `drained` behind an entry of another thread; whoever takes
the close or the entry away wakes them in the same segment.

Main results:

* `Gate.Crowd.Orderly.exists_closer`, `Gate.Crowd.Orderly.foreign_pos` — what a parked thread waits
  for to go is there;
* `Gate.Crowd.Orderly.length_draining_le_one` — one closer drains at a time;
* `Gate.Crowd.Orderly.mem_woken` — a parked thread for which the condition comes true is woken;
* `Gate.Crowd.no_lost_wakeup` — **no wakeup is lost**.
-/

import ReentrantGate.Proofs.Gate.Orderly

set_option relaxedAutoImplicit false
set_option autoImplicit false

namespace ReentrantGate.Gate

/-! ### The conditions of the two rooms -/

theorem Waiting.ready_opened {w : Waiting} (h : w.room = .opened) (g : Gate) :
    w.ready g = true ↔ g.closer = none := by
  cases w with
  | entry timeout deadline => exact Option.isNone_iff_eq_none
  | exclusivity deadline => exact Option.isNone_iff_eq_none
  | drain deadline => cases h

theorem Waiting.ready_drained {w : Waiting} (h : w.room = .drained) (g : Gate) :
    w.ready g = true ↔ g.foreign = 0 := by
  cases w with
  | entry timeout deadline => cases h
  | exclusivity deadline => cases h
  | drain deadline => exact decide_eq_true_iff

/-- A thread in `opened` has not claimed the gate. -/
theorem Waiting.Fits.closer_ne {w : Waiting} {g : Gate} {t : ThreadId} (hf : w.Fits g t)
    (h : w.room = .opened) : g.closer ≠ some t := by
  cases w with
  | entry timeout deadline => exact hf.2
  | exclusivity deadline => exact hf
  | drain deadline => cases h

namespace Crowd

variable {c c' : Crowd} {a : Action} {o : Option Occurrence} {v : Visitor}

/-! ### What parked threads see -/

/-- A thread in `opened` is parked behind the close of another thread. -/
theorem Orderly.exists_closer (h : c.Orderly) (hv : v ∈ c.parked)
    (hr : v.waiting.room = .opened) : ∃ u, u ≠ v.thread ∧ c.gate.closer = some u := by
  have hready := h.parked v hv
  rw [Bool.eq_false_iff, ne_eq, Waiting.ready_opened hr] at hready
  obtain ⟨u, hu⟩ := Option.ne_none_iff_exists'.1 hready
  refine ⟨u, ?_, hu⟩
  rintro rfl
  exact (h.fits v (List.mem_append_left _ hv)).closer_ne hr hu

/-- A thread in `drained` is parked behind an entry of another thread. -/
theorem Orderly.foreign_pos (h : c.Orderly) (hv : v ∈ c.parked)
    (hr : v.waiting.room = .drained) : 0 < c.gate.foreign := by
  have hready := h.parked v hv
  rw [Bool.eq_false_iff, ne_eq, Waiting.ready_drained hr] at hready
  exact Nat.pos_of_ne_zero hready

/-- **At most one thread drains.** -/
theorem Orderly.length_draining_le_one (h : c.Orderly) :
    (c.visitors.filter (·.waiting.draining)).length ≤ 1 := by
  have hcloser : ∀ v ∈ c.visitors.filter (·.waiting.draining), c.gate.closer = some v.thread := by
    intro v hv
    obtain ⟨hv, hd⟩ := List.mem_filter.1 hv
    exact (h.closer_of_drains (drains_iff.2 ⟨v, hv, rfl, hd⟩)).1
  -- they are all the closer, and no thread is there twice
  have hnodup : ((c.visitors.filter (·.waiting.draining)).map (·.thread)).Nodup :=
    h.nodup.sublist (List.filter_sublist.map _)
  cases hc : c.gate.closer with
  | none =>
      have hnil : c.visitors.filter (·.waiting.draining) = [] := by
        refine List.eq_nil_iff_forall_not_mem.2 fun v hv => ?_
        have hv := hcloser v hv
        rw [hc] at hv
        cases hv
      rw [hnil]
      exact Nat.zero_le 1
  | some t =>
      have hrep := List.eq_replicate_of_mem (a := t) fun u hu => by
        obtain ⟨v, hv, rfl⟩ := List.mem_map.1 hu
        exact (Option.some.inj (hc.symm.trans (hcloser v hv))).symm
      rw [hrep, List.nodup_replicate, List.length_map] at hnodup
      exact hnodup

/-! ### Who is woken -/

/-- A parked thread does not go away. -/
theorem Step.mem_visitors (hs : Step c a c' o) (hv : v ∈ c.parked) : v ∈ c'.visitors := by
  cases hs with
  | segment sinkFails _ hl m =>
      rw [← hl.parked] at hv
      exact mem_visitors_absorb.2 (.inr (List.mem_append_left _ hv))
  | still _ _ hperm _ => exact hperm.mem_iff.2 (List.mem_append_left _ hv)

/-- **A parked thread for which the condition comes true is woken.** -/
theorem Orderly.mem_woken (h : c.Orderly) (ha : c.act a = some (c', o)) (hv : v ∈ c.parked)
    (hr : v.waiting.ready c'.gate = true) : v ∈ c'.woken := by
  have hs := act_step h ha
  -- it is still there, and it cannot be parked since its condition holds
  rcases List.mem_append.1 (hs.mem_visitors hv) with hp | hw
  · have hnot := (hs.orderly h).parked v hp
    rw [hr] at hnot
    cases hnot
  · exact hw

/-- **No wakeup is lost.**  In every crowd that can come about a thread parked in `opened` sees
another thread as closer; at most one thread drains, it is the closer with a close of depth one, and
while it is parked there are foreign entries; so nobody is parked while the condition it waits for
is true.  Whatever happens next, once the closer is gone everybody who was parked in `opened` has
been woken, and once the foreign entries are gone the closer in `drained` has. -/
theorem no_lost_wakeup (h : c.Reachable) :
    (∀ v ∈ c.parked, v.waiting.room = .opened → ∃ u, u ≠ v.thread ∧ c.gate.closer = some u) ∧
      (c.visitors.filter (·.waiting.draining)).length ≤ 1 ∧
      (∀ v ∈ c.visitors, v.waiting.room = .drained →
        c.gate.closer = some v.thread ∧ c.gate.closed = 1) ∧
      (∀ v ∈ c.parked, v.waiting.room = .drained → 0 < c.gate.foreign) ∧
      (∀ v ∈ c.parked, v.waiting.ready c.gate = false) ∧
      ∀ a c' o, c.act a = some (c', o) → ∀ v ∈ c.parked,
        (v.waiting.room = .opened → c'.gate.closer = none → v ∈ c'.woken) ∧
          (v.waiting.room = .drained → c'.gate.foreign = 0 → v ∈ c'.woken) := by
  have ho := h.orderly
  refine ⟨fun v hv hr => ho.exists_closer hv hr, ho.length_draining_le_one, ?_,
    fun v hv hr => ho.foreign_pos hv hr, ho.parked, ?_⟩
  · intro v hv hr
    have hd : v.waiting.draining = true := decide_eq_true hr
    exact ho.closer_of_drains (drains_iff.2 ⟨v, hv, rfl, hd⟩)
  · intro a c' o ha v hv
    refine ⟨fun hr hc => ?_, fun hr hf => ?_⟩
    · exact ho.mem_woken ha hv ((Waiting.ready_opened hr _).2 hc)
    · exact ho.mem_woken ha hv ((Waiting.ready_drained hr _).2 hf)

/-- One thread is inside, one drains, one wants to close and one to enter, all of them parked; the
last foreign entry leaves and the closer is woken. -/
theorem no_lost_wakeup_of_last_exit :
    let closer : Visitor := ⟨⟨"b"⟩, .drain (some 3000002)⟩
    let c : Crowd :=
      ⟨⟨1, 1, some ⟨"b"⟩, [(⟨"a"⟩, 1)]⟩,
        [closer, ⟨⟨"c"⟩, .exclusivity none⟩, ⟨⟨"d"⟩, .entry .infinite none⟩], [], 2⟩
    let c' : Crowd :=
      ⟨⟨0, 1, some ⟨"b"⟩, []⟩,
        [⟨⟨"c"⟩, .exclusivity none⟩, ⟨⟨"d"⟩, .entry .infinite none⟩], [closer], 2⟩
    c.Reachable ∧
      c.act (.call ⟨"a"⟩ .exit false) =
        some (c', some ⟨⟨"a"⟩, .entry, .released, none, false⟩) ∧
      closer ∈ c'.woken := by
  intro closer c c'
  have hreach : c.Reachable :=
    ⟨[.call ⟨"a"⟩ (.enter .infinite) false, .tick 2, .call ⟨"b"⟩ (.close (.millis 3)) false,
      .call ⟨"c"⟩ (.close .infinite) false, .call ⟨"d"⟩ (.enter .infinite) false], _, rfl⟩
  have hact : c.act (.call ⟨"a"⟩ .exit false) =
      some (c', some ⟨⟨"a"⟩, .entry, .released, none, false⟩) := rfl
  obtain ⟨-, -, -, -, -, hwoken⟩ := no_lost_wakeup hreach
  exact ⟨hreach, hact, (hwoken _ _ _ hact closer (by decide)).2 rfl rfl⟩

end Crowd

end ReentrantGate.Gate
