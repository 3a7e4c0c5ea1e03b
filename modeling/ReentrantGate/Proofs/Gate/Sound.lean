/-
**Gates whose counters agree.**

The entries of a gate are counted twice, in one number for all threads and in one depth for each,
and its close shows twice, in a depth and in the thread that has it.  A gate is *sound* if the
counters agree, and every change that is ever made to a gate keeps it sound.  What matters most
about a sound gate is what it says about others: there are no foreign entries exactly if every
thread but the closer is outside.

Main definitions:

* `Gate.Sound` — the counters agree.

Main results:

* `Depths.total_eq_sum`, `Depths.length_eq_card` — totals and lengths as sums and counts over
  threads;
* `Gate.Sound.raise`, `Gate.Sound.lower`, `Gate.Sound.claim`, `Gate.Sound.unclaim`,
  `Gate.Sound.nest`, `Gate.Sound.unnest` — **every change keeps a gate sound**;
* `Gate.Sound.foreign_eq_zero_iff` — the foreign entries are those of the other threads;
* `Gate.Sound.eq_fresh` — a sound gate with no closer and nobody inside is a fresh gate.
-/

import Mathlib.Algebra.BigOperators.Ring.Finset
import ReentrantGate.Gate.Basic

set_option relaxedAutoImplicit false
set_option autoImplicit false

namespace ReentrantGate

/-! ### Depths of several threads -/

namespace Depths

/-- In a well-formed list the head says everything about its thread. -/
theorem of_cons_eq_add {t u : ThreadId} {n : Nat} {ds : Depths} (h : WellFormed ((u, n) :: ds)) :
    of t ((u, n) :: ds) = (if u = t then n else 0) + of t ds := by
  by_cases hut : u = t
  · subst hut
    simp [of, h.2.1]
  · simp [of, hut]

/-- The total counts every thread that has a depth. -/
theorem total_eq_sum {ds : Depths} (h : WellFormed ds) {s : Finset ThreadId}
    (hs : ∀ t, 0 < of t ds → t ∈ s) : total ds = ∑ t ∈ s, of t ds := by
  induction ds with
  | nil => simp [total, of]
  | cons d ds ih =>
      obtain ⟨u, n⟩ := d
      have hu : u ∈ s := hs u (by simpa [of] using h.1)
      have htail : total ds = ∑ t ∈ s, of t ds :=
        ih h.2.2 fun t ht => hs t (by rw [of_cons_eq_add h]; omega)
      -- the sum over the head's summand alone is `n`, as its thread is in `s`
      simp only [of_cons_eq_add h, Finset.sum_add_distrib, total, htail]
      simp [hu]

/-- The length counts the threads that are inside. -/
theorem length_eq_card {ds : Depths} (h : WellFormed ds) {s : Finset ThreadId}
    (hs : ∀ t, 0 < of t ds → t ∈ s) : ds.length = (s.filter fun t => 0 < of t ds).card := by
  rw [Finset.card_filter]
  induction ds with
  | nil => simp [of]
  | cons d ds ih =>
      obtain ⟨u, n⟩ := d
      have hu : u ∈ s := hs u (by simpa [of] using h.1)
      have htail : ds.length = ∑ t ∈ s, if 0 < of t ds then 1 else 0 :=
        ih h.2.2 fun t ht => hs t (by rw [of_cons_eq_add h]; omega)
      -- the thread of the head is not in the tail, so it is counted once
      have hsplit : ∀ t, (if 0 < of t ((u, n) :: ds) then 1 else 0) =
          (if u = t then 1 else 0) + if 0 < of t ds then 1 else 0 := by
        intro t
        rw [of_cons_eq_add h]
        by_cases hut : u = t
        · subst hut
          simp [h.1, h.2.1]
        · simp [hut]
      simp only [hsplit, Finset.sum_add_distrib, List.length_cons, htail]
      simp [hu, Nat.add_comm]

/-- Two threads together have at most the total. -/
theorem of_add_of_le_total {ds : Depths} (h : WellFormed ds) {t u : ThreadId} (htu : t ≠ u) :
    of t ds + of u ds ≤ total ds := by
  induction ds with
  | nil => simp [of]
  | cons d ds ih =>
      obtain ⟨v, n⟩ := d
      have htail := ih h.2.2
      rw [of_cons_eq_add h, of_cons_eq_add h, total]
      by_cases hv : v = t
      · subst hv
        simp only [if_true, htu, if_false]
        omega
      · simp only [hv, if_false]
        split <;> omega

/-- Nobody is inside only if the list is empty. -/
theorem eq_nil_of_of_eq_zero {ds : Depths} (h : WellFormed ds) (h0 : ∀ t, of t ds = 0) :
    ds = [] := by
  cases ds with
  | nil => rfl
  | cons d ds =>
      have hd := h0 d.1
      have hpos := h.1
      simp only [of, if_true] at hd
      omega

theorem pos_of_mem {ds : Depths} (h : WellFormed ds) {d : ThreadId × Nat} (hd : d ∈ ds) :
    0 < d.2 := by
  induction ds with
  | nil => simp at hd
  | cons e ds ih =>
      rcases List.mem_cons.1 hd with rfl | hd
      · exact h.1
      · exact ih h.2.2 hd

theorem total_eq_sum_map (ds : Depths) : total ds = (ds.map (·.2)).sum := by
  induction ds with
  | nil => rfl
  | cons d ds ih => simp [total, ih]

/-- Every thread inside counts at least once in the total. -/
theorem length_le_total {ds : Depths} (h : WellFormed ds) : ds.length ≤ total ds := by
  induction ds with
  | nil => simp [total]
  | cons d ds ih =>
      have htail := ih h.2.2
      have hpos := h.1
      simp only [List.length_cons, total]
      omega

end Depths

namespace Gate

/-! ### Sound gates -/

/-- A gate whose counters agree: the entries are those of the threads inside, no thread is listed
twice or without an entry, and there is a closer exactly if the depth of the close is positive. -/
structure Sound (g : Gate) : Prop where
  entered_eq : g.entered = g.depths.total
  wellFormed : g.depths.WellFormed
  closed_eq_zero_iff : g.closed = 0 ↔ g.closer = none

variable {g : Gate} {t u : ThreadId}

/-- The foreign entries are all but those of the closer. -/
theorem foreign_eq (ht : g.closer = some t) : g.foreign = g.entered - g.depth t := by
  simp [foreign, ht]

theorem sound_fresh : Sound {} := ⟨rfl, trivial, by simp⟩

namespace Sound

theorem raise (h : g.Sound) (t : ThreadId) : (g.raise t).Sound where
  entered_eq := by simp [Gate.raise, Depths.total_raise, h.entered_eq]
  wellFormed := h.wellFormed.raise t
  closed_eq_zero_iff := h.closed_eq_zero_iff

theorem lower (h : g.Sound) (ht : 0 < g.depth t) : (g.lower t).Sound where
  entered_eq := by simp [Gate.lower, Depths.total_lower t ht, h.entered_eq]
  wellFormed := h.wellFormed.lower t
  closed_eq_zero_iff := h.closed_eq_zero_iff

theorem claim (h : g.Sound) (t : ThreadId) : (g.claim t).Sound :=
  ⟨h.entered_eq, h.wellFormed, by simp [Gate.claim]⟩

theorem unclaim (h : g.Sound) : g.unclaim.Sound :=
  ⟨h.entered_eq, h.wellFormed, by simp [Gate.unclaim]⟩

theorem nest (h : g.Sound) (ht : g.closer = some t) : g.nest.Sound :=
  ⟨h.entered_eq, h.wellFormed, by simp [Gate.nest, ht]⟩

theorem unnest (h : g.Sound) (ht : g.closer = some t) (h1 : 1 < g.closed) : g.unnest.Sound :=
  ⟨h.entered_eq, h.wellFormed, by simp only [Gate.unnest, ht]; simp; omega⟩

/-! ### What a sound gate says about threads -/

theorem closed_pos (h : g.Sound) (ht : g.closer = some t) : 0 < g.closed := by
  have hz := h.closed_eq_zero_iff
  rw [ht] at hz
  simp only [reduceCtorEq, iff_false] at hz
  omega

/-- Being the closer is having claimed the gate. -/
theorem isCloser_iff (h : g.Sound) : g.isCloser t = true ↔ g.closer = some t := by
  simp only [isCloser, Bool.and_eq_true, decide_eq_true_eq, and_iff_right_iff_imp]
  exact h.closed_pos

/-- Whoever is the closer or inside may enter, and everybody if there is no closer. -/
theorem admits_iff (h : g.Sound) :
    g.admits t = true ↔ g.closer = none ∨ g.closer = some t ∨ 0 < g.depth t := by
  simp only [admits, Bool.or_eq_true, decide_eq_true_eq, Option.isNone_iff_eq_none,
    h.isCloser_iff]
  tauto

theorem depth_le_entered (h : g.Sound) (t : ThreadId) : g.depth t ≤ g.entered := by
  rw [h.entered_eq]
  exact Depths.of_le_total t g.depths

/-- **There are no foreign entries exactly if every other thread is outside.** -/
theorem foreign_eq_zero_iff (h : g.Sound) (ht : g.closer = some t) :
    g.foreign = 0 ↔ ∀ u, u ≠ t → g.depth u = 0 := by
  rw [foreign_eq ht]
  constructor
  · intro h0 u hu
    have hle := Depths.of_add_of_le_total h.wellFormed hu
    rw [← h.entered_eq] at hle
    simp only [depth] at h0 ⊢
    omega
  · intro h0
    -- only the closer has entries, so they are the whole total
    have hsum : g.depths.total = ∑ u ∈ {t}, g.depths.of u := by
      refine Depths.total_eq_sum h.wellFormed fun u hu => ?_
      by_contra hne
      have := h0 u (by simpa using hne)
      simp only [depth] at this
      omega
    rw [h.entered_eq, hsum]
    simp [depth]

/-- A sound gate with no closer and nobody inside is fresh. -/
theorem eq_fresh (h : g.Sound) (hc : g.closer = none) (h0 : ∀ t, g.depth t = 0) : g = {} := by
  have hd : g.depths = [] := Depths.eq_nil_of_of_eq_zero h.wellFormed h0
  have he : g.entered = 0 := by simp [h.entered_eq, hd, Depths.total]
  have hz : g.closed = 0 := h.closed_eq_zero_iff.2 hc
  cases g
  simp_all

end Sound

/-! ### Depths after a change -/

theorem depth_raise (g : Gate) (t u : ThreadId) :
    (g.raise t).depth u = if t = u then g.depth u + 1 else g.depth u :=
  Depths.of_raise t u g.depths

theorem Sound.depth_lower (h : g.Sound) (t u : ThreadId) :
    (g.lower t).depth u = if t = u then g.depth u - 1 else g.depth u :=
  Depths.of_lower t u h.wellFormed

end Gate

end ReentrantGate
