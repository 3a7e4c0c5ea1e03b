/-
**Entry depths.**

A gate remembers for each thread inside how many entries it holds.  Only threads inside are listed,
so the length of the list is the number of holders.

Main definitions:

* `ReentrantGate.Depths` — threads with their depths, and the view `Depths.of`;
* `Depths.raise`, `Depths.lower` — one entry more or less for a thread;
* `Depths.total` — all entries together;
* `Depths.WellFormed` — no thread is listed twice or with depth zero.

Main results:

* `Depths.of_raise`, `Depths.of_lower` — what the two operations do to the view;
* `Depths.total_raise`, `Depths.total_lower` — and to the total;
* `Depths.WellFormed.raise`, `Depths.WellFormed.lower` — both keep the list well formed.
-/

import ReentrantGate.Thread

set_option relaxedAutoImplicit false
set_option autoImplicit false

namespace ReentrantGate

/-- The threads inside a gate with the number of entries of each. -/
abbrev Depths := List (ThreadId × Nat)

namespace Depths

/-- The depth of a thread, zero if it is not inside. -/
def of (t : ThreadId) : Depths → Nat
  | [] => 0
  | (u, n) :: ds => if u = t then n else of t ds

/-- One more entry for `t`. -/
def raise (t : ThreadId) : Depths → Depths
  | [] => [(t, 1)]
  | (u, n) :: ds => if u = t then (u, n + 1) :: ds else (u, n) :: raise t ds

/-- One entry less for `t`, which leaves the list with its last one. -/
def lower (t : ThreadId) : Depths → Depths
  | [] => []
  | (u, n) :: ds =>
      if u = t then if n ≤ 1 then ds else (u, n - 1) :: ds
      else (u, n) :: lower t ds

/-- The entries of all threads together. -/
def total : Depths → Nat
  | [] => 0
  | (_, n) :: ds => n + total ds

/-- No thread is listed twice and every listed depth is positive. -/
def WellFormed : Depths → Prop
  | [] => True
  | (u, n) :: ds => 0 < n ∧ of u ds = 0 ∧ WellFormed ds

/-! ### The view after an operation -/

theorem of_raise (t u : ThreadId) (ds : Depths) :
    of u (raise t ds) = if t = u then of u ds + 1 else of u ds := by
  induction ds with
  | nil => by_cases h : t = u <;> simp [raise, of, h]
  | cons d ds ih =>
      by_cases h : d.1 = t
      · by_cases hu : t = u <;> simp_all [raise, of]
      · by_cases hu : d.1 = u
        · by_cases htu : t = u <;> simp_all [raise, of]
        · simp_all [raise, of]

theorem of_lower (t u : ThreadId) {ds : Depths} (h : WellFormed ds) :
    of u (lower t ds) = if t = u then of u ds - 1 else of u ds := by
  induction ds with
  | nil => simp [lower, of]
  | cons d ds ih =>
      obtain ⟨v, n⟩ := d
      obtain ⟨hn, hv, hds⟩ := h
      by_cases hvt : v = t
      · subst hvt
        by_cases h1 : n ≤ 1
        · by_cases hu : v = u
          · subst hu
            simp [lower, of, h1, hv]
          · simp [lower, of, h1, hu]
        · by_cases hu : v = u <;> simp [lower, of, h1, hu]
      · by_cases hu : v = u
        · subst hu
          simp [lower, of, hvt, Ne.symm hvt]
        · simp [lower, of, hvt, hu, ih hds]

/-! ### Totals -/

theorem total_raise (t : ThreadId) (ds : Depths) : total (raise t ds) = total ds + 1 := by
  induction ds with
  | nil => rfl
  | cons d ds ih =>
      by_cases h : d.1 = t
      · simp [raise, total, h]
        omega
      · simp [raise, total, h, ih]
        omega

theorem of_le_total (t : ThreadId) (ds : Depths) : of t ds ≤ total ds := by
  induction ds with
  | nil => simp [of]
  | cons d ds ih =>
      by_cases h : d.1 = t <;> simp [of, total, h]
      omega

theorem total_lower (t : ThreadId) {ds : Depths} (h : 0 < of t ds) :
    total (lower t ds) = total ds - 1 := by
  induction ds with
  | nil => simp [of] at h
  | cons d ds ih =>
      obtain ⟨v, n⟩ := d
      by_cases hv : v = t
      · by_cases h1 : n ≤ 1
        · simp only [of, hv, if_true] at h
          simp [lower, total, hv, h1]
          omega
        · simp [lower, total, hv, h1]
          omega
      · simp only [of, hv, if_false] at h
        have := of_le_total t ds
        simp [lower, total, hv, ih h]
        omega

/-! ### Well-formed lists -/

theorem WellFormed.raise {ds : Depths} (t : ThreadId) (h : WellFormed ds) :
    WellFormed (raise t ds) := by
  induction ds with
  | nil => simp [Depths.raise, WellFormed, of]
  | cons d ds ih =>
      obtain ⟨v, n⟩ := d
      obtain ⟨hn, hv, hds⟩ := h
      by_cases hvt : v = t
      · subst hvt
        simp [Depths.raise, WellFormed, hds, hv]
      · simp only [Depths.raise, hvt, if_false]
        exact ⟨hn, by simp [of_raise, Ne.symm hvt, hv], ih hds⟩

theorem WellFormed.lower {ds : Depths} (t : ThreadId) (h : WellFormed ds) :
    WellFormed (lower t ds) := by
  induction ds with
  | nil => exact h
  | cons d ds ih =>
      obtain ⟨v, n⟩ := d
      obtain ⟨hn, hv, hds⟩ := h
      by_cases hvt : v = t
      · by_cases h1 : n ≤ 1
        · simpa [Depths.lower, hvt, h1] using hds
        · simp only [Depths.lower, hvt, h1, if_true, if_false]
          exact ⟨by omega, hvt ▸ hv, hds⟩
      · simp only [Depths.lower, hvt, if_false]
        exact ⟨hn, by simp [of_lower t v hds, Ne.symm hvt, hv], ih hds⟩

end Depths

end ReentrantGate
