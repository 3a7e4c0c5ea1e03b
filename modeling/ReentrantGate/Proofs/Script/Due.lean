/-
**Whose turn it is when the clock moves.**

Of the sleepers whose deadlines have come the clock wakes the one with the earliest, and among equal
deadlines the one that has been parked longest.  So everybody parked before it has a later deadline,
and nobody parked after it has an earlier one; this says completely which sleeper it is.

Main definitions:

* `Script.System.Due.Earliest` — the sleeper that is due first, among the others.

Main results:

* `Script.System.popDue_eq_some_iff`, `Script.System.popDue_eq_none_iff` — **who is woken by the
  clock**.
-/

import ReentrantGate.Script.System

set_option relaxedAutoImplicit false
set_option autoImplicit false

namespace ReentrantGate.Script

/-- The sleeper of `p` stands between `before` and `after`, which are the others, and its deadline
is the first of those up to `target`. -/
structure System.Due.Earliest (target : Nat) (before after : List Sleeper) (p : System.Due) :
    Prop where
  others : p.others = before ++ after
  deadline : p.sleeper.wait.deadline = some p.deadline
  le_target : p.deadline ≤ target
  lt_before : ∀ z ∈ before, ∀ d, z.wait.deadline = some d → p.deadline < d
  le_after : ∀ z ∈ after, ∀ d, z.wait.deadline = some d → p.deadline ≤ d

namespace System

open Due (Earliest)

variable {target : Nat} {zs before after : List Sleeper} {p : Due} {z : Sleeper}

/-! ### Who is woken by the clock -/

theorem filter_deadline_eq_none :
    z.wait.deadline.filter (· ≤ target) = none ↔ ∀ d, z.wait.deadline = some d → target < d := by
  cases hz : z.wait.deadline with
  | none => simp
  | some d => simp [Option.filter_eq_none_iff]

theorem filter_deadline_eq_some {d : Nat} :
    z.wait.deadline.filter (· ≤ target) = some d ↔ z.wait.deadline = some d ∧ d ≤ target := by
  rw [Option.filter_eq_some_iff, decide_eq_true_eq]

/-- Nobody is woken by the clock if no deadline has come. -/
theorem popDue_eq_none_iff :
    popDue target zs = none ↔ ∀ z ∈ zs, ∀ d, z.wait.deadline = some d → target < d := by
  induction zs with
  | nil => simp [popDue]
  | cons z zs ih =>
      rw [List.forall_mem_cons, ← ih, ← filter_deadline_eq_none]
      simp only [popDue]
      split
      · rename_i hz hzs
        exact ⟨fun _ => ⟨hz, hzs⟩, fun _ => rfl⟩
      · rename_i hz _
        simp [hz]
      · rename_i hzs
        simp [hzs]
      · rename_i hz _
        split <;> simp [hz]

/-- A sleeper that is due later, or not at all, may stand before the earliest. -/
theorem earliest_cons (h : p.Earliest target before after)
    (hz : ∀ d, z.wait.deadline = some d → p.deadline < d) :
    Earliest target (z :: before) after { p with others := z :: p.others } where
  others := by simp [h.others]
  deadline := h.deadline
  le_target := h.le_target
  lt_before := List.forall_mem_cons.2 ⟨hz, h.lt_before⟩
  le_after := h.le_after

/-- Nobody is due before the earliest. -/
theorem le_of_earliest (h : p.Earliest target before after) {y : Sleeper}
    (hy : y ∈ before ++ p.sleeper :: after) {d : Nat} (hd : y.wait.deadline = some d) :
    p.deadline ≤ d := by
  rcases List.mem_append.1 hy with hy | hy
  · exact Nat.le_of_lt (h.lt_before y hy d hd)
  · rcases List.mem_cons.1 hy with rfl | hy
    · exact Nat.le_of_eq (Option.some.inj (h.deadline.symm.trans hd))
    · exact h.le_after y hy d hd

/-- The sleeper that is woken is the earliest. -/
theorem earliest_of_popDue (h : popDue target zs = some p) :
    ∃ before after, zs = before ++ p.sleeper :: after ∧ p.Earliest target before after := by
  induction zs generalizing p with
  | nil => simp [popDue] at h
  | cons z zs ih =>
      simp only [popDue] at h
      split at h
      · cases h
      · -- only the first one is due
        rename_i d hz hzs
        cases h
        obtain ⟨hd, hle⟩ := filter_deadline_eq_some.1 hz
        refine ⟨[], zs, rfl, rfl, hd, hle, by simp, fun y hy e he => ?_⟩
        exact Nat.le_trans hle (Nat.le_of_lt (popDue_eq_none_iff.1 hzs y hy e he))
      · -- the first one is not due
        rename_i q hz hq
        cases h
        obtain ⟨before, after, rfl, hp⟩ := ih hq
        exact ⟨z :: before, after, rfl, earliest_cons hp fun e he =>
          Nat.lt_of_le_of_lt hp.le_target (filter_deadline_eq_none.1 hz e he)⟩
      · rename_i d q hz hq
        obtain ⟨hd, hle⟩ := filter_deadline_eq_some.1 hz
        obtain ⟨before, after, rfl, hp⟩ := ih hq
        split at h
        · -- the first one comes before all that are due later or at the same time
          rename_i hdq
          cases h
          exact ⟨[], _, rfl, rfl, hd, hle, by simp, fun y hy e he =>
            Nat.le_trans hdq (le_of_earliest hp hy he)⟩
        · -- the first one is due later
          rename_i hdq
          cases h
          refine ⟨z :: before, after, rfl, earliest_cons hp fun e he => ?_⟩
          rw [hd] at he
          cases he
          exact Nat.lt_of_not_le hdq

/-- The earliest sleeper is the one that is woken. -/
theorem popDue_of_earliest (h : p.Earliest target before after) :
    popDue target (before ++ p.sleeper :: after) = some p := by
  obtain ⟨z, d, others⟩ := p
  obtain ⟨rfl, hd, hle, hbefore, hafter⟩ := h
  dsimp only at hd hle hbefore hafter ⊢
  induction before with
  | nil =>
      have hz := filter_deadline_eq_some.2 ⟨hd, hle⟩
      cases hq : popDue target after with
      | none => simp only [List.nil_append, popDue, hz, hq]
      | some q =>
          obtain ⟨as, bs, rfl, hq'⟩ := earliest_of_popDue hq
          have hdq := hafter q.sleeper (by simp) q.deadline hq'.deadline
          simp only [List.nil_append, popDue, hz, hq, if_pos hdq]
  | cons a before ih =>
      have htail := ih fun y hy => hbefore y (List.mem_cons_of_mem _ hy)
      simp only [List.cons_append, popDue, htail]
      split
      · rename_i hnone
        cases hnone
      · rename_i hnone
        cases hnone
      · rename_i q _ hq
        cases hq
        rfl
      · rename_i e q he hq
        cases hq
        have hlt := hbefore a List.mem_cons_self e (filter_deadline_eq_some.1 he).1
        rw [if_neg (Nat.not_le.2 hlt)]

/-- **The sleeper woken by the clock is the earliest**, and that says which one it is. -/
theorem popDue_eq_some_iff : popDue target zs = some p ↔
    ∃ before after, zs = before ++ p.sleeper :: after ∧ p.Earliest target before after := by
  constructor
  · exact earliest_of_popDue
  · rintro ⟨before, after, rfl, h⟩
    exact popDue_of_earliest h

end System

end ReentrantGate.Script
