/-
**Labels are only marks.**

No segment looks at a label.  So a script with other labels runs hand in hand with the script, and
its answers are the answers with the other labels.

Main definitions:

* `Script.relabelling` — other labels everywhere in a system, as a translation.

Main results:

* `Script.run_relabel` — **with other labels the answers are the same**, but for the labels.
-/

import ReentrantGate.Proofs.Script.Retelling

set_option relaxedAutoImplicit false
set_option autoImplicit false

namespace ReentrantGate.Script

variable (f : Nat → Nat)

/-- Other labels in a journal. -/
def relabelled : Retelling where
  label := f
  lines := List.map (Entry.relabel f)
  lines_append _ _ := by rw [List.map_append, List.map_singleton]

/-- **Other labels everywhere in a system.** -/
def relabelling : Translation := (relabelled f).translation

theorem respects_relabel (s : System) : (relabelling f).Respects s :=
  fun t task _ _ _ => attempt_retell (relabelled f) t task s.world

/-- Deadlines do not depend on labels. -/
theorem popDue_relabel (target : Nat) (zs : List Sleeper) :
    System.popDue target (zs.map (relabelling f).sleeper) =
      (System.popDue target zs).map (relabelling f).due := by
  induction zs with
  | nil => rfl
  | cons z zs ih =>
      have hwait : ((relabelling f).sleeper z).wait = z.wait := rfl
      rw [List.map_cons, System.popDue, System.popDue, ih, hwait]
      cases z.wait.deadline.filter (· ≤ target) with
      | none => cases System.popDue target zs <;> rfl
      | some d =>
          cases System.popDue target zs with
          | none => rfl
          | some p =>
              have hdeadline : ((relabelling f).due p).deadline = p.deadline := rfl
              simp only [Option.map_some, hdeadline]
              split <;> rfl

theorem advance_relabel (s : System) (target : Nat) :
    ((relabelling f).system s).advance target = (relabelling f).system (s.advance target) := by
  fun_induction System.advance s target with
  | case1 s hp =>
      have hnone : System.popDue target (s.parked.map (relabelling f).sleeper) = none := by
        rw [popDue_relabel, hp, Option.map_none]
      have hsame := Translation.advance_system_of_none hp hnone
      rwa [System.advance_of_none hp] at hsame
  | case2 s p hp ih =>
      have hsome : System.popDue target (s.parked.map (relabelling f).sleeper) =
          some ((relabelling f).due p) := by
        rw [popDue_relabel, hp, Option.map_some]
      rw [Translation.advance_system_of_some hsome (respects_relabel f _)
        fun u _ => respects_relabel f u, ih]

/-- **With other labels the answers are the same**, but for the labels. -/
theorem answers_relabel (s : System) (steps : List Step) :
    answers ((relabelling f).system s) (steps.map (Step.relabel f)) =
      (answers s steps).map (Answer.relabel f) := by
  induction steps generalizing s with
  | nil => rfl
  | cons step steps ih =>
      have hstep : step.relabel f = (relabelling f).step step := by cases step <;> rfl
      have htake := @Translation.take_system (relabelling f) s step (fun _ => rfl)
        (fun _ _ => advance_relabel f _ _) fun _ _ _ u _ => respects_relabel f u
      simp only [List.map_cons, answers, hstep, htake, ih, Translation.observe_system]
      rfl

/-- **With other labels a script runs the same**, and its answers have the other labels. -/
theorem run_relabel (gates events : Nat) (silent : Bool) (steps : List Step) :
    run gates events silent (steps.map (Step.relabel f)) =
      (run gates events silent steps).map (Answer.relabel f) :=
  answers_relabel f (System.fresh gates events silent) steps

end ReentrantGate.Script
