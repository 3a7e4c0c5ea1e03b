/-
**Every round is counted.**

A round of a worker ends in one of two counters: it was made, or the worker gave up.  So the
counters of a kind of workers and the rounds that these workers still owe add up to the rounds that
they had at the start.  A worker that ends alive owes nothing unless it was stopped, and one that
dies owes the round in which it did.

Main definitions:

* `Stress.Worker.owed`, `Stress.Tally.rounds` — the rounds that are still to come, and those
  counted;
* `Stress.Worker.Excused` — why a worker ended alive;
* `Stress.Arena.Accounted` — counted and owed rounds together are those of the start.

Main results:

* `Stress.Worker.Moves.rounds` — **a move counts each round that ends**;
* `Stress.Worker.Moves.excused` — nobody ends alive without a reason;
* `Stress.Arena.Reachable.accounted` — **every run accounts for every round**.
-/

import ReentrantGate.Proofs.Stress.Crew

set_option relaxedAutoImplicit false
set_option autoImplicit false

namespace ReentrantGate.Stress

/-! ### Rounds -/

/-- The round that a worker has begun and that is not counted yet. -/
def Stage.pending : Stage → Nat
  | .poll => 0
  | .opening dying => dying.toNat
  | .ending dying => dying.toNat
  | .finished died => died.toNat
  | _ => 1

/-- The rounds that a worker of a kind has still to bring to an end. -/
def Worker.owed (closer : Bool) (w : Worker) : Nat :=
  if w.closer = closer then w.rounds + w.stage.pending else 0

/-- The rounds that the workers of a kind have made or given up. -/
def Tally.rounds (t : Tally) (closer : Bool) : Nat :=
  if closer then t.closes + t.closeTimeouts else t.entries + t.enterTimeouts

namespace Worker

variable {p : Plan} {s s' : Shared} {w w' : Worker} {stage : Stage}

/-- A move that counts nothing owes what was owed. -/
theorem owed_of_same {closer : Bool} (hs : w.stage = stage) (hcl : w'.closer = w.closer)
    (htally : ∀ closer, s'.tally.rounds closer = s.tally.rounds closer)
    (howed : w'.rounds + w'.stage.pending = w.rounds + stage.pending) :
    s'.tally.rounds closer + w'.owed closer = s.tally.rounds closer + w.owed closer := by
  rw [htally, owed, owed, hcl, howed, hs]

/-- A move that counts a round of the worker's kind owes one less. -/
theorem owed_of_count {closer kind : Bool} (hs : w.stage = stage) (hpending : stage.pending = 1)
    (hcl : w.closer = kind) (hcl' : w'.closer = kind)
    (htally : ∀ closer, s'.tally.rounds closer =
      s.tally.rounds closer + if closer = kind then 1 else 0)
    (howed : w'.rounds + w'.stage.pending = w.rounds) :
    s'.tally.rounds closer + w'.owed closer = s.tally.rounds closer + w.owed closer := by
  rw [htally, owed, owed, hcl, hcl', howed, hs, hpending]
  by_cases h : closer = kind
  · simp only [h, if_true]
    omega
  · simp only [h, Ne.symm h, if_false, Nat.add_zero]

theorem rounds_check (s : Shared) (closer : Bool) :
    s.check.tally.rounds closer = s.tally.rounds closer := by
  unfold Shared.check
  split <;> rfl

/-- **A move counts each round that ends.** -/
theorem Moves.rounds (m : w.Moves p s s' w') (hserves : w.stage.serves w.closer = true)
    (closer : Bool) :
    s'.tally.rounds closer + w'.owed closer = s.tally.rounds closer + w.owed closer := by
  cases m with
  | still => rfl
  | park _ _ => rfl
  | crash hs _ hr _ => exact owed_of_same hs rfl (fun _ => rfl) hr.symm
  | startEntry hs _ hr _ => exact owed_of_same hs rfl (fun _ => rfl) hr.symm
  | startClose hs _ hr => exact owed_of_same hs rfl (fun _ => rfl) hr.symm
  | @entryTimedOut _ _ _ _ hs _ _ =>
      have hcl : w.closer = false := by simpa [hs, Stage.serves] using hserves
      refine owed_of_count hs rfl hcl hcl (fun closer => ?_) rfl
      cases closer <;> rfl
  | count hs =>
      have hcl : w.closer = false := by simpa [hs, Stage.serves] using hserves
      refine owed_of_count hs rfl hcl hcl (fun closer => ?_) rfl
      cases closer with
      | true => rfl
      | false =>
          simp only [Tally.rounds, Shared.countEntry, Bool.false_eq_true, if_false, if_true]
          omega
  | closeTimedOut hs _ _ =>
      have hcl : w.closer = true := Stage.closer_of_closing hserves hs
      refine owed_of_count hs rfl hcl hcl (fun closer => ?_) rfl
      cases closer <;> rfl
  | check hs =>
      exact owed_of_same hs rfl (rounds_check s) rfl
  | recheck hs =>
      have hcl : w.closer = true :=
        Stage.closer_of_closes hserves (by rw [hs]; exact Nat.one_pos)
      refine owed_of_count hs rfl hcl hcl (fun closer => ?_) rfl
      rw [← rounds_check s]
      cases closer with
      | false => rfl
      | true =>
          simp only [Tally.rounds, Shared.countClose, if_true]
          omega
  | @reopen dying _ _ hs _ =>
      cases dying with
      | true => exact owed_of_same hs rfl (fun _ => rfl) rfl
      | false => exact owed_of_same hs rfl (fun _ => rfl) rfl
  | retire hs _ => exact owed_of_same hs rfl (fun _ => rfl) rfl
  | entered hs _ => exact owed_of_same hs rfl (fun _ => rfl) rfl
  | entryOverflowed hs _ _ => exact owed_of_same hs rfl (fun _ => rfl) rfl
  | arrive hs => exact owed_of_same hs rfl (fun _ => rfl) rfl
  | nest hs _ => exact owed_of_same hs rfl (fun _ => rfl) rfl
  | overrun hs _ _ => exact owed_of_same hs rfl (fun _ => rfl) rfl
  | settle hs => exact owed_of_same hs rfl (fun _ => rfl) rfl
  | work hs => exact owed_of_same hs rfl (fun _ => rfl) rfl
  | collapse hs _ => exact owed_of_same hs rfl (fun _ => rfl) rfl
  | depart hs => exact owed_of_same hs rfl (fun _ => rfl) rfl
  | exit hs _ => exact owed_of_same hs rfl (fun _ => rfl) rfl
  | closed hs _ => exact owed_of_same hs rfl (fun _ => rfl) rfl
  | closeOverflowed hs _ _ => exact owed_of_same hs rfl (fun _ => rfl) rfl
  | hold hs => exact owed_of_same hs rfl (fun _ => rfl) rfl
  | faint hs _ => exact owed_of_same hs rfl (fun _ => rfl) rfl
  | leave hs => exact owed_of_same hs rfl (fun _ => rfl) rfl

end Worker

/-! ### Workers that end -/

/-- Whether a worker has come to its end alive. -/
def Stage.retired : Stage → Bool
  | ending dying => !dying
  | finished died => !died
  | _ => false

namespace Worker

/-- A worker that ends alive has a reason: it has made all its rounds, or was stopped. -/
def Excused (s : Shared) (w : Worker) : Prop :=
  w.stage.retired = true → w.rounds = 0 ∨ s.stop = true

variable {p : Plan} {s s' : Shared} {w w' : Worker}

/-- A reason stays one. -/
theorem Excused.mono (h : w.Excused s) (hstop : s.stop = true → s'.stop = true) : w.Excused s' :=
  fun hr => (h hr).imp_right hstop

/-- Whoever has not ended alive needs none. -/
theorem Excused.of_not_retired (h : w.stage.retired = false) : w.Excused s := by
  intro hr
  rw [h] at hr
  cases hr

theorem Moves.stop_eq (m : w.Moves p s s' w') : s'.stop = s.stop := by
  cases m with
  | check _ =>
      unfold Shared.check
      split <;> rfl
  | recheck _ =>
      unfold Shared.countClose Shared.check
      split <;> rfl
  | _ => rfl

/-- **Nobody ends alive without a reason.** -/
theorem Moves.excused (m : w.Moves p s s' w') (h : w.Excused s) : w'.Excused s' := by
  have hkeep : w.Excused s' := h.mono fun hstop => m.stop_eq.trans hstop
  cases m with
  | still => exact hkeep
  | park _ _ => exact hkeep
  | retire _ hr => exact fun _ => hr
  | @reopen dying _ _ _ _ =>
      cases dying with
      | true => exact .of_not_retired rfl
      | false => exact .of_not_retired rfl
  | @leave dying hst =>
      cases dying with
      | true => exact .of_not_retired rfl
      | false => exact fun _ => hkeep (by rw [hst]; rfl)
  | _ => exact .of_not_retired rfl

end Worker

/-! ### All rounds of a run -/

namespace Arena

/-- **Every round is accounted for**: those that were counted and those that are owed are the rounds
of the start, and whoever has ended has a reason. -/
structure Accounted (s : Settings) (a : Arena) : Prop where
  rounds : ∀ closer, a.shared.tally.rounds closer + total (Worker.owed closer) a.workers =
    total (Worker.owed closer) (crew s)
  excused : ∀ w ∈ a.workers, w.Excused a.shared

variable {p : Plan} {a b : Arena} {s : Settings}

/-- **What can happen next accounts for every round.** -/
theorem Accounted.step (h : Accounted s a) (hm : a.Manned p) (hs : Step p a b) :
    Accounted s b := by
  cases hs with
  | @worker before after w w' s' hws m =>
      have hw : w ∈ a.workers := by
        rw [hws]
        simp
      refine ⟨fun closer => ?_, fun v hv => ?_⟩
      · have hround := m.rounds (hm.fits w hw).serves closer
        have htotal : total (Worker.owed closer) (before ++ w' :: after) + w.owed closer =
            total (Worker.owed closer) (before ++ w :: after) + w'.owed closer :=
          total_replace w w' fun _ _ => rfl
        have hall := h.rounds closer
        rw [hws] at hall
        simp only
        omega
      · have hothers : ∀ u ∈ a.workers, u.Excused s' := fun u hu =>
          (h.excused u hu).mono fun hstop => m.stop_eq.trans hstop
        rcases List.mem_append.1 hv with hv | hv
        · exact hothers v (by rw [hws]; exact List.mem_append_left _ hv)
        · rcases List.mem_cons.1 hv with rfl | hv
          · exact m.excused (h.excused w hw)
          · exact hothers v (by
              rw [hws]
              exact List.mem_append_right _ (List.mem_cons_of_mem _ hv))
  | disturb _ _ _ => exact ⟨h.rounds, h.excused⟩
  | interrupt => exact ⟨h.rounds, fun w hw => (h.excused w hw).mono fun _ => rfl⟩
  | start _ => exact ⟨h.rounds, h.excused⟩
  | wake _ _ => exact ⟨h.rounds, h.excused⟩

/-- At the start all rounds are owed. -/
theorem accounted_start (s : Settings) : Accounted s (start s) where
  rounds closer := by
    cases closer <;> simp [start, Tally.rounds]
  excused w hw := .of_not_retired (by rw [stage_of_mem_crew hw]; rfl)

/-- **Every run accounts for every round.** -/
theorem Reachable.accounted (h : Reachable s p a) : Accounted s a := by
  induction h with
  | start => exact accounted_start s
  | act hr ha ih => exact ih.step hr.manned (hr.manned.act_step ha)

/-- The rounds of all enterers, or of all closers, at the start. -/
theorem owed_crew (s : Settings) (closer : Bool) :
    total (Worker.owed closer) (crew s) =
      if closer then s.closers * (s.iterations / 10) else s.enterers * s.iterations := by
  cases closer <;>
    simp [total, crew, Worker.owed, Stage.pending, Function.comp_def]

end Arena

end ReentrantGate.Stress
