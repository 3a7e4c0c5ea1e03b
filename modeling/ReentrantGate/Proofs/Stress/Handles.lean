/-
**The report comes after all work.**

Every worker holds a handle on the finishing event, and the main thread holds one more until all
workers are started.  Handles only become fewer, and the event is set when the last one goes.  The
main thread keeps a handle while it starts the workers, so the event is not set before it waits,
and a worker gives its handle back as the last thing it does, so once the event is set nobody is at
work.

Main definitions:

* `Stress.Stage.handles` — the handle of a worker that has not finished;
* `Stress.Arena.Handed` — the handles are those of the workers and of the main thread.

Main results:

* `Stress.Arena.Handed.step`, `Stress.Arena.Reachable.handed` — **every run keeps count of the
  handles**;
* `Stress.Arena.Handed.finished` — **the main thread reports once every worker has finished**;
* `Stress.Arena.Handed.stepMain` — and then it is not held up.
-/

import ReentrantGate.Proofs.Stress.Crew

set_option relaxedAutoImplicit false
set_option autoImplicit false

namespace ReentrantGate.Stress

/-! ### Handles of workers -/

/-- Whether a worker has finished. -/
def Stage.isFinished : Stage → Bool
  | finished _ => true
  | _ => false

/-- A worker that has not finished holds a handle. -/
def Stage.handles (stage : Stage) : Nat := if stage.isFinished then 0 else 1

/-- **A move keeps the handles, or gives one back**, and the last one sets the event. -/
theorem Worker.Moves.handles {p : Plan} {s s' : Shared} {w w' : Worker} (m : w.Moves p s s' w') :
    s'.handles = s.handles ∧ s'.finish = s.finish ∧ w'.stage.handles = w.stage.handles ∨
      s'.handles = s.handles - 1 ∧
        s'.finish = (if s.handles = 1 then s.finish.signal else s.finish) ∧
        w'.stage.handles = 0 ∧ w.stage.handles = 1 := by
  cases m with
  | still => exact .inl ⟨rfl, rfl, rfl⟩
  | park _ _ => exact .inl ⟨rfl, rfl, rfl⟩
  | leave hs => exact .inr ⟨rfl, rfl, rfl, by rw [hs]; rfl⟩
  | check hs =>
      refine .inl ⟨?_, ?_, by rw [hs]; rfl⟩
      · unfold Shared.check
        split <;> rfl
      · unfold Shared.check
        split <;> rfl
  | recheck hs =>
      refine .inl ⟨?_, ?_, by rw [hs]; rfl⟩
      · unfold Shared.check
        split <;> rfl
      · unfold Shared.check
        split <;> rfl
  | @reopen dying _ _ hs _ =>
      cases dying with
      | true => exact .inl ⟨rfl, rfl, by rw [hs]; rfl⟩
      | false => exact .inl ⟨rfl, rfl, by rw [hs]; rfl⟩
  | _ => exact .inl ⟨rfl, rfl, by simp [*]; rfl⟩

namespace Arena

/-- Whether the main thread still holds its handle. -/
def MainStage.handles : MainStage → Nat
  | .starting => 1
  | _ => 0

/-- **The handles are those of the workers and of the main thread**, and the event is set from the
moment the last one goes until the main thread has seen it. -/
structure Handed (a : Arena) : Prop where
  handles : a.shared.handles = total (fun w => w.stage.handles) a.workers + MainStage.handles a.main
  finish : a.shared.finish.set = true ↔ a.shared.handles = 0 ∧ a.main = .waiting
  reporting : a.main = .reporting → a.shared.handles = 0

variable {p : Plan} {a b : Arena} {s : Settings}

namespace Handed

/-- A move of one worker keeps count. -/
theorem worker (h : a.Handed) {before after : List Worker} {w w' : Worker} {s' : Shared}
    (hws : a.workers = before ++ w :: after) (m : w.Moves p a.shared s' w') :
    Handed { a with shared := s', workers := before ++ w' :: after } := by
  obtain ⟨hhandles, hfinish, hreporting⟩ := h
  have htotal : total (fun w => w.stage.handles) (before ++ w' :: after) + w.stage.handles =
      total (fun w => w.stage.handles) a.workers + w'.stage.handles := by
    rw [hws]
    exact total_replace w w' fun _ _ => rfl
  rcases m.handles with ⟨hh, hf, hst⟩ | ⟨hh, hf, hw', hw⟩
  · refine ⟨?_, ?_, ?_⟩
    · simp only
      omega
    · simpa only [hh, hf] using hfinish
    · simpa only [hh] using hreporting
  · -- the worker had a handle, so there was one to give back
    have hpos : 0 < a.shared.handles := by omega
    have hunset : a.shared.finish.set = false := by
      rw [Bool.eq_false_iff, ne_eq, hfinish]
      omega
    refine ⟨?_, ?_, ?_⟩
    · simp only
      omega
    · simp only [hh, hf]
      by_cases h1 : a.shared.handles = 1
      · have hmain : a.main = .waiting := by
          cases hm : a.main with
          | starting =>
              rw [hm, MainStage.handles] at hhandles
              omega
          | waiting => rfl
          | reporting =>
              have := hreporting hm
              omega
        simp [h1, hmain, Event.signal]
      · simp only [h1, if_false, hunset, Bool.false_eq_true, false_iff]
        omega
    · intro hm
      have := hreporting hm
      omega

/-- **What can happen next keeps count of the handles.** -/
theorem step (h : a.Handed) (hs : Step p a b) : b.Handed := by
  cases hs with
  | worker hws m => exact h.worker hws m
  | disturb _ _ _ => exact ⟨h.handles, h.finish, h.reporting⟩
  | interrupt => exact ⟨h.handles, h.finish, h.reporting⟩
  | start hm =>
      obtain ⟨hhandles, hfinish, -⟩ := h
      rw [hm] at hhandles hfinish
      simp only [MainStage.handles, reduceCtorEq, and_false, iff_false, Bool.not_eq_true]
        at hhandles hfinish
      refine ⟨?_, ?_, nofun⟩
      · simp only [Shared.dropHandle, MainStage.handles]
        omega
      · simp only [Shared.dropHandle, and_true]
        by_cases h1 : a.shared.handles = 1
        · simp [h1, Event.signal]
        · simp only [h1, if_false, hfinish, Bool.false_eq_true, false_iff]
          omega
  | wake hm hset =>
      obtain ⟨hhandles, hfinish, -⟩ := h
      have h0 := (hfinish.1 hset).1
      rw [hm] at hhandles
      exact ⟨hhandles, by simp, fun _ => h0⟩

/-- **The main thread reports only once every worker has finished.** -/
theorem finished (h : a.Handed) (hm : a.main = .reporting) :
    ∀ w ∈ a.workers, w.stage.isFinished = true := by
  intro w hw
  have hle := le_total (fun w => w.stage.handles) hw
  have hhandles := h.handles
  rw [h.reporting hm] at hhandles
  cases hf : w.stage.isFinished with
  | true => rfl
  | false =>
      simp only [Stage.handles, hf, Bool.false_eq_true, if_false] at hle hhandles
      omega

/-- **Once every worker has finished, the main thread is not held up** before its report. -/
theorem stepMain (h : a.Handed) (hall : ∀ w ∈ a.workers, w.stage.isFinished = true)
    (hm : a.main ≠ .reporting) : ∃ b, a.stepMain = some b := by
  cases hstage : a.main with
  | starting =>
      simp only [Arena.stepMain, hstage]
      exact ⟨_, rfl⟩
  | waiting =>
      have hz : total (fun w => w.stage.handles) a.workers = 0 :=
        total_eq_zero fun w hw => by simp only [Stage.handles, hall w hw, if_true]
      have hhandles := h.handles
      rw [hz, hstage] at hhandles
      have hset : a.shared.finish.set = true := h.finish.2 ⟨hhandles, hstage⟩
      simp only [Arena.stepMain, hstage, Event.await, look, hset, if_true]
      exact ⟨_, rfl⟩
  | reporting => exact absurd hstage hm

end Handed

/-- At the start every worker has a handle. -/
theorem handed_start (s : Settings) : (start s).Handed := by
  have hlength : (crew s).length = s.enterers + s.closers := by
    simp [crew]
  have htotal : total (fun w => w.stage.handles) (crew s) = (crew s).length := by
    have hone : (crew s).map (fun w => w.stage.handles) = (crew s).map fun _ => 1 := by
      refine List.map_congr_left fun w hw => ?_
      rw [stage_of_mem_crew hw]
      rfl
    simp [total, hone]
  refine ⟨?_, by simp [start], by simp [start]⟩
  simp only [start, htotal, hlength, MainStage.handles]

/-- **Every run keeps count of the handles.** -/
theorem Reachable.handed (h : Reachable s p a) : a.Handed := by
  induction h with
  | start => exact handed_start s
  | act hr ha ih => exact ih.step (hr.manned.act_step ha)

end Arena

end ReentrantGate.Stress
