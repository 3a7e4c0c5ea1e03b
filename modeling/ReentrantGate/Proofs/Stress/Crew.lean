/-
**All workers of a run together.**

Every worker works in a thread of its own, so a move of one worker leaves the others fitting the
gate, and the depths of the gate are those of the workers.  The number of enterers inside, which is
kept apart from the gate, counts each enterer only while its thread is inside.  A thread that has
closed the gate is the only one inside, and it is no enterer, so the number is then zero.

Main definitions:

* `Stress.total` — a number summed up over workers;
* `Stress.Arena.Step` — what can happen next in an arena, worker by worker;
* `Stress.Arena.run` — several things happen one after another;
* `Stress.Arena.Manned` — the workers fit the gate, and the number inside counts them.

Main results:

* `Stress.Arena.Manned.act_step` — **whatever happens next is a step**;
* `Stress.Arena.Manned.inside_eq_zero` — **nobody is inside while a worker has the close**;
* `Stress.Arena.Manned.step`, `Stress.Arena.Reachable.manned` — **every run keeps the arena
  manned**.
-/

import Mathlib
import ReentrantGate.Proofs.Stress.Moves

set_option relaxedAutoImplicit false
set_option autoImplicit false

namespace ReentrantGate.Stress

open Gate

/-! ### Sums over workers -/

/-- A number for each worker, summed up. -/
def total (f : Worker → Nat) (ws : List Worker) : Nat := (ws.map f).sum

section Total

variable {f f' : Worker → Nat} {before after ws : List Worker} {w : Worker}

/-- If one worker changes and the others count as before, the sum changes with the one. -/
theorem total_replace (w w' : Worker) (h : ∀ v ∈ before ++ after, f' v = f v) :
    total f' (before ++ w' :: after) + f w = total f (before ++ w :: after) + f' w' := by
  have hbefore : before.map f' = before.map f :=
    List.map_congr_left fun v hv => h v (List.mem_append_left _ hv)
  have hafter : after.map f' = after.map f :=
    List.map_congr_left fun v hv => h v (List.mem_append_right _ hv)
  simp only [total, List.map_append, List.map_cons, List.sum_append, List.sum_cons, hbefore, hafter]
  omega

theorem le_total (f : Worker → Nat) (h : w ∈ ws) : f w ≤ total f ws :=
  List.le_sum_of_mem (List.mem_map_of_mem h)

theorem total_eq_zero (h : ∀ w ∈ ws, f w = 0) : total f ws = 0 := by
  refine List.sum_eq_zero fun n hn => ?_
  obtain ⟨w, hw, rfl⟩ := List.mem_map.1 hn
  exact h w hw

end Total

namespace Arena

/-! ### What can happen next -/

/-- **What can happen next**: a worker moves, the gate is disturbed, an interrupt comes, or the main
thread goes on. -/
inductive Step (p : Plan) (a : Arena) : Arena → Prop
  | worker {before after : List Worker} {w w' : Worker} {s' : Shared} :
      a.workers = before ++ w :: after → w.Moves p a.shared s' w' →
      Step p a { a with shared := s', workers := before ++ w' :: after }
  | disturb {c' : Crowd} : c'.Reachable → a.shared.crowd.clock ≤ c'.clock →
      (∀ u, a.shared.crowd.Alike c' u) →
      Step p a { a with shared := { a.shared with crowd := c' } }
  | interrupt : Step p a { a with shared := { a.shared with stop := true } }
  | start : a.main = .starting →
      Step p a { a with shared := a.shared.dropHandle, main := .waiting }
  | wake : a.main = .waiting → a.shared.finish.set = true →
      Step p a { a with shared := { a.shared with finish := ⟨false⟩ }, main := .reporting }

/-- **The workers are at the gate as their stages say**: no two share a thread, each fits the gate,
other threads have nothing to do with it, and the number inside counts those who are. -/
structure Manned (p : Plan) (a : Arena) : Prop where
  reachable : a.shared.crowd.Reachable
  nodup : (a.workers.map (·.thread)).Nodup
  fits : ∀ w ∈ a.workers, w.Fits p a.shared.crowd
  outside : ∀ t, t ∉ a.workers.map (·.thread) →
    a.shared.crowd.gate.depth t = 0 ∧ a.shared.crowd.closeDepth t = 0 ∧
      ∀ v ∈ a.shared.crowd.visitors, v.thread ≠ t
  inside : a.shared.inside = total (fun w => (w.counted a.shared.crowd).toNat) a.workers

variable {p : Plan} {a b : Arena} {s : Settings}

/-- The main thread goes on as soon as it can. -/
theorem step_of_stepMain (h : a.stepMain = some b) : Step p a b := by
  unfold stepMain at h
  cases hm : a.main with
  | starting =>
      simp only [hm, Option.some.injEq] at h
      exact h ▸ .start hm
  | waiting =>
      simp only [hm, Event.await] at h
      split at h
      · cases h
      · rename_i e success hawait
        split at hawait
        · rename_i hl
          cases hawait
          cases h
          exact .wake hm (look_eq_ready.1 hl)
        · rename_i hl
          -- a wait without a deadline does not expire
          obtain ⟨-, d, hd, -⟩ := look_eq_expired.1 hl
          cases hd
        · cases hawait
  | reporting => simp [hm] at h

/-- An action at the gate that is nobody's segment. -/
theorem step_of_disturb {action : Gate.Action} (hc : a.shared.crowd.Reachable)
    (hactor : action.actor = none)
    (h : a.disturb action = some b) : Step p a b := by
  obtain ⟨⟨c', o⟩, ha, rfl⟩ := Option.map_eq_some_iff.1 h
  have ho := hc.orderly
  refine .disturb (hc.act ha) ?_ fun u => ?_
  · cases action with
    | call t r f => cases hactor
    | resume t f => cases hactor
    | rouse t =>
        simp only [Crowd.act] at ha
        split at ha
        · cases ha
        · cases ha
          exact Nat.le_refl _
    | tick ns =>
        cases ha
        exact Nat.le_add_right _ _
  · exact (Crowd.act_step ho ha).alike ho (by simp [hactor])

namespace Manned

/-- **Whatever happens next is a step.** -/
theorem act_step (h : a.Manned p) {action : Action} (ha : a.act p action = some b) :
    Step p a b := by
  cases action with
  | worker i draw =>
      simp only [act] at ha
      split at ha
      · cases ha
      · rename_i w hw
        obtain ⟨hi, hget⟩ := List.getElem?_eq_some_iff.1 hw
        have hmem : w ∈ a.workers := hget ▸ List.getElem_mem hi
        have hsplit : a.workers = a.workers.take i ++ w :: a.workers.drop (i + 1) := by
          rw [← hget, List.getElem_cons_drop, List.take_append_drop]
        have hstep := (h.fits w hmem).step h.reachable draw
        split at ha
        · cases ha
        · rename_i s' hs
          cases ha
          rw [hs] at hstep
          have := Step.worker hsplit hstep
          rwa [← hsplit] at this
        · rename_i s' w' hs
          cases ha
          rw [hs] at hstep
          rw [List.set_eq_take_append_cons_drop, if_pos hi]
          exact .worker hsplit hstep
  | rouse t => exact step_of_disturb h.reachable rfl ha
  | tick ns => exact step_of_disturb h.reachable rfl ha
  | interrupt =>
      cases ha
      exact .interrupt
  | main => exact step_of_stepMain ha

/-! ### Nobody inside -/

/-- Two workers of one thread are the same. -/
theorem eq_of_thread (h : a.Manned p) {v w : Worker} (hv : v ∈ a.workers) (hw : w ∈ a.workers)
    (hvw : v.thread = w.thread) : v = w :=
  List.inj_on_of_nodup_map h.nodup hv hw hvw

/-- **Nobody is inside while a worker has the close.** -/
theorem inside_eq_zero (h : a.Manned p) {w : Worker} (hw : w ∈ a.workers)
    (hc : 0 < w.stage.closes) : a.shared.inside = 0 := by
  obtain ⟨hcloser, hdrains⟩ := (h.fits w hw).closer_of_closes rfl hc
  have hf : a.shared.crowd.gate.foreign = 0 := h.reachable.settled _ hcloser hdrains
  have hout := (h.reachable.orderly.sound.foreign_eq_zero_iff hcloser).1 hf
  rw [h.inside]
  refine total_eq_zero fun v hv => ?_
  cases hcount : v.counted a.shared.crowd with
  | false => rfl
  | true =>
      -- an enterer that counts is inside, and it is not the one that has the close
      obtain ⟨hpos, henterer⟩ := (h.fits v hv).of_counted hcount
      have hne : v.thread ≠ w.thread := by
        intro hvw
        rw [h.eq_of_thread hv hw hvw,
          Stage.closer_of_closes (h.fits w hw).serves hc] at henterer
        cases henterer
      have := hout _ hne
      omega

/-- **Somebody is inside only while the thread of an enterer is.** -/
theorem exists_inside (h : a.Manned p) (hin : 0 < a.shared.inside) :
    ∃ w ∈ a.workers, w.closer = false ∧ 0 < a.shared.crowd.gate.depth w.thread := by
  by_contra hno
  have hz : total (fun w => (w.counted a.shared.crowd).toNat) a.workers = 0 := by
    refine total_eq_zero fun w hw => ?_
    cases hcount : w.counted a.shared.crowd with
    | false => rfl
    | true =>
        obtain ⟨hpos, henterer⟩ := (h.fits w hw).of_counted hcount
        exact absurd ⟨w, hw, henterer, hpos⟩ hno
  rw [h.inside] at hin
  omega

/-! ### What every run keeps -/

/-- The other workers have other threads. -/
theorem of_others (h : a.Manned p) {before after : List Worker} {v w : Worker}
    (hws : a.workers = before ++ w :: after) (hv : v ∈ before ++ after) :
    v ∈ a.workers ∧ v.thread ≠ w.thread := by
  have hn := h.nodup
  rw [hws, List.map_append, List.map_cons, List.nodup_middle, List.nodup_cons,
    ← List.map_append] at hn
  refine ⟨?_, fun hvw => hn.1 (List.mem_map.2 ⟨v, hv, hvw⟩)⟩
  rw [hws, List.mem_append, List.mem_cons]
  rcases List.mem_append.1 hv with hv | hv
  · exact .inl hv
  · exact .inr (.inr hv)

/-- A move of one worker keeps the arena manned. -/
theorem worker (h : a.Manned p) {before after : List Worker} {w w' : Worker} {s' : Shared}
    (hws : a.workers = before ++ w :: after) (m : w.Moves p a.shared s' w') :
    Manned p { a with shared := s', workers := before ++ w' :: after } := by
  have hw : w ∈ a.workers := by
    rw [hws]
    simp
  have hthreads : (before ++ w' :: after).map (·.thread) = a.workers.map (·.thread) := by
    simp [hws, m.thread_eq]
  refine ⟨m.reachable h.reachable, hthreads ▸ h.nodup, fun v hv => ?_, fun t ht => ?_, ?_⟩
  · rw [List.mem_append, List.mem_cons] at hv
    have hsplit : v = w' ∨ v ∈ before ++ after := by
      rw [List.mem_append]
      tauto
    rcases hsplit with rfl | hv
    · exact (h.fits w hw).moves m
    · obtain ⟨hv, hvw⟩ := h.of_others hws hv
      exact (h.fits v hv).of_alike (m.alike hvw)
  · rw [hthreads] at ht
    have halike := m.alike (u := t) fun htw => ht (htw ▸ List.mem_map_of_mem hw)
    obtain ⟨hd, hcd, hv⟩ := h.outside t ht
    exact ⟨halike.depth.trans hd, halike.closeDepth.trans hcd,
      fun v hmv hvt => hv v ((halike.mem_iff v hvt).1 hmv) hvt⟩
  · have hin := h.inside
    rw [hws] at hin
    have hle := le_total (fun w => (w.counted a.shared.crowd).toNat) hw
    rw [← h.inside] at hle
    have hmove := m.inside (h.fits w hw) hle
    have hcount : ∀ v ∈ before ++ after,
        (v.counted s'.crowd).toNat = (v.counted a.shared.crowd).toNat := by
      intro v hv
      simp only [Worker.counted, (m.alike (h.of_others hws hv).2).depth]
    have htotal := total_replace w w' hcount
    simp only at hmove htotal hin ⊢
    omega

/-- **What can happen next keeps the arena manned.** -/
theorem step (h : a.Manned p) (hs : Step p a b) : b.Manned p := by
  cases hs with
  | worker hws m => exact h.worker hws m
  | disturb hc _ halike =>
      refine ⟨hc, h.nodup, fun w hw => (h.fits w hw).of_alike (halike w.thread), fun t ht => ?_, ?_⟩
      · obtain ⟨hd, hcd, hv⟩ := h.outside t ht
        have hat := halike t
        exact ⟨hat.depth.trans hd, hat.closeDepth.trans hcd,
          fun v hmv hvt => hv v ((hat.mem_iff v hvt).1 hmv) hvt⟩
      · simp only [Worker.counted, fun w : Worker => (halike w.thread).depth]
        exact h.inside
  | interrupt => exact ⟨h.reachable, h.nodup, h.fits, h.outside, h.inside⟩
  | start _ => exact ⟨h.reachable, h.nodup, h.fits, h.outside, h.inside⟩
  | wake _ _ => exact ⟨h.reachable, h.nodup, h.fits, h.outside, h.inside⟩

end Manned

/-! ### The start -/

/-- A number in a name tells it from the others. -/
theorem name_inj {kind : String} {i j : Nat}
    (h : ThreadId.mk (kind ++ toString i) = ⟨kind ++ toString j⟩) : i = j :=
  Nat.repr_inj.1 ((String.append_right_inj kind).1 (congrArg ThreadId.name h))

/-- **No two workers share a thread.** -/
theorem nodup_crew (s : Settings) : ((crew s).map (·.thread)).Nodup := by
  simp only [crew, List.map_append, List.map_map]
  refine List.Nodup.append ?_ ?_ ?_
  · exact List.nodup_range.map fun i j h => name_inj h
  · exact List.nodup_range.map fun i j h => name_inj h
  · -- the names of the two kinds differ in their first letter
    intro t ht ht'
    obtain ⟨i, -, rfl⟩ := List.mem_map.1 ht
    obtain ⟨j, -, h⟩ := List.mem_map.1 ht'
    have hletters := congrArg (fun t : ThreadId => t.name.toList.head?) h
    simp [String.toList_append] at hletters

theorem stage_of_mem_crew {w : Worker} (h : w ∈ crew s) : w.stage = .poll := by
  rcases List.mem_append.1 h with h | h
  · obtain ⟨i, -, rfl⟩ := List.mem_map.1 h
    rfl
  · obtain ⟨i, -, rfl⟩ := List.mem_map.1 h
    rfl

theorem manned_start (p : Plan) (s : Settings) : (start s).Manned p where
  reachable := ⟨[], [], rfl⟩
  nodup := nodup_crew s
  fits w hw := by
    have hs := stage_of_mem_crew hw
    refine ⟨by rw [hs]; rfl, .inl (by rw [hs]; rfl), ?_, by rw [hs]; rfl, by rw [hs]; nofun, nofun⟩
    rw [hs]
    exact Nat.zero_le _
  outside t _ := ⟨rfl, rfl, nofun⟩
  inside := by
    refine (total_eq_zero fun w hw => ?_).symm
    simp [Worker.counted, stage_of_mem_crew hw, Stage.present, Stage.died]

/-! ### Runs -/

/-- Several things happen one after another, if they can. -/
def run (p : Plan) (a : Arena) : List Action → Option Arena
  | [] => some a
  | action :: as => (a.act p action).bind fun b => b.run p as

theorem Reachable.of_run (h : Reachable s p a) (as : List Action) (hr : a.run p as = some b) :
    Reachable s p b := by
  induction as generalizing a with
  | nil =>
      cases hr
      exact h
  | cons action as ih =>
      obtain ⟨c, hc, hr⟩ := Option.bind_eq_some_iff.1 hr
      exact ih (h.act hc) hr

/-- **Every run keeps the arena manned.** -/
theorem Reachable.manned (h : Reachable s p a) : a.Manned p := by
  induction h with
  | start => exact manned_start p s
  | act _ ha ih => exact ih.step (ih.act_step ha)

end Arena

end ReentrantGate.Stress
