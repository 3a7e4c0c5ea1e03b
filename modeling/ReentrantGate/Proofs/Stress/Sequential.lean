/-
**Workers that go one after another.**

As long as all workers but one have finished, or have not begun, nobody but that one is at the gate,
unless somebody died inside.  So the gate grants it whatever it asks for, and it comes to its end
without ever being parked.  With bounded settings nobody dies inside; then the workers come to their
ends one by one, and the main thread comes to its report.

Main results:

* `Gate.begin_ne_park_of_alone` — **nobody waits for others who are not there**;
* `Stress.Worker.step_of_alone` — so a worker that is alone at the gate does not park;
* `Stress.Arena.Reachable.alone`, `Stress.Arena.Reachable.playAll` — **workers come to their ends
  one after another**;
* `Stress.Arena.sequential_reports` — **the run in which they do comes to its report**.
-/

import ReentrantGate.Proofs.Stress.Balance

set_option relaxedAutoImplicit false
set_option autoImplicit false

namespace ReentrantGate

/-! ### Alone at a gate -/

namespace Gate

variable {g g' : Gate} {t : ThreadId} {now : Nat} {w : Waiting}

/-- **Nobody waits for others who are not there.** -/
theorem begin_ne_park_of_alone (h : g.Sound) (hout : ∀ u, u ≠ t → g.depth u = 0)
    (hclose : ∀ u, u ≠ t → g.closer ≠ some u) (r : Request) : begin t now r g ≠ .park g' w := by
  have hcloser : g.closer = none ∨ g.closer = some t := by
    cases hc : g.closer with
    | none => exact .inl rfl
    | some u =>
        by_cases hu : u = t
        · exact .inr (hu ▸ rfl)
        · exact absurd hc (hclose u hu)
  cases r with
  | enter timeout =>
      have hadmits : g.admits t = true := h.admits_iff.2 (hcloser.imp_right .inl)
      simp [begin, enter, hadmits]
  | exit => exact exit_ne_park
  | close timeout =>
      simp only [begin, close]
      split
      · simp
      · rename_i hno
        have hnone : g.closer = none := hcloser.resolve_right (h.isCloser_iff.not.1 hno)
        have hforeign : (g.claim t).foreign = 0 := ((h.claim t).foreign_eq_zero_iff rfl).2 hout
        split
        · simp
        · simp [awaitExclusivity, awaitDrain, look, hnone, hforeign]
  | reopen => exact reopen_ne_park

end Gate

namespace Stress

open Gate

variable {s : Settings} {p : Plan}

/-! ### A worker that is alone -/

/-- A thread is alone at the gate: nobody is in the middle of a call, and nobody else is inside or
is the closer. -/
structure Shared.Alone (s : Shared) (t : ThreadId) : Prop where
  sound : s.crowd.gate.Sound
  visitors : s.crowd.visitors = []
  outside : ∀ u, u ≠ t → s.crowd.gate.depth u = 0
  closer : ∀ u, u ≠ t → s.crowd.gate.closer ≠ some u

namespace Worker

variable {sh sh' : Shared} {w w' : Worker} {draw : Nat}

/-- A worker that is alone gets an answer at once. -/
theorem ask_of_alone (h : sh.Alone w.thread) (r : Request)
    {next : Verdict → Shared → Shared × Worker} (hnext : ∀ v s₀, (next v s₀).1.crowd = s₀.crowd) :
    ∃ sh' w', w.ask sh r next = .moved sh' w' ∧ sh'.crowd.visitors = [] := by
  have hidle : sh.crowd.idle w.thread = true := by
    rw [Crowd.idle_iff, h.visitors]
    exact fun _ hv => absurd hv List.not_mem_nil
  have hparked : sh.crowd.parked = [] := (List.append_eq_nil_iff.1 h.visitors).1
  have hwoken : sh.crowd.woken = [] := (List.append_eq_nil_iff.1 h.visitors).2
  cases hs : begin w.thread sh.crowd.clock r sh.crowd.gate with
  | park g waiting => exact absurd hs (begin_ne_park_of_alone h.sound h.outside h.closer r)
  | done g room note verdict =>
      have hact : sh.crowd.act (.call w.thread r false) =
          some ({ sh.crowd with gate := g }, some ⟨w.thread, r.hold, verdict, note, false⟩) := by
        simp [Crowd.act, hidle, hs, Crowd.absorb, Crowd.occurrence?, hparked, hwoken]
      refine ⟨_, _, ask_of_idle hidle hact, ?_⟩
      rw [hnext]
      exact h.visitors

/-- **A worker that is alone at the gate does not park.** -/
theorem step_of_alone (h : sh.Alone w.thread) (hfin : w.stage.isFinished = false) (draw : Nat) :
    ∃ sh' w', w.step p draw sh = .moved sh' w' ∧ sh'.crowd.visitors = [] := by
  have hv := h.visitors
  have hchecked : sh.check.crowd.visitors = [] := by rwa [Moves.crowd_check]
  cases hs : w.stage with
  | entering depth =>
      simp only [step, hs]
      exact ask_of_alone h _ fun v _ => by cases v <;> rfl
  | nesting more held =>
      cases more with
      | zero =>
          simp only [step, hs]
          exact ⟨_, _, rfl, hv⟩
      | succ more =>
          simp only [step, hs]
          exact ask_of_alone h _ fun v _ => by cases v <;> rfl
  | exiting held =>
      cases held with
      | zero =>
          simp only [step, hs]
          exact ⟨_, _, rfl, hv⟩
      | succ held =>
          simp only [step, hs]
          exact ask_of_alone h _ fun v _ => by cases v <;> rfl
  | closing =>
      simp only [step, hs]
      exact ask_of_alone h _ fun v _ => by cases v <;> rfl
  | opening dying =>
      simp only [step, hs]
      exact ask_of_alone h _ fun v _ => by cases v <;> cases dying <;> rfl
  | checking =>
      simp only [step, hs]
      exact ⟨_, _, rfl, hchecked⟩
  | rechecking =>
      simp only [step, hs]
      exact ⟨_, _, rfl, hchecked⟩
  | finished died =>
      rw [hs] at hfin
      cases hfin
  | _ =>
      simp only [step, hs]
      repeat' split
      all_goals exact ⟨_, _, rfl, hv⟩

theorem alone_of_moved (hs : w.step p draw sh = .moved sh' w') :
    w.alone p draw sh = w'.alone p draw sh' := by
  rw [Worker.alone]
  split <;> simp_all

theorem alone_of_finished (hfin : w.stage.isFinished = true) : w.alone p draw sh = (sh, w) := by
  have hs := step_of_finished (p := p) (s := sh) hfin draw
  rw [Worker.alone]
  split <;> simp_all

end Worker

namespace Arena

variable {a b : Arena} {before after : List Worker} {w : Worker}

/-! ### One after another -/

/-- A worker has finished or has not begun a round. -/
def Resting (w : Worker) : Prop := w.stage = .poll ∨ w.stage.isFinished = true

/-- **Among workers that rest one is alone**, if nobody has died inside. -/
theorem Manned.alone (h : a.Manned p) (hout : a.Vacated) (hv : a.shared.crowd.visitors = [])
    (hrest : ∀ v ∈ a.workers, v.thread ≠ w.thread → Resting v) : a.shared.Alone w.thread := by
  have hs := h.reachable.orderly.sound
  have hfree : ∀ u, u ≠ w.thread →
      a.shared.crowd.gate.depth u = 0 ∧ a.shared.crowd.closeDepth u = 0 := by
    intro u hu
    by_contra hno
    obtain ⟨v, hv, rfl, hfin⟩ := h.worker_of_holder hout (t := u) (by omega)
    rcases hrest v hv hu with hpoll | hfin'
    · have hfits := h.fits v hv
      refine hno ⟨hfits.depth_eq hpoll rfl, ?_⟩
      rw [hfits.closeDepth, hpoll]
      rfl
    · rw [hfin] at hfin'
      cases hfin'
  refine ⟨hs, hv, fun u hu => (hfree u hu).1, fun u hu hc => ?_⟩
  have hdrains : a.shared.crowd.drains u = false := by simp [Crowd.drains, hv]
  have hpos := Crowd.closeDepth_pos_of_closer hs hc hdrains
  have hnone := (hfree u hu).2
  omega

/-- **A worker among workers that rest comes to its end.** -/
theorem Reachable.alone (hp : plan? s = some p) (hb : s.Bounded) (h : Reachable s p a)
    (hws : a.workers = before ++ w :: after) (hrest : ∀ v ∈ before ++ after, Resting v)
    (hv : a.shared.crowd.visitors = []) (draw : Nat) :
    ∃ sh w', w.alone p draw a.shared = (sh, w') ∧
      Reachable s p { a with shared := sh, workers := before ++ w' :: after } ∧
      w'.stage.isFinished = true ∧ sh.crowd.visitors = [] := by
  -- each step leaves less to do
  induction hcost : w.cost p using Nat.strongRecOn generalizing a w with
  | _ n ih =>
      cases hfin : w.stage.isFinished with
      | true => exact ⟨a.shared, w, Worker.alone_of_finished hfin, hws ▸ h, hfin, hv⟩
      | false =>
          have halone : a.shared.Alone w.thread := by
            refine h.manned.alone (h.vacated hp hb) hv fun v hvm hvw => hrest v ?_
            rw [hws, List.mem_append, List.mem_cons] at hvm
            rw [List.mem_append]
            rcases hvm with hvm | rfl | hvm
            · exact .inl hvm
            · exact absurd rfl hvw
            · exact .inr hvm
          obtain ⟨sh, w', hstep, hv'⟩ := Worker.step_of_alone (p := p) halone hfin draw
          have hact : a.act p (.worker before.length draw) =
              some { a with shared := sh, workers := before ++ w' :: after } := by
            simp [Arena.act, hws, hstep]
          rw [Worker.alone_of_moved hstep]
          exact ih _ (hcost ▸ Worker.cost_step_lt hstep) (h.act hact) rfl hv' rfl

/-- **Workers come to their ends one after another.** -/
theorem Reachable.playAll (hp : plan? s = some p) (hb : s.Bounded) {ws : List Worker}
    (h : Reachable s p a) (hws : a.workers = before ++ ws)
    (hbefore : ∀ v ∈ before, v.stage.isFinished = true) (hpoll : ∀ v ∈ ws, v.stage = .poll)
    (hv : a.shared.crowd.visitors = []) :
    ∃ sh ws', Arena.playAll p a.shared ws = (sh, ws') ∧
      Reachable s p { a with shared := sh, workers := before ++ ws' } ∧
      ∀ w ∈ before ++ ws', w.stage.isFinished = true := by
  induction ws generalizing a before with
  | nil =>
      refine ⟨a.shared, [], rfl, hws ▸ h, ?_⟩
      rwa [List.append_nil]
  | cons w ws ih =>
      have hlater : ∀ v ∈ ws, v.stage = .poll := fun v hvm => hpoll v (List.mem_cons_of_mem _ hvm)
      have hrest : ∀ v ∈ before ++ ws, Resting v := by
        intro v hvm
        rcases List.mem_append.1 hvm with hvm | hvm
        · exact .inr (hbefore v hvm)
        · exact .inl (hlater v hvm)
      obtain ⟨sh, w', halone, hr, hfin, hv'⟩ := h.alone hp hb hws hrest hv p.depth
      have hdone : ∀ v ∈ before ++ [w'], v.stage.isFinished = true := by
        intro v hvm
        rcases List.mem_append.1 hvm with hvm | hvm
        · exact hbefore v hvm
        · exact List.mem_singleton.1 hvm ▸ hfin
      obtain ⟨sh', ws', hplay, hr', hall⟩ := ih hr (List.append_cons ..) hdone hlater hv'
      rw [List.append_assoc] at hr' hall
      exact ⟨sh', w' :: ws', by simp only [Arena.playAll, halone, hplay], hr', hall⟩

/-! ### The report of that run -/

/-- An interrupt may come at the start, or not. -/
theorem reachable_stopped (interrupted : Bool) :
    Reachable s p { start s with shared := { (start s).shared with stop := interrupted } } := by
  cases interrupted with
  | true =>
      have hact : (start s).act p .interrupt =
          some { start s with shared := { (start s).shared with stop := true } } := rfl
      exact Reachable.start.act hact
  | false => exact .start

/-- A main thread that waits reports next. -/
theorem main_of_stepMain (h : a.stepMain = some b) (hm : a.main = .waiting) :
    b.main = .reporting := by
  simp only [stepMain, hm] at h
  split at h
  · cases h
  · cases h
    rfl

/-- **Once all have finished the main thread comes to its report.** -/
theorem Reachable.conclude (h : Reachable s p a) (hmain : a.main = .starting)
    (hall : ∀ w ∈ a.workers, w.stage.isFinished = true) :
    Reachable s p (Arena.conclude a) ∧ ∃ r, (Arena.conclude a).report? s = some r := by
  have hstart : a.stepMain = some { a with shared := a.shared.dropHandle, main := .waiting } := by
    simp only [stepMain, hmain]
  have hact (c : Arena) : c.act p .main = c.stepMain := rfl
  have hwaiting := h.act ((hact a).trans hstart)
  obtain ⟨b, hb⟩ := hwaiting.handed.stepMain hall (by simp)
  have hconclude : Arena.conclude a = b := by
    rw [Arena.conclude, hstart, Option.bind_some, hb]
    rfl
  rw [hconclude]
  refine ⟨hwaiting.act ((hact _).trans hb), ?_⟩
  rw [report?, main_of_stepMain hb rfl]
  exact ⟨_, rfl⟩

/-- **The run in which the workers go one after another is one of the runs, and comes to its
report**, with bounded settings. -/
theorem sequential_reports (hp : plan? s = some p) (hb : s.Bounded) (interrupted : Bool) :
    Reachable s p (sequential s p interrupted) ∧
      ∃ r, (sequential s p interrupted).report? s = some r := by
  have hcrew : (start s).workers = [] ++ crew s := rfl
  obtain ⟨sh, ws, hplay, hr, hall⟩ := (reachable_stopped interrupted).playAll hp hb hcrew nofun
    (fun _ => stage_of_mem_crew) rfl
  have hsequential : sequential s p interrupted =
      conclude { start s with shared := sh, workers := ws } := by
    show conclude { start s with
      shared := (playAll p { (start s).shared with stop := interrupted } (crew s)).1
      workers := (playAll p { (start s).shared with stop := interrupted } (crew s)).2 } = _
    rw [hplay]
  rw [hsequential]
  exact hr.conclude rfl hall

end Arena

end Stress

end ReentrantGate
