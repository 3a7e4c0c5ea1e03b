/-
**Segments make progress.**

What a task leaves to do weighs less than the task, a thread parks in the call that it carries out,
and releasing a guard or running at a deadline never parks.  These facts bound how often threads can
take turns.

Main definitions:

* `Segment.ParksIn` — a segment parks in a certain call, if it parks.

Main results:

* `Task.weights_follow_lt` — what follows a task weighs less than the task;
* `Task.weight_of_attempt_park` — a task that parks weighs as much as the call it parks in;
* `Task.attempt_ne_park` — a thread resumed at or past its deadline does not park again.
-/

import ReentrantGate.Script.Task

set_option relaxedAutoImplicit false
set_option autoImplicit false

namespace ReentrantGate.Script

/-- A segment that parks, parks in the call `c`. -/
def Segment.ParksIn (c : Call) : Segment → Prop
  | .park _ c' _ => c' = c
  | .done .. => True

namespace Task

/-! ### Weights -/

theorem weights_append (ts us : List Task) : weights (ts ++ us) = weights ts + weights us := by
  simp [weights]

theorem weights_map_start (cs : List Call) : weights (cs.map start) = Call.weights cs := by
  induction cs with
  | nil => rfl
  | cons c cs ih => simpa [weights, weight, Call.weights] using ih

theorem weights_ofBody_lt (c : Call) : weights (ofBody c) < c.weight := by
  cases c with
  | single site op => simp [ofBody, weights, Call.weight]
  | scope site hold timeout body panics =>
      rw [ofBody, weights_append, weights_map_start]
      simp [weights, weight, Call.weight]

theorem one_lt_weight (c : Call) : 1 < c.weight := by
  cases c <;> simp [Call.weight]

/-- **What follows a task weighs less than the task.** -/
theorem weights_follow_lt (task : Task) (f : Follow) : weights (task.follow f) < task.weight := by
  have pos : 0 < task.weight := by
    cases task with
    | start c => exact c.weight_pos
    | resume c wait => exact c.weight_pos
    | release c hold gate => simp [weight]
  cases f with
  | nothing => cases task <;> simpa [follow, weights] using pos
  | body =>
      cases task with
      | start c => exact weights_ofBody_lt c
      | resume c wait => exact weights_ofBody_lt c
      | release c hold gate => simp [follow, weights, weight]
  | release hold gate =>
      cases task with
      | start c => simpa [follow, weights, weight] using one_lt_weight c
      | resume c wait => simpa [follow, weights, weight] using one_lt_weight c
      | release c hold gate => simp [follow, weights, weight]

/-! ### Parking -/

theorem finish_ne_park {t : ThreadId} {c c' : Call} {r : Result} {ns : List Notice} {w w' : World}
    {wait : Wait} : finish t c r ns w ≠ .park w' c' wait := by
  simp [finish]

theorem conclude_ne_park {t : ThreadId} {c c' : Call} {v : Gate.Verdict} {ns : List Notice}
    {w w' : World} {wait : Wait} : conclude t c v ns w ≠ .park w' c' wait := by
  unfold conclude
  repeat' split
  all_goals simp [finish]

theorem parksIn_finish {t : ThreadId} {c c' : Call} {r : Result} {ns : List Notice} {w : World} :
    (finish t c' r ns w).ParksIn c := trivial

theorem parksIn_conclude {t : ThreadId} {c c' : Call} {v : Gate.Verdict} {ns : List Notice}
    {w : World} : (conclude t c' v ns w).ParksIn c := by
  unfold conclude
  repeat' split
  all_goals trivial

theorem parksIn_atGate {t : ThreadId} {c : Call} {i : Nat} {segment : Gate → Gate.Segment}
    {k : Gate.Verdict → List Notice → World → Segment} {w : World}
    (hk : ∀ v ns w', (k v ns w').ParksIn c) : (atGate t c i segment k w).ParksIn c := by
  unfold atGate
  split
  · trivial
  · split
    · rfl
    · split
      · trivial
      · exact hk ..

theorem parksIn_request {t : ThreadId} {c : Call} {r : Gate.Request} {w : World} :
    (request t c r w).ParksIn c :=
  parksIn_atGate fun _ _ _ => parksIn_conclude

theorem parksIn_requestMillis {t : ThreadId} {c : Call} {ms : Int} {r : Timeout → Gate.Request}
    {w : World} : (requestMillis t c ms r w).ParksIn c := by
  unfold requestMillis
  split
  · trivial
  · exact parksIn_request

theorem parksIn_dispose {t : ThreadId} {c : Call} {hold : Hold} {gate : Nat} {w : World} :
    (dispose t c hold gate w).ParksIn c :=
  parksIn_atGate fun _ _ _ => parksIn_finish

theorem parksIn_inspect {t : ThreadId} {c : Call} {f : Gate → Result} {w : World} :
    (inspect t c f w).ParksIn c := by
  unfold inspect
  split <;> trivial

theorem parksIn_atEvent {t : ThreadId} {c : Call} {i : Nat} {deadline : Deadline} {w : World} :
    (atEvent t c i deadline w).ParksIn c := by
  unfold atEvent
  split
  · trivial
  · split
    · rfl
    · trivial

theorem parksIn_endFamily {t : ThreadId} {c : Call} {o : Option (Handles × Option Nat)}
    {w : World} : (endFamily t c o w).ParksIn c := by
  unfold endFamily
  split <;> trivial

theorem parksIn_withEvent {t : ThreadId} {c : Call} {segment : World → Segment} {w : World}
    (h : (segment w).ParksIn c) : (withEvent t c segment w).ParksIn c := by
  unfold withEvent
  split
  · exact h
  · trivial

theorem parksIn_perform {t : ThreadId} {site : Site} {op : Operation} {w : World} :
    (perform t site op w).ParksIn (.single site op) := by
  cases op with
  | enter ms => exact parksIn_requestMillis
  | close ms => exact parksIn_requestMillis
  | enterFor timeout => exact parksIn_request
  | exit => exact parksIn_request
  | closeFor timeout => exact parksIn_request
  | reopen => exact parksIn_request
  | guarded hold timeout name => exact parksIn_request
  | entries => exact parksIn_inspect
  | isClosed => exact parksIn_inspect
  | snapshot => exact parksIn_inspect
  | drop name =>
      simp only [perform]
      split
      · trivial
      · exact parksIn_dispose
  | forget name => trivial
  | signal times =>
      simp only [perform]
      exact parksIn_withEvent parksIn_finish
  | wait => exact parksIn_atEvent
  | waitFor duration =>
      simp only [perform]
      refine parksIn_withEvent ?_
      split
      · trivial
      · exact parksIn_atEvent
  | createHandle name => exact parksIn_withEvent parksIn_endFamily
  | cloneHandle source name => exact parksIn_endFamily
  | dropHandle name => exact parksIn_endFamily
  | failRecords count => trivial

/-- A thread parks in the call of its task. -/
theorem parksIn_attempt {t : ThreadId} {task : Task} {w : World} :
    (attempt t task w).ParksIn task.call := by
  cases task with
  | start c =>
      cases c with
      | single site op => exact parksIn_perform
      | scope site hold timeout body panics => exact parksIn_request
  | resume c wait =>
      cases wait with
      | gate i waiting => exact parksIn_atGate fun _ _ _ => parksIn_conclude
      | event i deadline => exact parksIn_atEvent
  | release c hold gate => exact parksIn_dispose

/-- Releasing a guard never parks. -/
theorem dispose_ne_park {t : ThreadId} {c c' : Call} {hold : Hold} {gate : Nat} {w w' : World}
    {wait : Wait} : dispose t c hold gate w ≠ .park w' c' wait := by
  unfold dispose atGate
  split
  · exact finish_ne_park
  · split
    · rename_i h
      cases hold with
      | entry => exact absurd h Gate.exit_ne_park
      | close => exact absurd h Gate.reopen_ne_park
    · split <;> exact finish_ne_park

/-- A task that parks weighs as much as the call that it parks in. -/
theorem weight_of_attempt_park {t : ThreadId} {task : Task} {w w' : World} {c : Call} {wait : Wait}
    (h : attempt t task w = .park w' c wait) : c.weight = task.weight := by
  have hc : c = task.call := by
    have := @parksIn_attempt t task w
    rwa [h] at this
  cases task with
  | start _ => rw [hc]; rfl
  | resume _ _ => rw [hc]; rfl
  | release c hold gate => exact absurd h dispose_ne_park

/-! ### Deadlines -/

/-- **A thread resumed at or past its deadline does not park again.** -/
theorem attempt_ne_park {t : ThreadId} {c c' : Call} {wait wait' : Wait} {w w' : World} {d : Nat}
    (hd : wait.deadline = some d) (h : d ≤ w.clock) :
    attempt t (resume c wait) w ≠ .park w' c' wait' := by
  cases wait with
  | gate i waiting =>
      simp only [attempt, atGate]
      split
      · exact finish_ne_park
      · split
        · exact absurd ‹_› (Gate.resume_ne_park h hd)
        · split
          · exact finish_ne_park
          · exact conclude_ne_park
  | event i deadline =>
      cases hd
      simp only [attempt, atEvent]
      split
      · exact finish_ne_park
      · split
        · exact absurd ‹_› (Event.await_ne_park h _)
        · exact finish_ne_park

end Task

end ReentrantGate.Script
