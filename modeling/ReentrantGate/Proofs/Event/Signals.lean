/-
**No signal is lost.**

A signal wakes one thread only, and that thread may find the flag taken by another, or may have been
about to give up.  Neither does any harm: a set flag never has threads parked behind it unless one
of the woken ones is still to look, and whoever looks at a set flag takes it, however late it is.

Main definitions:

* `Event.Crowd.Step` — what an action can do;
* `Event.Crowd.Alert` — somebody is awake if the flag is set and somebody is parked.

Main results:

* `Event.Crowd.act_step` — **every action is on the list**;
* `Event.Crowd.run_induction` — what actions keep holds after every run;
* `Event.Crowd.Reachable.alert` — every crowd that can come about is alert;
* `Event.Crowd.act_resume_of_set` — whoever looks at a set flag takes it;
* `Event.Household.no_lost_signal` — **no signal is lost**.
-/

import Mathlib.Data.List.Induction
import ReentrantGate.Event.Household

set_option relaxedAutoImplicit false
set_option autoImplicit false

namespace ReentrantGate.Event

/-! ### One look -/

theorem await_of_set {e : Event} (h : e.set = true) (deadline : Deadline) (now : Nat) :
    e.await deadline now = .done ⟨false⟩ true := by
  unfold await
  rw [look_eq_ready.2 h]

/-- A look at a flag that is not set leaves it alone, whether the thread parks or gives up. -/
theorem await_of_not_set {e : Event} (h : e.set = false) (deadline : Deadline) (now : Nat) :
    e.await deadline now = .park ∨ e.await deadline now = .done e false := by
  unfold await
  cases hl : ReentrantGate.look e.set deadline now with
  | ready =>
      rw [look_eq_ready, h] at hl
      cases hl
  | expired => exact .inr rfl
  | park left => exact .inl rfl

namespace Crowd

variable {c c' : Crowd} {a : Action} {o : Option Occurrence} {t : ThreadId}

/-! ### The list -/

/-- **What an action can do** to the flag, to the threads that are there, and to the history. -/
inductive Step (c : Crowd) : Crowd → Option Occurrence → Prop
  | signal (pick : Nat) :
      Step c { c with
        event := ⟨true⟩
        parked := c.parked.eraseIdx (pick % c.parked.length)
        woken := c.woken ++ c.parked[pick % c.parked.length]?.toList }
        (some (.signalled c.event.set))
  | succeed {t : ThreadId} {ws : List Visitor} : c.event.set = true →
      Step c { c with event := ⟨false⟩, woken := ws } (some (.succeeded t))
  | giveUp {t : ThreadId} {ws : List Visitor} : c.event.set = false →
      Step c { c with woken := ws } (some (.gaveUp t))
  | park {v : Visitor} {ws : List Visitor} : c.event.set = false →
      Step c { c with parked := c.parked ++ [v], woken := ws } none
  | overflow {t : ThreadId} : Step c c (some (.overflowed t))
  | rouse {v : Visitor} {ps : List Visitor} :
      Step c { c with parked := ps, woken := c.woken ++ [v] } none
  | tick {ns : Nat} : Step c { c with clock := c.clock + ns } none

/-- A thread that looks at the flag takes it if it is set; if not it gives up or parks. -/
theorem look_step (c : Crowd) (ws : List Visitor) (t : ThreadId) (deadline : Deadline) :
    Step c ({ c with woken := ws }.look t deadline).1
      ({ c with woken := ws }.look t deadline).2 := by
  cases hs : c.event.set with
  | true =>
      simp only [Crowd.look, await_of_set hs]
      exact .succeed hs
  | false =>
      rcases await_of_not_set hs deadline c.clock with ha | ha
      · simp only [Crowd.look, ha]
        exact .park hs
      · simp only [Crowd.look, ha]
        exact .giveUp hs

/-- **Every action is on the list.** -/
theorem act_step (ha : c.act a = some (c', o)) : Step c c' o := by
  cases a with
  | signal pick =>
      cases ha
      exact .signal pick
  | wait t limit =>
      simp only [act] at ha
      split at ha
      · split at ha
        · cases ha
          exact .overflow
        · rename_i deadline _
          obtain ⟨rfl, rfl⟩ := Prod.mk.inj (Option.some.inj ha)
          exact look_step c c.woken t deadline
      · cases ha
  | resume t =>
      obtain ⟨v, -, ha⟩ := Option.map_eq_some_iff.1 ha
      obtain ⟨rfl, rfl⟩ := Prod.mk.inj ha
      exact look_step c _ t v.deadline
  | rouse t =>
      obtain ⟨v, -, ha⟩ := Option.map_eq_some_iff.1 ha
      cases ha
      exact .rouse
  | tick ns =>
      cases ha
      exact .tick

/-! ### What every run keeps -/

theorem run_append (c : Crowd) (as bs : List Action) :
    c.run (as ++ bs) = (c.run as).bind fun p => (p.1.run bs).map fun q => (q.1, p.2 ++ q.2) := by
  induction as generalizing c with
  | nil => simp [run]
  | cons a as ih =>
      simp only [List.cons_append, run]
      cases c.act a with
      | none => rfl
      | some p =>
          simp only [ih]
          cases p.1.run as with
          | none => rfl
          | some q => simp [Function.comp_def, List.append_assoc]

/-- What can happen leads from reachable crowds to reachable crowds. -/
theorem Reachable.act (h : c.Reachable) (ha : c.act a = some (c', o)) : c'.Reachable := by
  obtain ⟨as, history, hr⟩ := h
  exact ⟨as ++ [a], history ++ o.toList, by simp [run_append, hr, run, ha]⟩

/-- **What holds of a fresh event and is kept by every action holds after every run**, of the crowd
and of all that is over. -/
theorem run_induction {P : Crowd → List Occurrence → Prop} (start : P {} [])
    (step : ∀ c history c' o, P c history → Step c c' o → P c' (history ++ o.toList))
    {as : List Action} {c : Crowd} {history : List Occurrence}
    (h : run {} as = some (c, history)) : P c history := by
  induction as using List.reverseRecOn generalizing c history with
  | nil =>
      cases h
      exact start
  | append_singleton as a ih =>
      -- the last action of a run starts from the crowd that the others lead to
      rw [run_append] at h
      obtain ⟨⟨b, before⟩, hb, h⟩ := Option.bind_eq_some_iff.1 h
      obtain ⟨⟨e, after⟩, he, h⟩ := Option.map_eq_some_iff.1 h
      cases h
      simp only [run] at he
      cases ha : b.act a with
      | none => simp [ha] at he
      | some p =>
          obtain ⟨c', o⟩ := p
          simp only [ha, Option.map_some, Option.some.injEq, Prod.mk.injEq] at he
          obtain ⟨rfl, rfl⟩ := he
          simpa using step b before c' o (ih hb) (act_step ha)

/-! ### Somebody is awake -/

/-- If the flag is set and somebody is parked, then somebody has been woken and has not looked. -/
def Alert (c : Crowd) : Prop := c.event.set = true → c.parked ≠ [] → c.woken ≠ []

/-- **Every action keeps a crowd alert.** -/
theorem Step.alert (hs : Step c c' o) (h : c.Alert) : c'.Alert := by
  cases hs with
  | signal pick =>
      intro _ hp hw
      -- if somebody is left then somebody was there to be woken
      have hpos : 0 < c.parked.length := by
        rw [List.length_pos_iff]
        rintro hnil
        simp [hnil] at hp
      have hlt := Nat.mod_lt pick hpos
      simp [List.getElem?_eq_getElem hlt] at hw
  | succeed _ =>
      intro hset
      cases hset
  | giveUp hs =>
      intro hset
      rw [hs] at hset
      cases hset
  | park hs =>
      intro hset
      rw [hs] at hset
      cases hset
  | overflow => exact h
  | rouse =>
      intro _ _ hw
      simp at hw
  | tick => exact h

/-- **Every crowd that can come about is alert.** -/
theorem Reachable.alert (h : c.Reachable) : c.Alert := by
  obtain ⟨as, history, hr⟩ := h
  refine run_induction (P := fun c _ => c.Alert) ?_ (fun _ _ _ _ ih hs => hs.alert ih) hr
  intro hset
  cases hset

/-- At rest nobody is parked behind a set flag. -/
theorem Alert.parked_eq_nil (h : c.Alert) (hw : c.woken = []) (hs : c.event.set = true) :
    c.parked = [] := by
  by_contra hp
  exact h hs hp hw

/-- **Whoever looks at a set flag takes it**, at whatever time. -/
theorem act_resume_of_set {v : Visitor} (hv : v ∈ c.woken) (hs : c.event.set = true) :
    c.act (.resume v.thread) =
      some ({ c with
        event := ⟨false⟩
        woken := c.woken.eraseP (·.thread = v.thread) }, some (.succeeded v.thread)) := by
  have hfound : (c.woken.find? (·.thread = v.thread)).isSome = true := by
    rw [List.find?_isSome]
    exact ⟨v, hv, by simp⟩
  obtain ⟨x, hx⟩ := Option.isSome_iff_exists.1 hfound
  simp only [act, hx, Option.map_some, Crowd.look, await_of_set hs]

end Crowd

/-! ### No signal is lost -/

/-- **No signal is lost.**  In every household that can come about, if the flag is set and somebody
is parked then there is a thread that has been woken and has not looked yet.  Any such thread that
looks while the flag is set takes it and succeeds, however much later it is and whatever its
deadline.  So once nobody is left to look, the flag is set only if nobody is parked. -/
theorem Household.no_lost_signal {h : Household} (hr : h.Reachable) :
    (h.crowd.event.set = true → h.crowd.parked ≠ [] → ∃ v, v ∈ h.crowd.woken) ∧
      (∀ v ∈ h.crowd.woken, ∀ ns, h.crowd.event.set = true →
        { h.crowd with clock := h.crowd.clock + ns }.act (.resume v.thread) =
          some ({ h.crowd with
            event := ⟨false⟩
            woken := h.crowd.woken.eraseP (·.thread = v.thread)
            clock := h.crowd.clock + ns }, some (.succeeded v.thread))) ∧
      (h.crowd.woken = [] → h.crowd.event.set = true → h.crowd.parked = []) := by
  have halert := hr.crowd.alert
  refine ⟨fun hs hp => ?_, fun v hv ns hs => ?_, fun hw hs => halert.parked_eq_nil hw hs⟩
  · exact List.exists_mem_of_ne_nil _ (halert hs hp)
  · exact Crowd.act_resume_of_set (c := { h.crowd with clock := h.crowd.clock + ns }) hv hs

/-- Two threads wait, the second until a deadline; the last handle of a family is dropped and the
signal wakes the second, a third thread takes the flag, and one more signal comes.  The second
thread, still to look, takes it well after its deadline. -/
theorem Household.no_lost_signal_of_thief :
    let a : ThreadId := ⟨"a"⟩
    let b : ThreadId := ⟨"b"⟩
    let h : Household := ⟨⟨⟨true⟩, [], [⟨b, some 5⟩, ⟨a, none⟩], 3⟩, ⟨[], 1⟩⟩
    let k : Household := ⟨⟨⟨true⟩, [⟨a, none⟩], [⟨b, some 5⟩], 3⟩, ⟨[], 1⟩⟩
    h.Reachable ∧ k.Reachable ∧ (∃ v, v ∈ k.crowd.woken) ∧
      { k.crowd with clock := 3 + 7 }.act (.resume b) =
        some (⟨⟨false⟩, [⟨a, none⟩], [], 10⟩, some (.succeeded b)) := by
  intro a b h k
  have hk : k.Reachable :=
    ⟨[.inCrowd (.wait a none), .inCrowd (.wait b (some ⟨0, 5⟩)), .create "x" 0, .inCrowd (.tick 3),
      .drop "x" 1], _, rfl⟩
  have hh : h.Reachable :=
    ⟨[.inCrowd (.wait a none), .inCrowd (.wait b (some ⟨0, 5⟩)), .create "x" 0, .inCrowd (.tick 3),
      .drop "x" 1, .inCrowd (.wait ⟨"d"⟩ none), .inCrowd (.signal 0)], _, rfl⟩
  obtain ⟨hawake, htake, -⟩ := no_lost_signal hk
  exact ⟨hh, hk, hawake rfl (by decide), htake ⟨b, some 5⟩ (by decide) 7 rfl⟩

end ReentrantGate.Event
