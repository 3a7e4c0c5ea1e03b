/-
**Every gate and every event of a system sees a crowd.**

A system looks different from each of its gates: the threads parked there and those woken from there
are a crowd at the gate, and everybody else is idle.  A segment that somebody carries out is then a
segment of the crowd, or the crowd does not notice.  The same goes for events, where the signals of
one call come in a row.

Main definitions:

* `Script.System.crowdAt`, `Script.System.crowdAtEvent` — the crowd at a gate or at an event;
* `Event.Crowd.SignalledTo` — some signals come one after another, and each wakes who has been
  parked longest.

Main results:

* `Script.System.crowdAt_carryOut`, `Script.System.crowdAtEvent_carryOut` — **a segment is noticed
  where it takes place**, and nowhere else.
-/

import ReentrantGate.Proofs.Event.Signals
import ReentrantGate.Proofs.Gate.Orderly
import ReentrantGate.Proofs.Script.Views

set_option relaxedAutoImplicit false
set_option autoImplicit false

namespace ReentrantGate.Script

/-! ### The crowd at a gate -/

/-- Thread `t` as a visitor of gate `i`, if it waits there. -/
def Wait.visitor? (i : Nat) (t : ThreadId) : Wait → Option Gate.Visitor
  | gate j waiting => if j = i then some ⟨t, waiting⟩ else none
  | event .. => none

/-- Who waits at another place is no visitor. -/
theorem Sleeper.visitor?_of_apart {i : Nat} {p : Place} {z : Sleeper} (hz : z.isAt p = true)
    (hp : ∀ r, p ≠ .room i r) : z.seen (Wait.visitor? i) = none := by
  obtain ⟨t, c, wait, rest⟩ := z
  simp only [isAt, decide_eq_true_eq] at hz
  cases wait with
  | event j deadline => rfl
  | gate j waiting =>
      have hj : j ≠ i := by
        rintro rfl
        exact hp waiting.room hz.symm
      simp [seen, Wait.visitor?, hj]

/-- A visitor is in the room in which the thread is parked. -/
theorem Sleeper.isAt_of_visitor? {i : Nat} {z : Sleeper} {v : Gate.Visitor}
    (h : z.seen (Wait.visitor? i) = some v) (r : Gate.Room) :
    z.isAt (.room i r) = decide (some r = some v.waiting.room) := by
  obtain ⟨t, c, wait, rest⟩ := z
  cases wait with
  | event j deadline => cases h
  | gate j waiting =>
      simp only [seen, Wait.visitor?] at h
      split at h
      · rename_i hj
        cases h
        simp [isAt, Wait.place, hj, eq_comm]
      · cases h

/-- A notice for a room of the gate takes out the visitors in that room. -/
theorem Notice.visitors_of_all (i : Nat) (r : Gate.Room) (zs : List Sleeper) :
    (left zs (.all (.room i r))).filterMap (·.seen (Wait.visitor? i)) =
        (zs.filterMap (·.seen (Wait.visitor? i))).filter (fun v => some r ≠ some v.waiting.room) ∧
      (woken zs (.all (.room i r))).filterMap (·.seen (Wait.visitor? i)) =
        (zs.filterMap (·.seen (Wait.visitor? i))).filter
          (fun v => some r = some v.waiting.room) := by
  constructor
  · refine Sleeper.filterMap_filter_seen _ (fun z v hz => ?_) zs
    rw [Sleeper.isAt_of_visitor? hz, decide_not]
  · exact Sleeper.filterMap_filter_seen _ (fun z v hz => Sleeper.isAt_of_visitor? hz r) zs

namespace System

/-- The crowd at gate `i`: who is parked there, and who has been woken from there. -/
def crowdAt (s : System) (i : Nat) : Gate.Crowd where
  gate := (s.world.gates[i]?).getD {}
  parked := s.parkedSeen (Wait.visitor? i)
  woken := s.wokenSeen (Wait.visitor? i)
  clock := s.world.clock

variable {s s' : System} {t : ThreadId} {task : Task} {rest : List Task} {i : Nat} {g : Gate}
  {w : World}

theorem crowdAt_congr (hg : s'.world.gates[i]? = s.world.gates[i]?)
    (hp : s'.parkedSeen (Wait.visitor? i) = s.parkedSeen (Wait.visitor? i))
    (hw : s'.wokenSeen (Wait.visitor? i) = s.wokenSeen (Wait.visitor? i))
    (hc : s'.world.clock = s.world.clock) : s'.crowdAt i = s.crowdAt i := by
  simp only [crowdAt, hg, hp, hw, hc]

/-- A segment of the gate that is over changes the crowd as the gate's crowd says. -/
theorem crowdAt_notify_room (room : Option Gate.Room) (note : Option Gate.Note)
    (verdict : Gate.Verdict) (hg : w.gates[i]? = some g) (hc : w.clock = s.world.clock) :
    ({ s with world := w }.notify (room.map fun r => Notice.all (.room i r)).toList).crowdAt i =
      (s.crowdAt i).absorb t (.done g room note verdict) := by
  cases room with
  | none => simp [notify, crowdAt, Gate.Crowd.absorb, parkedSeen, wokenSeen, hg, hc]
  | some r =>
      obtain ⟨hleft, hwoken⟩ := Notice.visitors_of_all i r s.parked
      have hp := parkedSeen_heed (Wait.visitor? i) { s with world := w } (.all (.room i r))
      have hw := wokenSeen_heed (Wait.visitor? i) { s with world := w } (.all (.room i r))
      rw [hleft] at hp
      rw [hwoken] at hw
      simp only [Option.map_some, Option.toList_some, notify, List.foldl_cons, List.foldl_nil,
        crowdAt, hp, hw]
      simp [heed, Gate.Crowd.absorb, parkedSeen, wokenSeen, hg, hc]

/-- What is over elsewhere is not noticed at the gate. -/
theorem crowdAt_carryOut_of_done {ns : List Notice} {f : Follow}
    (hdone : task.attempt t s.world = .done w ns f) (hrest : ∀ x ∈ rest, x.isResume = false)
    (hg : w.gates[i]? = s.world.gates[i]?) (hc : w.clock = s.world.clock)
    (hns : ∀ n ∈ ns, ∀ r, n.place ≠ .room i r) :
    (s.carryOut t task rest).crowdAt i = s.crowdAt i := by
  obtain ⟨hp, hw⟩ := seen_carryOut_of_apart (Wait.visitor? i) hdone hrest
    fun n hn z hz => Sleeper.visitor?_of_apart hz (hns n hn)
  have hworld := world_carryOut s t task rest
  rw [hdone] at hworld
  exact crowdAt_congr (by rw [hworld]; exact hg) hp hw (by rw [hworld]; exact hc)

/-- Who parks elsewhere is not noticed at the gate. -/
theorem crowdAt_carryOut_of_park {c : Call} {wait : Wait}
    (hpark : task.attempt t s.world = .park w c wait) (hwait : wait.visitor? i t = none)
    (hg : w.gates[i]? = s.world.gates[i]?) (hc : w.clock = s.world.clock) :
    (s.carryOut t task rest).crowdAt i = s.crowdAt i := by
  obtain ⟨hp, hw⟩ := seen_carryOut_park (Wait.visitor? i) hpark rest
  rw [hwait, Option.toList_none, List.append_nil] at hp
  have hworld := world_carryOut s t task rest
  rw [hpark] at hworld
  exact crowdAt_congr (by rw [hworld]; exact hg) hp hw (by rw [hworld]; exact hc)

/-- Who parks at the gate parks in its crowd. -/
theorem crowdAt_carryOut_of_gatePark {c : Call} {g' : Gate} {waiting : Gate.Waiting}
    (hpark : task.attempt t s.world = .park w c (.gate i waiting)) (hg : w.gates[i]? = some g')
    (hc : w.clock = s.world.clock) :
    (s.carryOut t task rest).crowdAt i = (s.crowdAt i).absorb t (.park g' waiting) := by
  obtain ⟨hp, hw⟩ := seen_carryOut_park (Wait.visitor? i) hpark rest
  have hworld := world_carryOut s t task rest
  rw [hpark] at hworld
  simp only [crowdAt, hp, hw, hworld, Segment.world, hg, hc]
  simp [Gate.Crowd.absorb, Wait.visitor?]

/-- What is over at the gate is over in its crowd, and the notices go to the visitors there. -/
theorem crowdAt_carryOut_of_gateDone {g' : Gate} {room : Option Gate.Room}
    {note : Option Gate.Note} {verdict : Gate.Verdict} {f : Follow}
    (hdone : task.attempt t s.world = .done w (room.map fun r => Notice.all (.room i r)).toList f)
    (hrest : ∀ x ∈ rest, x.isResume = false) (hg : w.gates[i]? = some g')
    (hc : w.clock = s.world.clock) :
    (s.carryOut t task rest).crowdAt i = (s.crowdAt i).absorb t (.done g' room note verdict) := by
  rw [← crowdAt_notify_room (t := t) room note verdict hg hc]
  obtain ⟨hp, hw⟩ := seen_carryOut_done (Wait.visitor? i) hdone hrest
  have hworld := world_carryOut s t task rest
  rw [hdone] at hworld
  exact crowdAt_congr (by rw [hworld, world_notify]; rfl) hp hw (by rw [hworld, world_notify]; rfl)

/-- **A segment is noticed at the gate where it takes place**, as a segment of the crowd there, and
nowhere else; `s` are the others. -/
theorem crowdAt_carryOut (hg : s.world.gates[i]? = some g)
    (hrest : ∀ x ∈ rest, x.isResume = false) :
    (∃ segment, task.AtGate t s.world.clock g i segment ∧
        (s.carryOut t task rest).crowdAt i = (s.crowdAt i).absorb t segment) ∨
      (∀ c waiting, task ≠ .resume c (.gate i waiting)) ∧
        (s.carryOut t task rest).crowdAt i = s.crowdAt i := by
  have he := task.attempt_effect t s.world
  have hlt : i < s.world.gates.length := (List.getElem?_eq_some_iff.1 hg).1
  generalize hseg : task.attempt t s.world = seg at he
  cases he with
  | @gatePark j g₀ g' waiting w' hj hat hw =>
      by_cases hji : j = i
      · subst hji
        obtain rfl : g₀ = g := Option.some.inj (hj.symm.trans hg)
        refine .inl ⟨_, hat, crowdAt_carryOut_of_gatePark hseg ?_ hw.clock⟩
        rw [hw.gates, World.setGate, List.getElem?_set_self hlt]
      · refine .inr ⟨hat.ne_resume hji, crowdAt_carryOut_of_park hseg ?_ ?_ hw.clock⟩
        · simp [Wait.visitor?, hji]
        · rw [hw.gates, World.setGate, List.getElem?_set_ne hji]
  | @gateDone j g₀ g' room note verdict w' follow hj hat hw _ =>
      by_cases hji : j = i
      · subst hji
        obtain rfl : g₀ = g := Option.some.inj (hj.symm.trans hg)
        refine .inl ⟨_, hat, crowdAt_carryOut_of_gateDone hseg hrest ?_ hw.clock⟩
        rw [hw.gates, World.setGate, List.getElem?_set_self hlt]
      · refine .inr ⟨hat.ne_resume hji, crowdAt_carryOut_of_done hseg hrest ?_ hw.clock ?_⟩
        · rw [hw.gates, World.setGate, List.getElem?_set_ne hji]
        · intro n hn r
          cases room with
          | none => cases hn
          | some r' =>
              rw [List.mem_singleton.1 hn]
              simp [Notice.place, hji]
  | eventPark _ hat _ =>
      exact .inr ⟨hat.ne_resume_gate, crowdAt_carryOut_of_park hseg rfl rfl rfl⟩
  | eventDone _ hat _ hw =>
      exact .inr ⟨hat.ne_resume_gate,
        crowdAt_carryOut_of_done hseg hrest (by rw [hw.gates]; rfl) hw.clock (by simp)⟩
  | signal hr hw =>
      refine .inr ⟨fun c waiting => Task.ne_resume hr c _,
        crowdAt_carryOut_of_done hseg hrest ?_ ?_ ?_⟩
      · rw [hw.gates]
        split <;> rfl
      · rw [hw.clock]
        split <;> rfl
      · intro n hn r
        rw [List.eq_of_mem_replicate hn]
        simp [Notice.place]
  | apart hm hw =>
      refine .inr ⟨?_, crowdAt_carryOut_of_done hseg hrest (by rw [hw.gates]) hw.clock (by simp)⟩
      rintro c waiting rfl
      have hnone := hm _ _ rfl
      simp only [Wait.Missing, hg] at hnone
      cases hnone

end System

/-! ### The crowd at an event -/

/-- Thread `t` as a visitor of event `i`, if it waits there. -/
def Wait.guest? (i : Nat) (t : ThreadId) : Wait → Option Event.Visitor
  | gate .. => none
  | event j deadline => if j = i then some ⟨t, deadline⟩ else none

/-- Who waits at another place is no visitor of the event. -/
theorem Sleeper.guest?_of_apart {i : Nat} {p : Place} {z : Sleeper} (hz : z.isAt p = true)
    (hp : p ≠ .event i) : z.seen (Wait.guest? i) = none := by
  obtain ⟨t, c, wait, rest⟩ := z
  simp only [isAt, decide_eq_true_eq] at hz
  cases wait with
  | gate j waiting => rfl
  | event j deadline =>
      have hj : j ≠ i := by
        rintro rfl
        exact hp hz.symm
      simp [seen, Wait.guest?, hj]

/-- Whoever is parked at the event is a visitor, and nobody else. -/
theorem Sleeper.guest?_eq_none_iff {i : Nat} {z : Sleeper} :
    z.seen (Wait.guest? i) = none ↔ z.isAt (.event i) = false := by
  obtain ⟨t, c, wait, rest⟩ := z
  cases wait with
  | gate j waiting => simp [seen, Wait.guest?, isAt, Wait.place]
  | event j deadline => simp [seen, Wait.guest?, isAt, Wait.place]

end ReentrantGate.Script

namespace ReentrantGate.Event.Crowd

variable {c c' : Crowd} {e : Event} {t : ThreadId} {deadline : Deadline}

/-- Some signals come in a row, and each wakes the thread that has been parked longest. -/
inductive SignalledTo : Crowd → Crowd → Prop
  | refl {c : Crowd} : SignalledTo c c
  | signal {c d c' : Crowd} {o : Option Occurrence} : c.act (.signal 0) = some (d, o) →
      SignalledTo d c' → SignalledTo c c'

theorem Reachable.signalled (h : c.Reachable) (hs : c.SignalledTo c') : c'.Reachable := by
  induction hs with
  | refl => exact h
  | signal ha _ ih => exact ih (h.act ha)

theorem look_of_park (h : c.event.await deadline c.clock = .park) :
    (c.look t deadline).1 = { c with parked := c.parked ++ [⟨t, deadline⟩] } := by
  simp only [look, h]

theorem look_of_done {success : Bool} (h : c.event.await deadline c.clock = .done e success) :
    (c.look t deadline).1 = { c with event := e } := by
  cases success <;> simp only [look, h]

end ReentrantGate.Event.Crowd

namespace ReentrantGate.Script.System

/-- The crowd at event `i`: who is parked there, and who has been woken from there. -/
def crowdAtEvent (s : System) (i : Nat) : Event.Crowd where
  event := (s.world.events[i]?).getD {}
  parked := s.parkedSeen (Wait.guest? i)
  woken := s.wokenSeen (Wait.guest? i)
  clock := s.world.clock

variable {s s' : System} {t : ThreadId} {task : Task} {rest : List Task} {i : Nat} {e : Event}
  {w : World}

theorem crowdAtEvent_congr (he : s'.world.events[i]? = s.world.events[i]?)
    (hp : s'.parkedSeen (Wait.guest? i) = s.parkedSeen (Wait.guest? i))
    (hw : s'.wokenSeen (Wait.guest? i) = s.wokenSeen (Wait.guest? i))
    (hc : s'.world.clock = s.world.clock) : s'.crowdAtEvent i = s.crowdAtEvent i := by
  simp only [crowdAtEvent, he, hp, hw, hc]

/-- A notice for one thread at the event, with the flag set, is a signal to the crowd. -/
theorem crowdAtEvent_heed (he : w.events[i]? = some ⟨true⟩) (hc : w.clock = s.world.clock) :
    ∃ o, (s.crowdAtEvent i).act (.signal 0) =
      some (({ s with world := w }.heed (.one (.event i))).crowdAtEvent i, o) := by
  have hp := parkedSeen_heed (Wait.guest? i) { s with world := w } (.one (.event i))
  have hw := wokenSeen_heed (Wait.guest? i) { s with world := w } (.one (.event i))
  have hgone : ∀ {zs : List Sleeper}, (∀ z ∈ zs, z.isAt (.event i) = false) →
      zs.filterMap (·.seen (Wait.guest? i)) = [] := fun h =>
    List.filterMap_eq_nil_iff.2 fun z hz => Sleeper.guest?_eq_none_iff.2 (h z hz)
  refine ⟨some (.signalled (s.crowdAtEvent i).event.set), ?_⟩
  simp only [Event.Crowd.act, Event.signal, crowdAtEvent, hp, hw]
  rcases Notice.one_cases (.event i) s.parked with
    ⟨hall, hleft, hwoken⟩ | ⟨as, z, bs, hzs, has, hz, hleft, hwoken⟩
  · have hparked : s.parkedSeen (Wait.guest? i) = [] := hgone hall
    simp only [hleft, hwoken, hparked, hgone hall]
    simp [heed, wokenSeen, he, hc]
  · cases hv : z.seen (Wait.guest? i) with
    | none =>
        rw [Sleeper.guest?_eq_none_iff, hz] at hv
        cases hv
    | some v =>
        have hparked : s.parkedSeen (Wait.guest? i) =
            v :: bs.filterMap (·.seen (Wait.guest? i)) := by
          simp [parkedSeen, hzs, hgone has, hv]
        simp only [hleft, hwoken, hparked]
        simp [heed, wokenSeen, he, hc, hv, hgone has]

/-- The notices of several signals are several signals to the crowd. -/
theorem crowdAtEvent_notify (he : w.events[i]? = some ⟨true⟩) (hc : w.clock = s.world.clock)
    (n : Nat) :
    (s.crowdAtEvent i).SignalledTo
      (({ s with world := w }.notify (List.replicate (n + 1) (.one (.event i)))).crowdAtEvent
        i) := by
  induction n generalizing s with
  | zero =>
      obtain ⟨o, ha⟩ := crowdAtEvent_heed he hc
      exact .signal ha .refl
  | succ n ih =>
      obtain ⟨o, ha⟩ := crowdAtEvent_heed he hc
      exact .signal ha (@ih ({ s with world := w }.heed (.one (.event i))) rfl)

/-- What is over elsewhere is not noticed at the event. -/
theorem crowdAtEvent_carryOut_of_done {ns : List Notice} {f : Follow}
    (hdone : task.attempt t s.world = .done w ns f) (hrest : ∀ x ∈ rest, x.isResume = false)
    (he : w.events[i]? = s.world.events[i]?) (hc : w.clock = s.world.clock)
    (hns : ∀ n ∈ ns, n.place ≠ .event i) :
    (s.carryOut t task rest).crowdAtEvent i = s.crowdAtEvent i := by
  obtain ⟨hp, hw⟩ := seen_carryOut_of_apart (Wait.guest? i) hdone hrest
    fun n hn z hz => Sleeper.guest?_of_apart hz (hns n hn)
  have hworld := world_carryOut s t task rest
  rw [hdone] at hworld
  exact crowdAtEvent_congr (by rw [hworld]; exact he) hp hw (by rw [hworld]; exact hc)

/-- Who parks elsewhere is not noticed at the event. -/
theorem crowdAtEvent_carryOut_of_park {c : Call} {wait : Wait}
    (hpark : task.attempt t s.world = .park w c wait) (hwait : wait.guest? i t = none)
    (he : w.events[i]? = s.world.events[i]?) (hc : w.clock = s.world.clock) :
    (s.carryOut t task rest).crowdAtEvent i = s.crowdAtEvent i := by
  obtain ⟨hp, hw⟩ := seen_carryOut_park (Wait.guest? i) hpark rest
  rw [hwait, Option.toList_none, List.append_nil] at hp
  have hworld := world_carryOut s t task rest
  rw [hpark] at hworld
  exact crowdAtEvent_congr (by rw [hworld]; exact he) hp hw (by rw [hworld]; exact hc)

/-- Who parks at the event looks at it and parks in its crowd. -/
theorem crowdAtEvent_carryOut_of_eventPark {c : Call} {deadline : Deadline}
    (hpark : task.attempt t s.world = .park s.world c (.event i deadline))
    (he : s.world.events[i]? = some e) (hlook : e.await deadline s.world.clock = .park) :
    (s.carryOut t task rest).crowdAtEvent i = ((s.crowdAtEvent i).look t deadline).1 := by
  have hevent : (s.crowdAtEvent i).event = e := by simp [crowdAtEvent, he]
  rw [Event.Crowd.look_of_park (by rw [hevent]; exact hlook)]
  obtain ⟨hp, hw⟩ := seen_carryOut_park (Wait.guest? i) hpark rest
  have hworld := world_carryOut s t task rest
  rw [hpark] at hworld
  simp [crowdAtEvent, hp, hw, hworld, Segment.world, Wait.guest?]

/-- Whose wait is over has looked at the event. -/
theorem crowdAtEvent_carryOut_of_eventDone {e' : Event} {deadline : Deadline} {success : Bool}
    {f : Follow} (hdone : task.attempt t s.world = .done w [] f)
    (hrest : ∀ x ∈ rest, x.isResume = false) (he : s.world.events[i]? = some e)
    (hlook : e.await deadline s.world.clock = .done e' success)
    (hw : w.Follows (s.world.setEvent i e')) :
    (s.carryOut t task rest).crowdAtEvent i = ((s.crowdAtEvent i).look t deadline).1 := by
  have hevent : (s.crowdAtEvent i).event = e := by simp [crowdAtEvent, he]
  have hlt : i < s.world.events.length := (List.getElem?_eq_some_iff.1 he).1
  rw [Event.Crowd.look_of_done (by rw [hevent]; exact hlook)]
  obtain ⟨hp, hwoken⟩ := seen_carryOut_of_apart (Wait.guest? i) hdone hrest (by simp)
  have hworld := world_carryOut s t task rest
  rw [hdone] at hworld
  simp [crowdAtEvent, hp, hwoken, hworld, Segment.world, hw.events, hw.clock, World.setEvent, hlt]

/-- Signals of one call are signals to the crowd at the event, and nothing at any other. -/
theorem crowdAtEvent_carryOut_of_signals {j times : Nat} {f : Follow}
    (hdone : task.attempt t s.world = .done w (.replicate times (.one (.event j))) f)
    (hrest : ∀ x ∈ rest, x.isResume = false)
    (hw : w.Follows (if times = 0 then s.world else s.world.signal j))
    (he : s.world.events[i]? = some e) :
    (s.crowdAtEvent i).SignalledTo ((s.carryOut t task rest).crowdAtEvent i) := by
  have hclock : w.clock = s.world.clock := by
    rw [hw.clock]
    split <;> rfl
  by_cases hji : j = i
  · subst hji
    cases times with
    | zero =>
        rw [crowdAtEvent_carryOut_of_done hdone hrest (by rw [hw.events]; rfl) hclock (by simp)]
        exact .refl
    | succ n =>
        have hset : w.events[j]? = some ⟨true⟩ := by
          rw [hw.events]
          simp [World.signal, he, Event.signal]
        obtain ⟨hp, hwoken⟩ := seen_carryOut_done (Wait.guest? j) hdone hrest
        have hworld := world_carryOut s t task rest
        rw [hdone] at hworld
        rw [crowdAtEvent_congr (by rw [hworld, world_notify]; rfl) hp hwoken
          (by rw [hworld, world_notify]; rfl)]
        exact crowdAtEvent_notify hset hclock n
  · rw [crowdAtEvent_carryOut_of_done hdone hrest ?_ hclock ?_]
    · exact .refl
    · rw [hw.events]
      split
      · rfl
      · simp [World.signal, hji]
    · intro n hn
      rw [List.eq_of_mem_replicate hn]
      simp [Notice.place, hji]

/-- **A segment is noticed at the event where it takes place**, as a look of its thread or as
signals, and nowhere else; `s` are the others. -/
theorem crowdAtEvent_carryOut (he : s.world.events[i]? = some e)
    (hrest : ∀ x ∈ rest, x.isResume = false) :
    (∃ deadline, task.AtEvent s.world.clock i deadline ∧
        (s.carryOut t task rest).crowdAtEvent i = ((s.crowdAtEvent i).look t deadline).1) ∨
      (∀ c deadline, task ≠ .resume c (.event i deadline)) ∧
        (s.crowdAtEvent i).SignalledTo ((s.carryOut t task rest).crowdAtEvent i) := by
  have heff := task.attempt_effect t s.world
  generalize hseg : task.attempt t s.world = seg at heff
  cases heff with
  | gatePark _ hat hw =>
      rw [crowdAtEvent_carryOut_of_park hseg rfl (by rw [hw.events]; rfl) hw.clock]
      exact .inr ⟨hat.ne_resume_event, .refl⟩
  | @gateDone j g g' room note verdict w' follow hj hat hw _ =>
      rw [crowdAtEvent_carryOut_of_done hseg hrest (by rw [hw.events]; rfl) hw.clock]
      · exact .inr ⟨hat.ne_resume_event, .refl⟩
      · intro n hn
        cases room with
        | none => cases hn
        | some r' =>
            rw [List.mem_singleton.1 hn]
            simp [Notice.place]
  | @eventPark j e' deadline hj hat hpark =>
      by_cases hji : j = i
      · subst hji
        exact .inl ⟨deadline, hat, crowdAtEvent_carryOut_of_eventPark hseg hj hpark⟩
      · rw [crowdAtEvent_carryOut_of_park hseg (by simp [Wait.guest?, hji]) rfl rfl]
        exact .inr ⟨hat.ne_resume hji, .refl⟩
  | @eventDone j e' e'' deadline success w' hj hat hdone hw =>
      by_cases hji : j = i
      · subst hji
        exact .inl ⟨deadline, hat, crowdAtEvent_carryOut_of_eventDone hseg hrest hj hdone hw⟩
      · rw [crowdAtEvent_carryOut_of_done hseg hrest ?_ hw.clock (by simp)]
        · exact .inr ⟨hat.ne_resume hji, .refl⟩
        · rw [hw.events, World.setEvent, List.getElem?_set_ne hji]
  | signal hr hw =>
      exact .inr ⟨fun c deadline => Task.ne_resume hr c _,
        crowdAtEvent_carryOut_of_signals hseg hrest hw he⟩
  | apart hm hw =>
      rw [crowdAtEvent_carryOut_of_done hseg hrest (by rw [hw.events]) hw.clock (by simp)]
      refine .inr ⟨?_, .refl⟩
      rintro c waiting rfl
      have hnone := hm _ _ rfl
      simp only [Wait.Missing, he] at hnone
      cases hnone

end ReentrantGate.Script.System
