/-
**A journal told in another way.**

No segment looks at a label, or at what the journal says: all that segments do is to add lines at
its end.  So if the calls have other labels, and the journal is told in another way to which lines
can be added just as well, then every segment is the same, but for the labels in the lines that it
adds.

Main definitions:

* `Script.Retelling` — other labels, and another way to tell a journal;
* `Script.Retelling.translation` — a system that is retold, as a translation.

Main results:

* `Script.attempt_retell` — **every segment is retold**;
* `Script.attempt_journal` — a segment adds the same lines to every journal.
-/

import ReentrantGate.Proofs.Script.Translation
import ReentrantGate.Script.Labels

set_option relaxedAutoImplicit false
set_option autoImplicit false

namespace ReentrantGate.Script

/-- **Another way to tell a journal**, with other labels: a line is added as it is, but for its
label. -/
structure Retelling where
  label : Nat → Nat
  lines : List Entry → List Entry
  lines_append : ∀ js e, lines (js ++ [e]) = lines js ++ [e.relabel label]

/-- The world with its journal retold. -/
def World.retell (x : Retelling) (w : World) : World := { w with journal := x.lines w.journal }

/-- **A system that is retold.** -/
def Retelling.translation (x : Retelling) : Translation where
  world := World.retell x
  call := Call.relabel x.label
  wait _ w := w
  gates_world _ := rfl
  clock_world _ := rfl
  world_clock _ _ := rfl
  place_wait _ _ := rfl
  call_single site op := ⟨site.relabel x.label, op, rfl⟩
  call_scope site hold timeout body panics :=
    ⟨site.relabel x.label, rfl, by rw [Call.relabel, Call.relabelAll_eq_map]⟩

variable (x : Retelling) {t : ThreadId} {c : Call} {w : World} {i : Nat}

/-! ### Calls and worlds -/

@[simp] theorem Call.site_relabel (f : Nat → Nat) (c : Call) :
    (c.relabel f).site = c.site.relabel f := by
  cases c <;> rfl

@[simp] theorem Call.name_relabel (f : Nat → Nat) (c : Call) : (c.relabel f).name = c.name := by
  cases c <;> rfl

theorem World.emit_retell (note : Option Gate.Note) :
    (w.retell x).emit note = ((w.emit note).1.retell x, (w.emit note).2) := by
  cases note with
  | none => rfl
  | some note =>
      obtain ⟨gates, events, handles, guards, clock, failing, silent, journal⟩ := w
      cases silent with
      | true => rfl
      | false =>
          cases failing with
          | zero => simp [emit, retell, x.lines_append, Entry.relabel]
          | succ n => rfl

theorem Task.finish_retell (r : Result) (ns : List Notice) :
    finish t (c.relabel x.label) r ns (w.retell x) =
      x.translation.segment (finish t c r ns w) := by
  simp [finish, World.report, World.retell, Retelling.translation, Translation.segment,
    x.lines_append, Entry.relabel, Site.relabel]

theorem Task.conclude_retell (v : Gate.Verdict) (ns : List Notice) :
    conclude t (c.relabel x.label) v ns (w.retell x) =
      x.translation.segment (conclude t c v ns w) := by
  have hfinish := @finish_retell x t c w (ofVerdict v) ns
  cases c with
  | scope site hold timeout body panics =>
      cases v with
      | granted => rfl
      | timedOut => exact hfinish
      | released => exact hfinish
      | misused u => exact hfinish
      | overflowed => exact hfinish
  | single site op =>
      cases op with
      | guarded hold timeout name =>
          cases v with
          | granted =>
              simp only [Call.relabel, conclude]
              have hguard : (w.retell x).guard? t name = w.guard? t name := rfl
              rw [hguard]
              cases w.guard? t name with
              | none =>
                  exact @finish_retell x t (.single site (.guarded hold timeout name))
                    (w.keep ⟨t, name, hold, site.gate⟩) _ ns
              | some old => rfl
          | timedOut => exact hfinish
          | released => exact hfinish
          | misused u => exact hfinish
          | overflowed => exact hfinish
      | _ => cases v <;> exact hfinish

/-! ### Segments -/

namespace Task

theorem atGate_retell {segment : Gate → Gate.Segment}
    {k k' : Gate.Verdict → List Notice → World → Segment}
    (hk : ∀ v ns w, k' v ns (w.retell x) = x.translation.segment (k v ns w)) :
    atGate t (c.relabel x.label) i segment k' (w.retell x) =
      x.translation.segment (atGate t c i segment k w) := by
  have hgates : (w.retell x).gates = w.gates := rfl
  unfold atGate
  rw [hgates]
  cases w.gates[i]? with
  | none => exact finish_retell x _ _
  | some g =>
      dsimp only
      cases segment g with
      | park g' waiting => rfl
      | done g' room note verdict =>
          have hset : (w.retell x).setGate i g' = (w.setGate i g').retell x := rfl
          simp only [hset, World.emit_retell]
          cases (w.setGate i g').emit note with
          | mk w' failed =>
              cases failed with
              | true => exact finish_retell x _ _
              | false => exact hk ..

theorem request_retell (r : Gate.Request) :
    request t (c.relabel x.label) r (w.retell x) = x.translation.segment (request t c r w) := by
  unfold request
  rw [Call.site_relabel]
  exact atGate_retell x fun v ns w => conclude_retell x v ns

theorem requestMillis_retell (ms : Int) (r : Timeout → Gate.Request) :
    requestMillis t (c.relabel x.label) ms r (w.retell x) =
      x.translation.segment (requestMillis t c ms r w) := by
  unfold requestMillis
  cases Timeout.ofMillis? ms with
  | none => exact finish_retell x _ _
  | some timeout => exact request_retell x _

theorem ofDrop_retell (c : Call) (hold : Hold) (v : Gate.Verdict) :
    ofDrop (c.relabel x.label) hold v = ofDrop c hold v := by
  have hrelease : ofRelease (c.relabel x.label) = ofRelease c := by
    cases c with
    | single site op => cases op <;> rfl
    | scope site hold timeout body panics => rfl
  cases v with
  | released => exact hrelease
  | granted => rfl
  | timedOut => rfl
  | misused u => rfl
  | overflowed => rfl

theorem dispose_retell (hold : Hold) :
    dispose t (c.relabel x.label) hold i (w.retell x) =
      x.translation.segment (dispose t c hold i w) :=
  atGate_retell x fun v ns w => by
    rw [ofDrop_retell]
    exact finish_retell x _ ns

theorem inspect_retell (look : Gate → Result) :
    inspect t (c.relabel x.label) look (w.retell x) =
      x.translation.segment (inspect t c look w) := by
  have hgates : (w.retell x).gates = w.gates := rfl
  unfold inspect
  rw [Call.site_relabel, hgates]
  simp only [Site.relabel]
  cases w.gates[c.site.gate]? <;> exact finish_retell x _ _

theorem atEvent_retell (deadline : Deadline) :
    atEvent t (c.relabel x.label) i deadline (w.retell x) =
      x.translation.segment (atEvent t c i deadline w) := by
  have hevents : (w.retell x).events = w.events := rfl
  have hclock : (w.retell x).clock = w.clock := rfl
  have hwait : ∀ success, ofWait (c.relabel x.label) success = ofWait c success := by
    cases c with
    | single site op => cases op <;> exact fun _ => rfl
    | scope site hold timeout body panics => exact fun _ => rfl
  unfold atEvent
  rw [hevents, hclock]
  cases w.events[i]? with
  | none => exact finish_retell x _ _
  | some e =>
      dsimp only
      cases e.await deadline w.clock with
      | park => rfl
      | done e' success =>
          simp only [hwait]
          exact @finish_retell x t c (w.setEvent i e') _ []

theorem endFamily_retell (o : Option (Handles × Option Nat)) :
    endFamily t (c.relabel x.label) o (w.retell x) =
      x.translation.segment (endFamily t c o w) := by
  cases o with
  | none => exact finish_retell x _ _
  | some p =>
      obtain ⟨handles, e⟩ := p
      cases e with
      | none => exact @finish_retell x t c { w with handles := handles } _ []
      | some e =>
          exact @finish_retell x t c ({ w with handles := handles }.signal e) _
            [.one (.event e)]

theorem withEvent_retell {segment segment' : World → Segment}
    (h : segment' (w.retell x) = x.translation.segment (segment w)) :
    withEvent t (c.relabel x.label) segment' (w.retell x) =
      x.translation.segment (withEvent t c segment w) := by
  have hiff : (c.relabel x.label).site.event < (w.retell x).events.length ↔
      c.site.event < w.events.length := by
    rw [Call.site_relabel]
    rfl
  by_cases hlt : c.site.event < w.events.length
  · rw [withEvent, withEvent, if_pos hlt, if_pos (hiff.2 hlt), h]
  · rw [withEvent, withEvent, if_neg hlt, if_neg (mt hiff.1 hlt)]
    exact finish_retell x _ _

theorem perform_retell (site : Site) (op : Operation) :
    perform t (site.relabel x.label) op (w.retell x) =
      x.translation.segment (perform t site op w) := by
  have hfinish := fun w => @finish_retell x t (.single site op) w
  cases op with
  | enter ms => exact @requestMillis_retell x t (.single site (.enter ms)) w ms .enter
  | close ms => exact @requestMillis_retell x t (.single site (.close ms)) w ms .close
  | enterFor timeout => exact @request_retell x t (.single site (.enterFor timeout)) w _
  | exit => exact @request_retell x t (.single site .exit) w _
  | closeFor timeout => exact @request_retell x t (.single site (.closeFor timeout)) w _
  | reopen => exact @request_retell x t (.single site .reopen) w _
  | guarded hold timeout name =>
      exact @request_retell x t (.single site (.guarded hold timeout name)) w _
  | entries => exact @inspect_retell x t (.single site .entries) w _
  | isClosed => exact @inspect_retell x t (.single site .isClosed) w _
  | snapshot => exact @inspect_retell x t (.single site .snapshot) w _
  | drop name =>
      have hguard : (w.retell x).guard? t name = w.guard? t name := rfl
      simp only [perform, hguard]
      cases w.guard? t name with
      | none => exact hfinish w _ []
      | some g =>
          exact @dispose_retell x t (.single site (.drop name)) (w.withoutGuard t name) g.gate
            g.hold
  | forget name => exact hfinish (w.withoutGuard t name) _ []
  | signal times =>
      simp only [perform]
      refine @withEvent_retell x t (.single site (.signal times)) w _ _ ?_
      cases times with
      | zero => exact hfinish w _ []
      | succ n => exact hfinish (w.signal site.event) _ _
  | wait => exact @atEvent_retell x t (.single site .wait) w site.event none
  | waitFor duration =>
      simp only [perform]
      refine @withEvent_retell x t (.single site (.waitFor duration)) w _ _ ?_
      have hclock : (w.retell x).clock = w.clock := rfl
      rw [hclock]
      cases Instant.add? w.clock duration.toNanos with
      | none => exact hfinish w _ []
      | some deadline =>
          exact @atEvent_retell x t (.single site (.waitFor duration)) w site.event _
  | createHandle name =>
      refine @withEvent_retell x t (.single site (.createHandle name)) w _ _ ?_
      exact @endFamily_retell x t (.single site (.createHandle name)) w _
  | cloneHandle source name =>
      exact @endFamily_retell x t (.single site (.cloneHandle source name)) w _
  | dropHandle name => exact @endFamily_retell x t (.single site (.dropHandle name)) w _
  | failRecords count => exact hfinish { w with failing := count } _ []

end Task

/-- **Every segment is retold.** -/
theorem attempt_retell (t : ThreadId) (task : Task) (w : World) :
    (x.translation.task task).attempt t (w.retell x) =
      x.translation.segment (task.attempt t w) := by
  cases task with
  | start c =>
      cases c with
      | single site op => exact Task.perform_retell x site op
      | scope site hold timeout body panics =>
          exact @Task.request_retell x t (.scope site hold timeout body panics) w _
  | resume c wait =>
      cases wait with
      | gate i waiting => exact Task.atGate_retell x fun v ns w => Task.conclude_retell x v ns
      | event i deadline => exact Task.atEvent_retell x deadline
  | release c hold gate => exact Task.dispose_retell x hold

/-! ### Lines before the journal -/

/-- The lines `js` come before the journal of the world. -/
def World.behind (js : List Entry) (w : World) : World := { w with journal := js ++ w.journal }

/-- The lines `js` come before the journal that a segment leaves behind. -/
def Segment.behind (js : List Entry) : Segment → Segment
  | park w c wait => park (w.behind js) c wait
  | done w ns f => done (w.behind js) ns f

namespace Call

mutual

theorem relabel_id : ∀ c : Call, c.relabel id = c
  | single _ _ => rfl
  | scope _ _ _ body _ => by rw [relabel, relabelAll_id body]; rfl

theorem relabelAll_id : ∀ cs : List Call, relabelAll id cs = cs
  | [] => rfl
  | c :: cs => by rw [relabelAll, relabel_id c, relabelAll_id cs]

end

end Call

theorem Entry.relabel_id (e : Entry) : e.relabel id = e := by
  cases e <;> rfl

/-- The same labels, after other lines. -/
def precede (js : List Entry) : Retelling where
  label := id
  lines := (js ++ ·)
  lines_append ks e := by rw [Entry.relabel_id, List.append_assoc]

/-- **A segment adds the same lines to every journal.** -/
theorem attempt_journal (t : ThreadId) (task : Task) (w : World) (js : List Entry) :
    task.attempt t { w with journal := js } =
      (task.attempt t { w with journal := [] }).behind js := by
  have hcall : ∀ c, (precede js).translation.call c = c := Call.relabel_id
  have htask : (precede js).translation.task task = task := by
    cases task with
    | start c => rw [Translation.task, hcall]
    | resume c wait =>
        rw [Translation.task, hcall]
        rfl
    | release c hold gate => rw [Translation.task, hcall]
  have hworld : { w with journal := [] }.retell (precede js) = { w with journal := js } := by
    simp [World.retell, precede]
  have hsegment : ∀ s, (precede js).translation.segment s = s.behind js := by
    intro s
    cases s with
    | park w c wait => rw [Translation.segment, hcall]; rfl
    | done w ns f => rfl
  have hretell := attempt_retell (precede js) t task { w with journal := [] }
  rwa [htask, hworld, hsegment] at hretell

end ReentrantGate.Script
