/-
**How a turn rules on a call that waits.**

Each turn of a call that waits takes one look at what the call wants.  If that can be had the call
gets it, even at its deadline; if not, and the deadline has come, the call gives up; otherwise it is
parked, for the same thing and until the same deadline as before.  In a close this goes for both of
its waits and for the passage from the one to the other.

Main definitions:

* `Gate.Segment.Rules` — how a segment rules on a request;
* `Script.Wait.Serves` — a wait is for what a call wants;
* `Script.World.Reports`, `Script.Ruling` — what a call reports, and how a segment rules on a call.

Main results:

* `Gate.begin_rules`, `Gate.resume_rules` — **every segment of a request that waits rules on it**;
* `Script.Task.serves_of_start`, `Script.Task.serves_of_resume` — **whoever parks keeps to the
  deadline**;
* `Script.Task.ruling_of_start`, `Script.Task.ruling_of_resume` — **every turn of a call that waits
  rules on it**.
-/

import ReentrantGate.Proofs.Gate.Turn
import ReentrantGate.Proofs.Script.Wakeups
import ReentrantGate.Script.Deadlines

set_option relaxedAutoImplicit false
set_option autoImplicit false

namespace ReentrantGate.Gate

/-! ### Segments of requests -/

/-- How a segment rules on a request for a hold: it is granted if it can be, which leaves no note of
an entry; it gives up if it cannot and its deadline has come; and otherwise its thread parks until
the deadline. -/
inductive Segment.Rules (met : Prop) (hold : Hold) (deadline : Deadline) (now : Nat) :
    Segment → Prop
  | granted {g : Gate} {note : Option Note} : met → (hold = .entry → note = none) →
      Rules met hold deadline now (.done g none note .granted)
  | timedOut {g : Gate} {room : Option Room} {note : Option Note} {d : Nat} : ¬met →
      deadline = some d → d ≤ now → Rules met hold deadline now (.done g room note .timedOut)
  | park {g : Gate} {w : Waiting} : ¬met → (∀ d, deadline = some d → now < d) → w.hold = hold →
      w.deadline = deadline → Rules met hold deadline now (.park g w)

variable {g g' : Gate} {t : ThreadId} {now : Nat} {timeout : Timeout} {deadline : Deadline}
  {met : Prop} {w w' : Waiting} {hold : Hold}

theorem awaitEntry_rules (hm : met ↔ g.closer.isNone = true) :
    (awaitEntry t timeout deadline now g).Rules met .entry deadline now := by
  unfold awaitEntry
  split
  · rename_i hl
    exact .granted (hm.2 (look_eq_ready.1 hl)) fun _ => rfl
  · rename_i hl
    obtain ⟨hfails, d, hd, hle⟩ := look_eq_expired.1 hl
    exact .timedOut (fun h => by simp [hm.1 h] at hfails) hd hle
  · rename_i hl
    obtain ⟨hfails, hlt, -⟩ := look_eq_park.1 hl
    exact .park (fun h => by simp [hm.1 h] at hfails) hlt rfl rfl

theorem awaitDrain_rules (hm : met ↔ g.foreign = 0) :
    (awaitDrain t deadline now g).Rules met .close deadline now := by
  unfold awaitDrain
  split
  · rename_i hl
    exact .granted (hm.2 (by simpa using look_eq_ready.1 hl)) (by simp)
  · rename_i hl
    obtain ⟨hfails, d, hd, hle⟩ := look_eq_expired.1 hl
    exact .timedOut (fun h => by simp [hm.1 h] at hfails) hd hle
  · rename_i hl
    obtain ⟨hfails, hlt, -⟩ := look_eq_park.1 hl
    exact .park (fun h => by simp [hm.1 h] at hfails) hlt rfl rfl

/-- The two waits of a close rule as one. -/
theorem awaitExclusivity_rules (hm : met ↔ g.closer = none ∧ (g.claim t).foreign = 0) :
    (awaitExclusivity t deadline now g).Rules met .close deadline now := by
  unfold awaitExclusivity
  split
  · rename_i hl
    have hnone : g.closer = none := by simpa using look_eq_ready.1 hl
    exact awaitDrain_rules (hm.trans (and_iff_right hnone))
  · rename_i hl
    obtain ⟨hfails, d, hd, hle⟩ := look_eq_expired.1 hl
    exact .timedOut (fun h => by simp [(hm.1 h).1] at hfails) hd hle
  · rename_i hl
    obtain ⟨hfails, hlt, -⟩ := look_eq_park.1 hl
    exact .park (fun h => by simp [(hm.1 h).1] at hfails) hlt rfl rfl

/-- A close of a thread that is not the closer can be had if nobody is the closer and the others are
outside. -/
theorem Sound.grants_close_iff (h : g.Sound) (hc : g.closer ≠ some t) :
    g.Grants t .close ↔ g.closer = none ∧ (g.claim t).foreign = 0 := by
  have hout : (g.claim t).foreign = 0 ↔ ∀ u, u ≠ t → g.depth u = 0 :=
    (h.claim t).foreign_eq_zero_iff rfl
  rw [Grants, hout, or_iff_left hc]

/-- **The first segment of a request for a hold rules on it.** -/
theorem begin_rules (h : g.Sound) (hset : g.closer = some t → g.foreign = 0)
    (hd : timeout.deadline? now = some deadline) :
    (begin t now (Script.Task.acquisition timeout hold) g).Rules (g.Grants t hold) hold deadline
      now := by
  cases hold with
  | entry =>
      simp only [Script.Task.acquisition, begin, enter]
      split
      · rename_i ha
        exact .granted (h.admits_iff.1 ha) fun _ => rfl
      · rename_i ha
        rw [h.admits_iff, not_or, not_or] at ha
        simp only [hd]
        refine awaitEntry_rules ?_
        simp [Grants, ha.2.1, ha.2.2]
  | close =>
      simp only [Script.Task.acquisition, begin, close]
      split
      · rename_i hc
        have hc := h.isCloser_iff.1 hc
        exact .granted ⟨.inr hc, (h.foreign_eq_zero_iff hc).1 (hset hc)⟩ (by simp)
      · rename_i hc
        rw [h.isCloser_iff] at hc
        simp only [hd]
        exact awaitExclusivity_rules (h.grants_close_iff hc)

/-- **So does every later segment**, by the deadline of the wait. -/
theorem resume_rules (h : g.Sound) (hw : w.Fits g t) :
    (resume t now w g).Rules (g.Grants t w.hold) w.hold w.deadline now := by
  cases w with
  | entry timeout deadline =>
      refine awaitEntry_rules ?_
      simp [Waiting.hold, Grants, hw.1, hw.2]
  | exclusivity deadline => exact awaitExclusivity_rules (h.grants_close_iff hw)
  | drain deadline =>
      refine awaitDrain_rules ?_
      rw [h.foreign_eq_zero_iff hw.1]
      simp [Waiting.hold, Grants, hw.1]

/-- Without a deadline to keep nobody parks. -/
theorem begin_ne_park (hd : timeout.deadline? now = none) :
    begin t now (Script.Task.acquisition timeout hold) g ≠ .park g' w := by
  cases hold with
  | entry =>
      simp only [Script.Task.acquisition, begin, enter, hd]
      split <;> simp
  | close =>
      simp only [Script.Task.acquisition, begin, close, hd]
      split <;> simp

end ReentrantGate.Gate

namespace ReentrantGate.Script

/-! ### Waits and reports -/

/-- A wait is for what the call wants, at the place that the call is about. -/
def Wait.Serves (c : Call) : Want → Wait → Prop
  | .hold h _, .gate i waiting => i = c.site.gate ∧ waiting.hold = h
  | .flag _, .event i _ => i = c.site.event
  | _, _ => False

/-- The call `c` of `t` reports a result: the journal of `w` goes on with at most one log record and
then says so. -/
def World.Reports (w w' : World) (t : ThreadId) (c : Call) (r : Result) : Prop :=
  ∃ (note : Option Record) (inside closing : Bool),
    w'.journal = w.journal ++ note.toList.map Entry.record ++
      [.finished t c.site.label c.name r inside closing]

/-- **How a segment rules on the call `c` of `t`**, which has a deadline.  A call that can have what
it wants gets it, and reports so unless it has more to do; one that cannot gives up at its deadline
and parks before it.  The sink of the log may fail on the record of a close that is granted, or of a
request that gives up; this unwinds the call with its ruling made.  The gate or the event may not
exist. -/
inductive Ruling (t : ThreadId) (c : Call) (want : Want) (deadline : Deadline) (w : World) :
    Segment → Prop
  | granted {w' : World} {ns : List Notice} : want.Met w t c → w.Reports w' t c c.success →
      Ruling t c want deadline w (.done w' ns .nothing)
  | more {w' : World} {ns : List Notice} {follow : Follow} : want.Met w t c →
      c.takesGuard = true → follow ≠ .nothing → w'.Notes w →
      Ruling t c want deadline w (.done w' ns follow)
  | refused {w' : World} {ns : List Notice} {d : Nat} : ¬want.Met w t c → deadline = some d →
      d ≤ w.clock → w.Reports w' t c (.flag false) →
      Ruling t c want deadline w (.done w' ns .nothing)
  | unwound {w' : World} {ns : List Notice} :
      (want.Met w t c ∧ ∃ timeout, want = .hold .close timeout) ∨
        (¬want.Met w t c ∧ ∃ d, deadline = some d ∧ d ≤ w.clock) →
      w.silent = false → 0 < w.failing → w.Reports w' t c (.panicked .sinkFailed) →
      Ruling t c want deadline w (.done w' ns .nothing)
  | missing {w' : World} {what : Unknown} : want.Missing w c → w.Reports w' t c (.unknown what) →
      Ruling t c want deadline w (.done w' [] .nothing)
  | parked {w' : World} {wait : Wait} : ¬want.Met w t c → (∀ d, deadline = some d → w.clock < d) →
      wait.Serves c want → wait.deadline = deadline → w'.Notes w →
      Ruling t c want deadline w (.park w' c wait)

namespace World

variable {t : ThreadId} {c : Call} {r r' : Result} {w w' : World}

/-- A call reports one result. -/
theorem Reports.inj (h : w.Reports w' t c r) (h' : w.Reports w' t c r') : r = r' := by
  obtain ⟨note, inside, closing, hj⟩ := h
  obtain ⟨note', inside', closing', hj'⟩ := h'
  have hlast := congrArg List.getLast? (hj.symm.trans hj')
  simp only [List.getLast?_concat, Option.some.injEq, Entry.finished.injEq] at hlast
  exact hlast.2.2.2.1

/-- More than a record has been written when a call has reported. -/
theorem Reports.not_notes (h : w.Reports w' t c r) : ¬w'.Notes w := by
  rintro ⟨note', hj'⟩
  obtain ⟨note, inside, closing, hj⟩ := h
  rw [hj', List.append_assoc] at hj
  have hlast := congrArg List.getLast? (List.append_cancel_left hj)
  cases note' <;> simp at hlast

end World

/-- A sink fails only if it was told to, on a gate that is not silent. -/
theorem World.failing_of_emit {w w' : World} {note : Option Gate.Note}
    (h : w.emit note = (w', true)) : w.silent = false ∧ 0 < w.failing := by
  cases note with
  | none => cases h
  | some note =>
      unfold emit at h
      cases hs : w.silent with
      | true => simp [hs] at h
      | false =>
          cases hf : w.failing with
          | zero => simp [hs, hf] at h
          | succ n => exact ⟨rfl, Nat.succ_pos n⟩

namespace Task

variable {t : ThreadId} {c : Call} {w w' : World} {want : Want} {deadline : Deadline}
  {hold : Hold} {timeout : Timeout} {limit : Option Duration} {wait : Wait}

theorem reports_of_notes (h : w'.Notes w) (r : Result) : w.Reports (w'.report t c r) t c r := by
  obtain ⟨note, hnote⟩ := h
  exact ⟨note, _, _, by rw [World.report, hnote]⟩

/-! ### Calls that want a hold -/

theorem success_of_hold (h : c.want? = some (.hold hold timeout)) : c.success = .flag true := by
  cases c with
  | scope _ _ _ _ _ => rfl
  | single site op => cases op <;> first | rfl | cases h

/-- A call that got its hold reports success, unless it has more to do. -/
theorem ruling_of_granted {ns : List Notice} (hwant : c.want? = some (.hold hold timeout))
    (hm : (Want.hold hold timeout).Met w t c) (h : w'.Notes w) :
    Ruling t c (.hold hold timeout) deadline w (conclude t c .granted ns w') := by
  have hreports := reports_of_notes (t := t) (c := c) h c.success
  rw [success_of_hold hwant] at hreports
  unfold conclude
  split
  · exact .more hm rfl (by simp) h
  · split
    · exact .granted hm (reports_of_notes (by exact h) _)
    · exact .more hm rfl (by simp) (by exact h)
  · exact .granted hm (success_of_hold hwant ▸ hreports)

/-- A call that was granted nothing reports its verdict. -/
theorem conclude_of_ne {verdict : Gate.Verdict} (h : verdict ≠ .granted) (ns : List Notice) :
    conclude t c verdict ns w = finish t c (ofVerdict verdict) ns w := by
  unfold conclude
  split
  · exact absurd rfl h
  · exact absurd rfl h
  · rfl

/-- **A segment of its gate rules on a call that wants a hold.** -/
theorem ruling_atGate {segment : Gate → Gate.Segment}
    (hwant : c.want? = some (.hold hold timeout))
    (hs : ∀ g, w.gates[c.site.gate]? = some g →
      (segment g).Rules (g.Grants t hold) hold deadline w.clock) :
    Ruling t c (.hold hold timeout) deadline w
      (atGate t c c.site.gate segment (conclude t c) w) := by
  unfold atGate
  split
  · rename_i hg
    exact .missing hg (reports_of_notes (World.notes_of_eq rfl) _)
  · rename_i g hg
    have hrules := hs g hg
    have hmet : (Want.hold hold timeout).Met w t c ↔ g.Grants t hold := by simp [Want.Met, hg]
    rw [← hmet] at hrules
    split
    · rename_i g' waiting hpark
      rw [hpark] at hrules
      cases hrules with
      | park hm hlt hhold hd => exact .parked hm hlt ⟨rfl, hhold⟩ hd (World.notes_of_eq rfl)
    · rename_i g' room note verdict hdone
      rw [hdone] at hrules
      have hnotes := World.notes_emit (w.setGate c.site.gate g') note
      have hruled : (Want.hold hold timeout).Met w t c ∧ verdict = .granted ∧
            (hold = .entry → note = none) ∨
          ¬(Want.hold hold timeout).Met w t c ∧ verdict = .timedOut ∧
            ∃ d, deadline = some d ∧ d ≤ w.clock := by
        cases hrules with
        | granted hm hnote => exact .inl ⟨hm, rfl, hnote⟩
        | timedOut hm hd hle => exact .inr ⟨hm, rfl, _, hd, hle⟩
      split
      · rename_i x hx
        obtain ⟨hsilent, hfailing⟩ := World.failing_of_emit hx
        rw [hx] at hnotes
        refine .unwound (hruled.imp ?_ ?_) hsilent hfailing (reports_of_notes hnotes _)
        · rintro ⟨hm, -, hnote⟩
          refine ⟨hm, timeout, ?_⟩
          -- an entry that is granted leaves no note, on which no sink can fail
          cases hold with
          | entry =>
              rw [hnote rfl] at hx
              cases hx
          | close => rfl
        · rintro ⟨hm, -, hlate⟩
          exact ⟨hm, hlate⟩
      · rename_i x hx
        rw [hx] at hnotes
        rcases hruled with ⟨hm, rfl, -⟩ | ⟨hm, rfl, d, hd, hle⟩
        · exact ruling_of_granted hwant hm hnotes
        · have hne : Gate.Verdict.timedOut ≠ .granted := by simp
          dsimp only
          rw [conclude_of_ne hne]
          exact .refused hm hd hle (reports_of_notes hnotes _)

/-- The first segment of a call that wants a hold is a request for it. -/
theorem attempt_of_hold (hwant : c.want? = some (.hold hold timeout)) :
    attempt t (.start c) w = request t c (acquisition timeout hold) w := by
  cases c with
  | scope site hold' timeout' body panics =>
      cases hwant
      rfl
  | single site op =>
      cases op with
      | enter ms =>
          obtain ⟨timeout', hms, h⟩ := Option.map_eq_some_iff.1 hwant
          cases h
          simp only [attempt, perform, requestMillis, hms, acquisition]
      | close ms =>
          obtain ⟨timeout', hms, h⟩ := Option.map_eq_some_iff.1 hwant
          cases h
          simp only [attempt, perform, requestMillis, hms, acquisition]
      | enterFor timeout' =>
          cases hwant
          rfl
      | closeFor timeout' =>
          cases hwant
          rfl
      | guarded hold' timeout' name =>
          cases hwant
          rfl
      | _ => cases hwant

/-! ### Calls that want a flag -/

/-- A wait that gives up, which one without a deadline does not, reports that. -/
theorem ofWait_false {now d : Nat} (hwant : c.want? = some (.flag limit))
    (hd : (Want.flag limit).deadline? now = some (some d)) : ofWait c false = .flag false := by
  cases c with
  | scope _ _ _ _ _ => rfl
  | single site op =>
      cases op with
      | wait =>
          cases hwant
          cases hd
      | _ => rfl

theorem ofWait_true (c : Call) : ofWait c true = c.success := by
  cases c with
  | scope _ _ _ _ _ => rfl
  | single site op => cases op <;> rfl

/-- **A look at its event rules on a call that wants the flag.** -/
theorem ruling_atEvent {now : Nat} (hwant : c.want? = some (.flag limit))
    (hdeadline : (Want.flag limit).deadline? now = some deadline) :
    Ruling t c (.flag limit) deadline w (atEvent t c c.site.event deadline w) := by
  unfold atEvent
  split
  · rename_i he
    exact .missing he (reports_of_notes (World.notes_of_eq rfl) _)
  · rename_i e he
    have hmet : (Want.flag limit).Met w t c ↔ e.set = true := by simp [Want.Met, he]
    unfold Event.await
    split
    · rename_i hpark
      split at hpark
      · cases hpark
      · cases hpark
      · rename_i hl
        obtain ⟨hfails, hlt, -⟩ := look_eq_park.1 hl
        exact .parked (fun h => by simp [hmet.1 h] at hfails) hlt rfl rfl (World.notes_of_eq rfl)
    · rename_i e' success hdone
      split at hdone
      · rename_i hl
        cases hdone
        rw [ofWait_true]
        exact .granted (hmet.2 (look_eq_ready.1 hl)) (reports_of_notes (World.notes_of_eq rfl) _)
      · rename_i hl
        cases hdone
        obtain ⟨hfails, d, hd, hle⟩ := look_eq_expired.1 hl
        have hreports := ofWait_false hwant (hd ▸ hdeadline)
        rw [hreports]
        exact .refused (fun h => by simp [hmet.1 h] at hfails) hd hle
          (reports_of_notes (World.notes_of_eq rfl) _)
      · cases hdone

/-- The first segment of a call that wants a flag is a look at its event. -/
theorem attempt_of_flag (hwant : c.want? = some (.flag limit))
    (hd : (Want.flag limit).deadline? w.clock = some deadline) :
    attempt t (.start c) w = atEvent t c c.site.event deadline w := by
  cases c with
  | scope _ _ _ _ _ => cases hwant
  | single site op =>
      cases op with
      | wait =>
          cases hwant
          cases hd
          rfl
      | waitFor duration =>
          cases hwant
          obtain ⟨d, hadd, rfl⟩ := Option.map_eq_some_iff.1 hd
          simp only [attempt, perform, withEvent, hadd]
          split
          · rfl
          · rename_i hlt
            have hnone : w.events[site.event]? = none :=
              List.getElem?_eq_none (Nat.le_of_not_lt hlt)
            simp only [atEvent, Call.site, hnone]
      | enter ms =>
          obtain ⟨timeout', -, h⟩ := Option.map_eq_some_iff.1 hwant
          cases h
      | close ms =>
          obtain ⟨timeout', -, h⟩ := Option.map_eq_some_iff.1 hwant
          cases h
      | _ => cases hwant

/-! ### Every turn of a call that waits -/

/-- **The first turn of a call that waits rules on it**, at a sound gate whose closer, if it is the
thread itself, has it to itself. -/
theorem ruling_of_start (hwant : c.want? = some want) (hd : want.deadline? w.clock = some deadline)
    (hgate : ∀ g, w.gates[c.site.gate]? = some g →
      g.Sound ∧ (g.closer = some t → g.foreign = 0)) :
    Ruling t c want deadline w (attempt t (.start c) w) := by
  cases want with
  | hold hold timeout =>
      rw [attempt_of_hold hwant]
      rw [Want.deadline?_hold] at hd
      exact ruling_atGate hwant fun g hg => Gate.begin_rules (hgate g hg).1 (hgate g hg).2 hd
  | flag limit =>
      rw [attempt_of_flag hwant hd]
      exact ruling_atEvent hwant hd

/-- **So does every later turn**, at a gate that the wait fits, by the deadline of the wait. -/
theorem ruling_of_resume {now : Nat} (hwant : c.want? = some want) (hs : wait.Serves c want)
    (hd : want.deadline? now = some wait.deadline)
    (hgate : ∀ i waiting, wait = .gate i waiting → ∀ g, w.gates[i]? = some g →
      g.Sound ∧ waiting.Fits g t) :
    Ruling t c want wait.deadline w (attempt t (.resume c wait) w) := by
  cases want with
  | hold hold timeout =>
      cases wait with
      | event i d => cases hs
      | gate i waiting =>
          obtain ⟨rfl, rfl⟩ := hs
          exact ruling_atGate hwant fun g hg =>
            Gate.resume_rules (hgate _ _ rfl g hg).1 (hgate _ _ rfl g hg).2
  | flag limit =>
      cases wait with
      | gate i waiting => cases hs
      | event i d =>
          cases hs
          exact ruling_atEvent hwant hd

/-! ### Calls that never park -/

section NeverParks

variable {c' : Call}

theorem atGate_ne_park {i : Nat} {segment : Gate → Gate.Segment}
    {k : Gate.Verdict → List Notice → World → Segment}
    (hs : ∀ g g' waiting, segment g ≠ .park g' waiting)
    (hk : ∀ v ns w₁, k v ns w₁ ≠ .park w' c' wait) :
    atGate t c i segment k w ≠ .park w' c' wait := by
  unfold atGate
  split
  · exact finish_ne_park
  · split
    · rename_i hpark
      exact absurd hpark (hs _ _ _)
    · split
      · exact finish_ne_park
      · exact hk _ _ _

theorem withEvent_ne_park {segment : World → Segment} (h : segment w ≠ .park w' c' wait) :
    withEvent t c segment w ≠ .park w' c' wait := by
  unfold withEvent
  split
  · exact h
  · exact finish_ne_park

theorem endFamily_ne_park {o : Option (Handles × Option Nat)} :
    endFamily t c o w ≠ .park w' c' wait := by
  unfold endFamily
  split <;> exact finish_ne_park

theorem inspect_ne_park {look : Gate → Result} : inspect t c look w ≠ .park w' c' wait := by
  unfold inspect
  split <;> exact finish_ne_park

/-- An operation that does not wait never parks. -/
theorem perform_ne_park {site : Site} {op : Operation} (h : op.want? = none) :
    perform t site op w ≠ .park w' c' wait := by
  cases op with
  | enter ms =>
      simp only [perform, requestMillis, Option.map_eq_none_iff.1 h]
      exact finish_ne_park
  | close ms =>
      simp only [perform, requestMillis, Option.map_eq_none_iff.1 h]
      exact finish_ne_park
  | exit => exact atGate_ne_park (fun _ _ _ => Gate.exit_ne_park) fun _ _ _ => conclude_ne_park
  | reopen => exact atGate_ne_park (fun _ _ _ => Gate.reopen_ne_park) fun _ _ _ => conclude_ne_park
  | entries => exact inspect_ne_park
  | isClosed => exact inspect_ne_park
  | snapshot => exact inspect_ne_park
  | drop name =>
      simp only [perform]
      split
      · exact finish_ne_park
      · exact dispose_ne_park
  | forget name => exact finish_ne_park
  | signal times =>
      simp only [perform]
      exact withEvent_ne_park finish_ne_park
  | createHandle name => exact withEvent_ne_park endFamily_ne_park
  | cloneHandle source name => exact endFamily_ne_park
  | dropHandle name => exact endFamily_ne_park
  | failRecords count => exact finish_ne_park
  | enterFor timeout => cases h
  | closeFor timeout => cases h
  | guarded hold timeout name => cases h
  | wait => cases h
  | waitFor duration => cases h

/-- **A call that does not wait, or has no deadline to keep, never parks.** -/
theorem start_ne_park (h : ∀ want, c.want? = some want → want.deadline? w.clock = none) :
    attempt t (.start c) w ≠ .park w' c' wait := by
  cases hwant : c.want? with
  | some want =>
      have hd := h want hwant
      cases want with
      | hold hold timeout =>
          rw [attempt_of_hold hwant]
          rw [Want.deadline?_hold] at hd
          exact atGate_ne_park (fun _ _ _ => Gate.begin_ne_park hd) fun _ _ _ => conclude_ne_park
      | flag limit =>
          cases c with
          | scope site hold timeout body panics => cases hwant
          | single site op =>
              cases op with
              | wait =>
                  cases hwant
                  cases hd
              | waitFor duration =>
                  cases hwant
                  have hadd : Instant.add? w.clock duration.toNanos = none :=
                    Option.map_eq_none_iff.1 hd
                  simp only [attempt, perform]
                  refine withEvent_ne_park ?_
                  rw [hadd]
                  exact finish_ne_park
              | enter ms =>
                  obtain ⟨timeout', -, h⟩ := Option.map_eq_some_iff.1 hwant
                  cases h
              | close ms =>
                  obtain ⟨timeout', -, h⟩ := Option.map_eq_some_iff.1 hwant
                  cases h
              | _ => cases hwant
  | none =>
      cases c with
      | scope site hold timeout body panics => cases hwant
      | single site op => exact perform_ne_park hwant

end NeverParks

end Task

end ReentrantGate.Script
