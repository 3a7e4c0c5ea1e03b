/-
**A thread that gives up entering.**

A *visit* is the attempt of a thread to enter a gate with a timeout, on its own in a step.  As long
as it does not succeed, the thread only parks or writes its farewell: a log record perhaps, and the
line about its call.  Neither touches a gate or wakes anybody.  So a turn of another thread leads
from the system without the visitor to the system without the visitor, and its own turns lead
nowhere.

Main definitions:

* `Script.Visit` — a thread, a gate to enter and a timeout;
* `Script.Visit.Farewell` — what the journal says of a visit that fails;
* `Script.Visit.GivesUp` — a journal in which the visit does not succeed;
* `Script.Visit.Hides` — a system with the visit, and the same without the thread.

Main results:

* `Script.Visit.Own.attempt` — **a visit that does not succeed parks or takes its leave**;
* `Script.Visit.Hides.turn_of_ne`, `Script.Visit.Hides.turn_self` — **the others take their turns as
  if the visitor were not there**, and do not notice those of the visitor.
-/

import ReentrantGate.Proofs.Script.Absence
import ReentrantGate.Proofs.Script.Reports

set_option relaxedAutoImplicit false
set_option autoImplicit false

/-! ### Trying to enter -/

namespace ReentrantGate.Gate

/-- **What can come of trying to enter**: the thread parks, gives up, or the call ends otherwise,
and nobody is woken. -/
inductive Segment.OfEntry (g : Gate) (timeout : Timeout) : Segment → Prop
  | park (deadline : Deadline) : OfEntry g timeout (.park g (.entry timeout deadline))
  | timedOut : OfEntry g timeout (.done g none (some (.entryTimedOut timeout)) .timedOut)
  | otherwise (g' : Gate) {verdict : Verdict} : verdict = .granted ∨ verdict = .overflowed →
      OfEntry g timeout (.done g' none none verdict)

variable {t : ThreadId} {timeout : Timeout} {now : Nat} {g : Gate}

theorem ofEntry_awaitEntry (deadline : Deadline) :
    (awaitEntry t timeout deadline now g).OfEntry g timeout := by
  unfold awaitEntry
  split
  · exact .otherwise _ (.inl rfl)
  · exact .timedOut
  · exact .park deadline

theorem ofEntry_enter : (enter t timeout now g).OfEntry g timeout := by
  unfold enter
  split
  · exact .otherwise _ (.inl rfl)
  · split
    · exact .otherwise _ (.inr rfl)
    · exact ofEntry_awaitEntry _

end ReentrantGate.Gate

namespace ReentrantGate.Script

/-- A note is written, or discarded if there is no log, or the sink fails. -/
theorem World.emit_cases (w : World) (note : Gate.Note) :
    (∃ written : Option Gate.Note, written.toList ⊆ [note] ∧ w.emit (some note) =
        ({ w with journal := w.journal ++ written.toList.map (fun n => .record n.record) },
          false)) ∨
      ∃ w', w.emit (some note) = (w', true) := by
  simp only [emit]
  split
  · exact .inl ⟨none, List.nil_subset _, by simp⟩
  · split
    · exact .inl ⟨some note, List.Subset.refl _, rfl⟩
    · exact .inr ⟨_, rfl⟩

/-! ### Visits -/

/-- **A visit**: a thread tries to enter the gate of a site, with a timeout. -/
structure Visit where
  thread : ThreadId
  site : Site
  timeout : Timeout

namespace Visit

variable (v : Visit)

/-- The call of a visit. -/
def call : Call := .single v.site (.enterFor v.timeout)

/-- The step of a visit, in which the thread does nothing else. -/
def step : Step := .perform v.thread [v.call]

/-- **What the journal says of a visit that fails**: a log record perhaps, and then that the call
has timed out. -/
def Farewell (lines : List Entry) : Prop :=
  ∃ (note : Option Gate.Note) (inside closing : Bool), note.toList ⊆ [.entryTimedOut v.timeout] ∧
    lines = note.toList.map (fun n => .record n.record) ++
      [.finished v.thread v.site.label v.call.name (.flag false) inside closing]

/-- A journal in which the visit does not succeed: the only result is that it timed out. -/
def GivesUp (journal : List Entry) : Prop :=
  ∀ r ∈ journal.filterMap (Entry.result? v.site.label), r = .flag false

/-- **What the thread of a visit still has to do.** -/
inductive Own : List Task → Prop
  | nothing : Own []
  | start : Own [.start v.call]
  | resume (deadline : Deadline) :
      Own [.resume v.call (.gate v.site.gate (.entry v.timeout deadline))]

variable {v} {w : World}

theorem GivesUp.of_prefix {journal later : List Entry} (h : v.GivesUp later)
    (hp : journal <+: later) : v.GivesUp journal :=
  fun r hr => h r ((hp.filterMap _).subset hr)

/-- Only a timeout is reported in a journal in which the visit does not succeed. -/
theorem eq_of_givesUp_finish {r : Result} {ns : List Notice}
    (h : v.GivesUp (Task.finish v.thread v.call r ns w).world.journal) : r = .flag false := by
  refine h r (List.mem_filterMap.2 ⟨_, List.mem_append_right _ List.mem_cons_self, ?_⟩)
  simp [Entry.result?, call, Call.site]

theorem conclude_call (verdict : Gate.Verdict) (ns : List Notice) (w : World) :
    Task.conclude v.thread v.call verdict ns w =
      Task.finish v.thread v.call (Task.ofVerdict verdict) ns w := by
  cases verdict <;> rfl

/-- What is written of a visit that fails is its farewell. -/
theorem exists_farewell (w : World) {written : Option Gate.Note}
    (h : written.toList ⊆ [.entryTimedOut v.timeout]) : ∃ lines, v.Farewell lines ∧
      Task.finish v.thread v.call (.flag false) []
          { w with journal := w.journal ++ written.toList.map (fun n => .record n.record) } =
        .done { w with journal := w.journal ++ lines } [] .nothing := by
  let g := (w.gates[v.site.gate]?).getD {}
  refine ⟨written.toList.map (fun n => .record n.record) ++ [.finished v.thread v.site.label
    v.call.name (.flag false) (0 < g.depth v.thread) (g.isCloser v.thread)],
    ⟨written, _, _, h, rfl⟩, ?_⟩
  rw [← List.append_assoc]
  rfl

/-- **A visit that does not succeed parks or takes its leave**, wherever it stands. -/
theorem atGate_of_givesUp {segment : Gate → Gate.Segment}
    (hs : ∀ g, (segment g).OfEntry g v.timeout)
    (h : v.GivesUp (Task.atGate v.thread v.call v.site.gate segment
      (Task.conclude v.thread v.call) w).world.journal) :
    (∃ deadline, Task.atGate v.thread v.call v.site.gate segment
        (Task.conclude v.thread v.call) w =
          .park w v.call (.gate v.site.gate (.entry v.timeout deadline))) ∨
      ∃ lines, v.Farewell lines ∧ Task.atGate v.thread v.call v.site.gate segment
        (Task.conclude v.thread v.call) w =
          .done { w with journal := w.journal ++ lines } [] .nothing := by
  unfold Task.atGate at h ⊢
  cases hg : w.gates[v.site.gate]? with
  | none =>
      simp only [hg] at h
      cases eq_of_givesUp_finish h
  | some g =>
      have hsegment := hs g
      simp only [hg] at h ⊢
      generalize segment g = s at h hsegment ⊢
      cases hsegment with
      | park deadline =>
          simp only [World.setGate_self hg]
          exact .inl ⟨deadline, rfl⟩
      | otherwise g' hverdict =>
          simp only [World.emit, conclude_call] at h
          have hresult := eq_of_givesUp_finish h
          rcases hverdict with rfl | rfl <;> cases hresult
      | timedOut =>
          simp only [World.setGate_self hg] at h ⊢
          rcases w.emit_cases (.entryTimedOut v.timeout) with ⟨written, hsub, hemit⟩ | ⟨w', hemit⟩
          · simp only [hemit, conclude_call]
            exact .inr (exists_farewell w hsub)
          · simp only [hemit] at h
            cases eq_of_givesUp_finish h

/-- **A visit that does not succeed parks or takes its leave**, when it starts and when it goes
on. -/
theorem Own.attempt {task : Task} {rest : List Task} (h : v.Own (task :: rest))
    (hg : v.GivesUp (task.attempt v.thread w).world.journal) :
    rest = [] ∧
      ((∃ deadline, task.attempt v.thread w =
          .park w v.call (.gate v.site.gate (.entry v.timeout deadline))) ∨
        ∃ lines, v.Farewell lines ∧ task.attempt v.thread w =
          .done { w with journal := w.journal ++ lines } [] .nothing) := by
  cases h with
  | start => exact ⟨rfl, atGate_of_givesUp (fun _ => Gate.ofEntry_enter) hg⟩
  | resume deadline =>
      exact ⟨rfl, atGate_of_givesUp (fun _ => Gate.ofEntry_awaitEntry deadline) hg⟩

/-- The thread of a visit that has something to do is still to report its call. -/
theorem Own.pendings_eq {task : Task} {rest : List Task} (h : v.Own (task :: rest)) :
    Task.pendings v.site.label (task :: rest) = 1 := by
  cases h <;> simp [Task.pendings, Task.pending, Call.reports, Call.all, call, Call.site]

/-! ### With the visit and without -/

variable (v) in
/-- **What the journal says with the visit and without it**: the same, or all but the farewell. -/
def Tells (journal others : List Entry) : Prop :=
  journal = others ∨ ∃ before lines after, v.Farewell lines ∧
    journal = before ++ lines ++ after ∧ others = before ++ after

theorem Tells.append {journal others : List Entry} (h : v.Tells journal others)
    (lines : List Entry) : v.Tells (journal ++ lines) (others ++ lines) := by
  rcases h with rfl | ⟨before, farewell, after, hf, rfl, rfl⟩
  · exact .inl rfl
  · exact .inr ⟨before, farewell, after ++ lines, hf, by simp, by simp⟩

/-- As long as nothing is reported of the visit it has not taken its leave. -/
theorem Tells.eq_of_unreported {others : List Entry} (h : v.Tells w.journal others)
    (hw : w.reported v.site.label = 0) : w.journal = others := by
  rcases h with heq | ⟨before, lines, after, ⟨note, inside, closing, -, rfl⟩, heq, -⟩
  · exact heq
  · simp [World.reported, heq, Entry.result?] at hw

variable (v) in
/-- **A system without the visitor**: `b` is `a` without the thread of the visit, which does nothing
else and whose call is reported at most once. -/
structure Hides (b a : System) : Prop extends System.Without v.thread b a where
  own : ∀ r ∈ a.everyone, r.thread = v.thread → v.Own r.tasks
  account : a.account v.site.label ≤ 1
  tells : v.Tells a.world.journal b.world.journal

namespace Hides

variable {a b : System} {rs : List Runner} {u : ThreadId} {tasks : List Task}

/-- The visitor is parked at gates only. -/
theorem atGates (h : v.Hides b a) : a.AtGates v.thread := by
  intro z hz ht
  have hown := h.own z.wake (List.mem_append_left _ (List.mem_map_of_mem hz)) ht
  obtain ⟨thread, c, wait, rest⟩ := z
  cases hown with
  | resume deadline => exact ⟨v.site.gate, .opened, rfl⟩

/-- **The others take their turns as if the visitor were not there.** -/
theorem turn_of_ne (h : v.Hides b a) (hc : b.world.clock = a.world.clock)
    (ha : a.runnable = ⟨u, tasks⟩ :: rs) (hu : u ≠ v.thread) : v.Hides b.turn a.turn := by
  obtain ⟨hwithout, lines, hja, hjb⟩ := h.toWithout.turn hc h.atGates ha hu
  refine { toWithout := hwithout, own := ?_, account := ?_, tells := ?_ }
  · intro r hr ht
    rcases System.mem_everyone_turn ha hr with ⟨task, rest, -, rfl⟩ | hr
    · exact absurd ht hu
    · exact h.own r hr ht
  · exact Nat.le_trans (System.account_turn_le _ a) h.account
  · rw [hja, hjb]
    exact h.tells.append lines

/-- What is left to show of a turn of the visitor. -/
theorem of_turn (h : v.Hides b a) (ha : a.runnable = ⟨v.thread, tasks⟩ :: rs)
    (hwithout : b.Without v.thread a.turn)
    (hown : ∀ task rest, tasks = task :: rest →
      v.Own (System.afterwards task rest (task.attempt v.thread a.world)))
    (htells : v.Tells a.turn.world.journal b.world.journal) : v.Hides b a.turn where
  toWithout := hwithout
  own r hr ht := by
    rcases System.mem_everyone_turn ha hr with ⟨task, rest, htasks, rfl⟩ | hr
    · exact hown task rest htasks
    · exact h.own r hr ht
  account := Nat.le_trans (System.account_turn_le _ a) h.account
  tells := htells

/-- As long as the visitor has something to do it has not taken its leave. -/
theorem journal_eq {task : Task} {rest : List Task} (h : v.Hides b a)
    (hr : ⟨v.thread, task :: rest⟩ ∈ a.everyone) : a.world.journal = b.world.journal := by
  have hpending := le_weigh_of_mem (fun r => Task.pendings v.site.label r.tasks) hr
  have hone := (h.own _ hr rfl).pendings_eq
  have haccount := h.account
  simp only [System.account, System.pending] at haccount
  simp only [hone] at hpending
  exact h.tells.eq_of_unreported (by omega)

/-- The visitor parks, once more or for the first time. -/
theorem turn_of_park {task : Task} {deadline : Deadline} (h : v.Hides b a)
    (ha : a.runnable = ⟨v.thread, [task]⟩ :: rs)
    (hpark : task.attempt v.thread a.world =
      .park a.world v.call (.gate v.site.gate (.entry v.timeout deadline))) :
    v.Hides b a.turn := by
  have hturn := System.turn_of_park ha hpark
  have hwithout : b.Without v.thread a.turn := by
    rw [hturn]
    exact ⟨h.world, by simpa using h.parked, by simp [h.runnable, ha]⟩
  refine h.of_turn ha hwithout (fun task' rest' htasks => ?_) (hturn ▸ h.tells)
  cases htasks
  rw [hpark]
  exact .resume deadline

/-- The visitor gives up. -/
theorem turn_of_farewell {task : Task} {lines : List Entry} (h : v.Hides b a)
    (ha : a.runnable = ⟨v.thread, [task]⟩ :: rs) (hlines : v.Farewell lines)
    (hdone : task.attempt v.thread a.world =
      .done { a.world with journal := a.world.journal ++ lines } [] .nothing) :
    v.Hides b a.turn := by
  have hturn : a.turn = ⟨{ a.world with journal := a.world.journal ++ lines }, a.parked,
      ⟨v.thread, []⟩ :: rs⟩ := by
    simp only [System.turn_of_cons ha, System.carryOut, hdone, System.notify, task.follow_nothing,
      List.foldl_nil, List.append_nil]
  have hwithout : b.Without v.thread a.turn := by
    rw [hturn]
    exact ⟨h.world, h.parked, by simp [h.runnable, ha]⟩
  refine h.of_turn ha hwithout (fun task' rest' htasks => ?_) ?_
  · cases htasks
    rw [hdone, System.afterwards, task.follow_nothing]
    exact .nothing
  · -- the call is reported only now, so the journals were the same before
    rw [hturn]
    have hjournal := h.journal_eq (List.mem_append_right _ (ha ▸ List.mem_cons_self))
    exact .inr ⟨a.world.journal, lines, [], hlines, by simp, by simp [hjournal]⟩

/-- **The visitor takes its turns, and the others do not notice.** -/
theorem turn_self (h : v.Hides b a) (ha : a.runnable = ⟨v.thread, tasks⟩ :: rs)
    (hg : v.GivesUp a.turn.world.journal) : v.Hides b a.turn := by
  have hmem : ⟨v.thread, tasks⟩ ∈ a.everyone := List.mem_append_right _ (by simp [ha])
  cases tasks with
  | nil =>
      have hturn := System.turn_of_nil ha
      have hwithout : b.Without v.thread a.turn := by
        rw [hturn]
        exact ⟨h.world, h.parked, by simp [h.runnable, ha]⟩
      exact h.of_turn ha hwithout (fun _ _ hnil => by cases hnil) (hturn ▸ h.tells)
  | cons task rest =>
      rw [System.turn_of_cons ha, System.world_carryOut] at hg
      obtain ⟨rfl, ⟨deadline, hpark⟩ | ⟨lines, hlines, hdone⟩⟩ := (h.own _ hmem rfl).attempt hg
      · exact h.turn_of_park ha hpark
      · exact h.turn_of_farewell ha hlines hdone

end Hides

end Visit

end ReentrantGate.Script
