/-
**Every call is reported at most once.**

A segment that parks writes nothing.  One that does not writes at most one log record, and then a
line about its call, unless there is more to do for the call.  What is left to do for a call shrinks
accordingly: a call that starts or is resumed is still to be reported with all the calls inside it,
a guard to be released stands for one report, and what follows a task never stands for more than
the task.  So of the calls with a label no more are reported than there are in the script.

Main definitions:

* `Script.Writes` — what a segment can write in the journal;
* `Script.Task.pending`, `Script.System.pending` — how many reports with a label may still come.

Main results:

* `Script.Task.attempt_writes` — **every segment writes what is on the list**;
* `Script.System.account_turn_le` — a turn that reports a call has one less to come;
* `Script.length_results_le` — **every call is reported at most once**.
-/

import ReentrantGate.Proofs.Script.Due
import ReentrantGate.Proofs.Script.Views
import ReentrantGate.Script.Labels
import ReentrantGate.Script.Moments

set_option relaxedAutoImplicit false
set_option autoImplicit false

namespace ReentrantGate.Script

/-! ### What a segment writes -/

/-- The journal of `w'` is that of `w`, with at most one log record more. -/
def World.Notes (w' w : World) : Prop :=
  ∃ note : Option Record, w'.journal = w.journal ++ note.toList.map .record

/-- **What a segment can write** in the journal, in the call `c`: nothing if it parks, else a record
perhaps, and then a line about the call unless there is more to do. -/
inductive Writes (t : ThreadId) (c : Call) (w : World) : Segment → Prop
  | park {w' : World} {wait : Wait} : w'.journal = w.journal → Writes t c w (.park w' c wait)
  | report {w' w'' : World} {ns : List Notice} {r : Result} {inside closing : Bool} : w'.Notes w →
      w''.journal = w'.journal ++ [.finished t c.site.label c.name r inside closing] →
      Writes t c w (.done w'' ns .nothing)
  | more {w' : World} {ns : List Notice} {f : Follow} : w'.Notes w → f ≠ .nothing →
      Writes t c w (.done w' ns f)

section Writes

variable {t : ThreadId} {c : Call} {w w' : World} {i : Nat}

theorem World.notes_of_eq (h : w'.journal = w.journal) : w'.Notes w := ⟨none, by simp [h]⟩

theorem World.notes_emit (w : World) (note : Option Gate.Note) : (w.emit note).1.Notes w := by
  cases note with
  | none => exact notes_of_eq rfl
  | some note =>
      unfold emit
      cases w.silent with
      | true => exact notes_of_eq rfl
      | false =>
          cases w.failing with
          | zero => exact ⟨some note.record, rfl⟩
          | succ n => exact notes_of_eq rfl

namespace Task

theorem writes_finish (h : w'.Notes w) (r : Result) (ns : List Notice) :
    Writes t c w (finish t c r ns w') := .report h rfl

theorem writes_conclude (h : w'.Notes w) (v : Gate.Verdict) (ns : List Notice) :
    Writes t c w (conclude t c v ns w') := by
  obtain ⟨note, hnote⟩ := h
  unfold conclude
  split
  · exact .more ⟨note, hnote⟩ nofun
  · split
    · exact writes_finish ⟨note, by exact hnote⟩ _ _
    · exact .more ⟨note, hnote⟩ nofun
  · exact writes_finish ⟨note, hnote⟩ _ _

theorem writes_atGate {segment : Gate → Gate.Segment}
    {k : Gate.Verdict → List Notice → World → Segment}
    (hw : w'.journal = w.journal) (hk : ∀ v ns x, x.Notes w → Writes t c w (k v ns x)) :
    Writes t c w (atGate t c i segment k w') := by
  unfold atGate
  split
  · exact writes_finish (World.notes_of_eq hw) _ _
  · split
    · exact .park hw
    · rename_i g g' room note verdict _
      have hnotes := World.notes_emit (w'.setGate i g') note
      have hjournal : (w'.setGate i g').journal = w.journal := hw
      simp only [World.Notes, hjournal] at hnotes
      split
      · rename_i x hx
        rw [hx] at hnotes
        exact writes_finish hnotes _ _
      · rename_i x hx
        rw [hx] at hnotes
        exact hk _ _ _ hnotes

theorem writes_request (r : Gate.Request) : Writes t c w (request t c r w) :=
  writes_atGate rfl fun v ns _ hx => writes_conclude hx v ns

theorem writes_requestMillis (ms : Int) (r : Timeout → Gate.Request) :
    Writes t c w (requestMillis t c ms r w) := by
  unfold requestMillis
  split
  · exact writes_finish (World.notes_of_eq (by rfl)) _ _
  · exact writes_request _

theorem writes_dispose (hw : w'.journal = w.journal) (hold : Hold) :
    Writes t c w (dispose t c hold i w') :=
  writes_atGate hw fun _ ns _ hx => writes_finish hx _ ns

theorem writes_inspect (f : Gate → Result) : Writes t c w (inspect t c f w) := by
  unfold inspect
  split <;> exact writes_finish (World.notes_of_eq (by rfl)) _ _

theorem writes_atEvent (deadline : Deadline) : Writes t c w (atEvent t c i deadline w) := by
  unfold atEvent
  split
  · exact writes_finish (World.notes_of_eq (by rfl)) _ _
  · split
    · exact .park rfl
    · exact writes_finish (World.notes_of_eq (by rfl)) _ _

theorem writes_endFamily (o : Option (Handles × Option Nat)) :
    Writes t c w (endFamily t c o w) := by
  unfold endFamily
  split <;> exact writes_finish (World.notes_of_eq (by rfl)) _ _

theorem writes_withEvent {segment : World → Segment} (h : Writes t c w (segment w)) :
    Writes t c w (withEvent t c segment w) := by
  unfold withEvent
  split
  · exact h
  · exact writes_finish (World.notes_of_eq (by rfl)) _ _

theorem writes_perform {site : Site} (op : Operation) :
    Writes t (.single site op) w (perform t site op w) := by
  cases op with
  | enter ms => exact writes_requestMillis ms .enter
  | close ms => exact writes_requestMillis ms .close
  | enterFor timeout => exact writes_request _
  | exit => exact writes_request _
  | closeFor timeout => exact writes_request _
  | reopen => exact writes_request _
  | guarded hold timeout name => exact writes_request _
  | entries => exact writes_inspect _
  | isClosed => exact writes_inspect _
  | snapshot => exact writes_inspect _
  | drop name =>
      simp only [perform]
      split
      · exact writes_finish (World.notes_of_eq (by rfl)) _ _
      · exact writes_dispose (by rfl) _
  | forget name => exact writes_finish (World.notes_of_eq (by rfl)) _ _
  | signal times =>
      simp only [perform]
      refine writes_withEvent (writes_finish (World.notes_of_eq ?_) _ _)
      split <;> rfl
  | wait => exact writes_atEvent _
  | waitFor duration =>
      simp only [perform]
      refine writes_withEvent ?_
      split
      · exact writes_finish (World.notes_of_eq (by rfl)) _ _
      · exact writes_atEvent _
  | createHandle name => exact writes_withEvent (writes_endFamily _)
  | cloneHandle source name => exact writes_endFamily _
  | dropHandle name => exact writes_endFamily _
  | failRecords count => exact writes_finish (World.notes_of_eq (by rfl)) _ _

/-- **Every segment writes what is on the list.** -/
theorem attempt_writes (t : ThreadId) (task : Task) (w : World) :
    Writes t task.call w (attempt t task w) := by
  cases task with
  | start c =>
      cases c with
      | single site op => exact writes_perform op
      | scope site hold timeout body panics => exact writes_request _
  | resume c wait =>
      cases wait with
      | gate i waiting => exact writes_atGate rfl fun v ns _ hx => writes_conclude hx v ns
      | event i deadline => exact writes_atEvent deadline
  | release c hold gate => exact writes_dispose rfl hold

end Task

end Writes

/-! ### What is still to be reported -/

/-- Weights do not depend on the order. -/
theorem weigh_perm {α : Type} (weight : α → Nat) {as bs : List α} (h : as.Perm bs) :
    weigh weight as = weigh weight bs := by
  induction h with
  | nil => rfl
  | cons a _ ih => rw [weigh_cons, weigh_cons, ih]
  | swap a b as => simp only [weigh_cons, Nat.add_left_comm]
  | trans _ _ ih ih' => rw [ih, ih']

theorem le_weigh_of_mem {α : Type} (weight : α → Nat) {a : α} {as : List α} (h : a ∈ as) :
    weight a ≤ weigh weight as := by
  obtain ⟨before, after, rfl⟩ := List.append_of_mem h
  rw [weigh_append, weigh_cons]
  omega

section Pending

variable (label : Nat)

/-- The calls with the label in a call, itself included. -/
def Call.reports (c : Call) : Nat := c.all.countP (·.site.label = label)

/-- How many reports with the label may still come from a task. -/
def Task.pending : Task → Nat
  | start c => c.reports label
  | resume c _ => c.reports label
  | release c _ _ => if c.site.label = label then 1 else 0

/-- How many reports with the label may still come from some tasks. -/
def Task.pendings (ts : List Task) : Nat := weigh (pending label) ts

/-- How many reports with the label may still come from anybody in a system. -/
def System.pending (s : System) : Nat := weigh (fun r => Task.pendings label r.tasks) s.everyone

/-- How many reports with the label are in the journal. -/
def World.reported (w : World) : Nat := (w.journal.filterMap (Entry.result? label)).length

/-- The reports with the label that are in the journal or may still come. -/
def System.account (s : System) : Nat := s.world.reported label + s.pending label

end Pending

variable (label : Nat)

theorem World.reported_of_notes {w w' : World} (h : w'.Notes w) :
    w'.reported label = w.reported label := by
  obtain ⟨note, h⟩ := h
  cases note <;> simp [World.reported, h, Entry.result?]

theorem World.reported_of_finished {w w' : World} {t : ThreadId} {c : Call} {r : Result}
    {inside closing : Bool}
    (h : w'.journal = w.journal ++ [.finished t c.site.label c.name r inside closing]) :
    w'.reported label = w.reported label + if c.site.label = label then 1 else 0 := by
  by_cases hl : c.site.label = label <;> simp [World.reported, h, Entry.result?, hl]

namespace Task

theorem pendings_append (ts us : List Task) :
    pendings label (ts ++ us) = pendings label ts + pendings label us := by
  simp [pendings]

theorem pendings_cons (task : Task) (ts : List Task) :
    pendings label (task :: ts) = task.pending label + pendings label ts := by
  simp [pendings]

theorem pendings_map_start (cs : List Call) :
    pendings label (cs.map start) = (Call.allOf cs).countP (·.site.label = label) := by
  induction cs with
  | nil => rfl
  | cons c cs ih =>
      rw [List.map_cons, pendings_cons, ih, Call.allOf, List.countP_append]
      rfl

/-- A call is one of the calls in it. -/
theorem own_le_reports (c : Call) : (if c.site.label = label then 1 else 0) ≤ c.reports label := by
  cases c <;> simp [Call.reports, Call.all, List.countP_cons]

theorem own_le_pending (task : Task) :
    (if task.call.site.label = label then 1 else 0) ≤ task.pending label := by
  cases task with
  | start c => exact own_le_reports label c
  | resume c wait => exact own_le_reports label c
  | release c hold gate => exact Nat.le_refl _

theorem pendings_ofBody_le (c : Call) : pendings label (ofBody c) ≤ c.reports label := by
  cases c with
  | single site op => exact Nat.zero_le _
  | scope site hold timeout body panics =>
      rw [ofBody, pendings_append, pendings_map_start]
      simp [Call.reports, Call.all, List.countP_cons, pendings, pending]

/-- What follows a task does not stand for more reports than the task. -/
theorem pendings_follow_le (task : Task) (f : Follow) :
    pendings label (task.follow f) ≤ task.pending label := by
  have hrelease : ∀ c hold gate, pendings label [release c hold gate] ≤ c.reports label := by
    intro c hold gate
    simpa [pendings, pending] using own_le_reports label c
  cases f with
  | nothing => cases task <;> exact Nat.zero_le _
  | body =>
      cases task with
      | start c => exact pendings_ofBody_le label c
      | resume c wait => exact pendings_ofBody_le label c
      | release c hold gate => exact Nat.zero_le _
  | release hold gate =>
      cases task with
      | start c => exact hrelease c hold gate
      | resume c wait => exact hrelease c hold gate
      | release c hold' gate' => exact Nat.zero_le _

/-- **A segment that reports a call leaves one less to be reported.** -/
theorem account_attempt_le (t : ThreadId) (task : Task) (w : World) (rest : List Task) :
    (task.attempt t w).world.reported label +
        pendings label (System.afterwards task rest (task.attempt t w)) ≤
      w.reported label + pendings label (task :: rest) := by
  have hwrites := attempt_writes t task w
  rw [pendings_cons]
  generalize hseg : task.attempt t w = segment at hwrites ⊢
  cases hwrites with
  | @park w' wait hjournal =>
      have hreported := World.reported_of_notes label (World.notes_of_eq hjournal)
      have hpending : (resume task.call wait).pending label = task.pending label := by
        cases task with
        | start c => rfl
        | resume c wait => rfl
        | release c hold gate => exact absurd hseg dispose_ne_park
      simp only [Segment.world, System.afterwards, pendings_cons, hpending, hreported]
      exact Nat.le_refl _
  | report hnotes hjournal =>
      have hreported := World.reported_of_finished label hjournal
      rw [World.reported_of_notes label hnotes] at hreported
      have hown := own_le_pending label task
      simp only [Segment.world, System.afterwards_nothing, hreported]
      omega
  | @more w' ns f hnotes _ =>
      have hreported := World.reported_of_notes label hnotes
      have hfollow := pendings_follow_le label task f
      simp only [Segment.world, System.afterwards, pendings_append, hreported]
      omega

end Task

namespace System

variable {s s' : System} {target : Nat}

theorem pending_of_perm (h : s'.everyone.Perm s.everyone) : s'.pending label = s.pending label :=
  weigh_perm _ h

theorem pending_of_perm_cons {r : Runner} (h : s'.everyone.Perm (r :: s.everyone)) :
    s'.pending label = Task.pendings label r.tasks + s.pending label := weigh_perm _ h

/-- **A turn that reports a call has one less to come.** -/
theorem account_turn_le (s : System) : s.turn.account label ≤ s.account label := by
  unfold turn
  split
  · exact Nat.le_refl _
  · rename_i t rs hs
    have hbefore := pending_of_perm_cons label (everyone_perm_of_runnable hs)
    simp only [account, hbefore]
    exact Nat.add_le_add_left (Nat.le_add_left ..) _
  · rename_i t task rest rs hs
    have hbefore := pending_of_perm_cons label (everyone_perm_of_runnable hs)
    have hafter := pending_of_perm_cons label
      (everyone_carryOut { s with runnable := rs } t task rest)
    have hsegment := Task.account_attempt_le label t task s.world rest
    simp only [account, hbefore, hafter, world_carryOut]
    omega

theorem account_settle_le (s : System) : s.settle.account label ≤ s.account label := by
  fun_induction settle s with
  | case1 s _ => exact Nat.le_refl _
  | case2 s _ ih => exact Nat.le_trans ih (account_turn_le label s)

/-- Nobody reports anything when a sleeper is woken by the clock. -/
theorem account_awake {p : Due} (hp : popDue target s.parked = some p) :
    (s.awake p).account label = s.account label := by
  obtain ⟨before, after, hparked, hearliest⟩ := popDue_eq_some_iff.1 hp
  simp only [account, pending_of_perm label (everyone_awake hparked hearliest.others)]
  rfl

theorem account_clear (s : System) : s.clear.account label = s.pending label := by
  simp [account, clear, World.reported, pending, everyone]

theorem account_enlist (s : System) (t : ThreadId) (cs : List Call) :
    (s.enlist t cs).account label =
      s.account label + (Call.allOf cs).countP (·.site.label = label) := by
  rw [← Task.pendings_map_start]
  simp [account, enlist, pending, everyone, Nat.add_assoc]

theorem account_advance_le (s : System) (target : Nat) :
    (s.advance target).account label ≤ s.account label := by
  fun_induction advance s target with
  | case1 s _ => exact Nat.le_refl _
  | case2 s p hp ih =>
      rw [← account_awake label hp]
      have hsettled := Nat.le_trans ih (account_settle_le label _)
      exact Nat.le_trans hsettled (account_turn_le label (s.awake p))

/-- The account of a step: what was to come before it, and the calls of the step. -/
theorem account_take_le (s : System) (step : Step) :
    (s.take step).1.account label ≤
      s.pending label + step.calls.countP (·.site.label = label) := by
  cases step with
  | advance ns =>
      rw [take_advance, ← account_clear]
      exact Nat.le_trans (account_advance_le label _ _) (Nat.le_add_right ..)
  | perform t cs =>
      cases ht : s.isParked t with
      | true =>
          rw [take_of_parked ht, account_clear]
          exact Nat.le_add_right ..
      | false =>
          have henlist := account_enlist label s.clear t cs
          rw [account_clear] at henlist
          rw [take_of_not_parked ht]
          exact Nat.le_trans (account_settle_le label _) (Nat.le_of_eq henlist)

end System

/-- What is reported and what is still to come is no more than was to come and the script calls. -/
theorem length_results_answers_le (s : System) (steps : List Step) :
    (results label (answers s steps)).length + (s.takeAll steps).pending label ≤
      s.pending label + (called label steps).length := by
  induction steps generalizing s with
  | nil => simp [answers, results, called, System.takeAll]
  | cons step steps ih =>
      have hstep := System.account_take_le label s step
      have hlater := ih (s.take step).1
      have hcalled : (called label (step :: steps)).length =
          step.calls.countP (·.site.label = label) + (called label steps).length := by
        simp [called, List.countP_eq_length_filter]
      have hresults : (results label (answers s (step :: steps))).length =
          (s.take step).1.world.reported label +
            (results label (answers (s.take step).1 steps)).length := by
        simp [results, answers, System.observe, World.reported]
      rw [hresults, hcalled, System.takeAll_cons]
      simp only [System.account] at hstep
      omega

/-- **Every call is reported at most once**: of the calls with a label, a run reports no more than
there are in its script. -/
theorem length_results_le (gates events : Nat) (silent : Bool) (steps : List Step) :
    (results label (run gates events silent steps)).length ≤ (called label steps).length := by
  have h := length_results_answers_le label (System.fresh gates events silent) steps
  have hfresh : (System.fresh gates events silent).pending label = 0 := rfl
  rw [hfresh, Nat.zero_add] at h
  exact Nat.le_of_add_right_le h

/-! ### The journal of a step only grows -/

namespace System

theorem prefix_journal_turn (s : System) : s.world.journal <+: s.turn.world.journal := by
  unfold turn
  split
  · exact List.prefix_refl _
  · exact List.prefix_refl _
  · rename_i t task rest rs _
    rw [world_carryOut]
    exact (task.attempt_effect t s.world).prefix_journal

theorem prefix_journal_settle (s : System) : s.world.journal <+: s.settle.world.journal := by
  fun_induction settle s with
  | case1 s _ => exact List.prefix_refl _
  | case2 s _ ih => exact (prefix_journal_turn s).trans ih

theorem prefix_journal_turns {s u : System} (h : u ∈ s.turns) :
    u.turn.world.journal <+: s.settle.world.journal := by
  fun_induction settle s with
  | case1 s hs =>
      rw [turns, if_pos hs] at h
      cases h
  | case2 s hs ih =>
      rw [turns_of_ne_nil hs] at h
      rcases List.mem_cons.1 h with rfl | h
      · exact prefix_journal_settle u.turn
      · exact ih h

theorem prefix_journal_advance (s : System) (target : Nat) :
    s.world.journal <+: (s.advance target).world.journal := by
  fun_induction advance s target with
  | case1 s _ => exact List.prefix_refl _
  | case2 s p _ ih =>
      have hturn := prefix_journal_turn (s.awake p)
      rw [journal_awake, ← rouse_eq_turn] at hturn
      exact (hturn.trans (prefix_journal_settle _)).trans ih

end System

end ReentrantGate.Script
