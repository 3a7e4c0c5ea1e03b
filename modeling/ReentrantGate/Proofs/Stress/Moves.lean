/-
**What a step of a worker can do.**

A worker follows a program, so its stage says how many entries and closes it has, and whether it may
be parked and for what.  A worker *fits* a crowd if the gate says the same about its thread.  From
there a step of a worker is one of a list of moves, each with the one thing that it does to what is
shared.  Verdicts that would break the program do not occur: whoever has an entry enters once more
without waiting, and gives back what it has without being refused.

A worker that dies while it is inside never leaves.  Its thread keeps the entries, so a dead worker
may be inside without its stage saying how often.  That takes a plan that is not safe: one whose
spins have no bound, or whose depths go beyond what an enterer can count.

Main definitions:

* `Stress.Stage.entries`, `Stage.aim`, `Stage.closes`, `Stage.wants`, `Stage.present`,
  `Stage.died` — what a stage says;
* `Stress.Plan.safe` — no enterer can die inside;
* `Stress.Worker.Fits` — the gate agrees with the stage;
* `Stress.Worker.Moves` — the list.

Main results:

* `Stress.Worker.Fits.step` — **every step is on the list**;
* `Stress.Worker.Fits.moves` — **a move keeps the worker fitting**;
* `Stress.Worker.Moves.inside` — the number of enterers inside changes with the stage.
-/

import ReentrantGate.Proofs.Gate.Turn
import ReentrantGate.Stress.Arena

set_option relaxedAutoImplicit false
set_option autoImplicit false

namespace ReentrantGate.Stress

open Gate

/-! ### What a stage says -/

namespace Stage

/-- The entries that a worker has; one that died may have more. -/
def entries : Stage → Nat
  | arrived _ => 1
  | nesting _ held => held
  | working held => held
  | departing held => held
  | exiting held => held
  | _ => 0

/-- The entries that a worker makes in a round, as long as it has some to ask for. -/
def aim : Stage → Nat
  | entering depth => depth
  | arrived depth => depth
  | nesting more held => more + held
  | _ => 0

/-- The closes that a worker has. -/
def closes : Stage → Nat
  | checking => 1
  | holding => 1
  | rechecking => 1
  | opening _ => 1
  | _ => 0

/-- What a worker may be parked for. -/
def wants : Stage → Option Hold
  | entering _ => some .entry
  | closing => some .close
  | _ => none

/-- Whether a worker has arrived and has not departed. -/
def present : Stage → Bool
  | nesting .. => true
  | working _ => true
  | departing _ => true
  | _ => false

/-- Whether a worker has died. -/
def died : Stage → Bool
  | ending dying => dying
  | finished died => died
  | _ => false

/-- Whether a stage belongs to the program of closers, or of enterers. -/
def serves (closer : Bool) : Stage → Bool
  | entering _ => !closer
  | arrived _ => !closer
  | nesting .. => !closer
  | working _ => !closer
  | departing _ => !closer
  | exiting _ => !closer
  | closing => closer
  | checking => closer
  | holding => closer
  | rechecking => closer
  | opening _ => closer
  | _ => true

/-- Whoever has a close serves as a closer. -/
theorem closer_of_closes {closer : Bool} {stage : Stage} (h : stage.serves closer = true)
    (hc : 0 < stage.closes) : closer = true := by
  cases stage <;> simp_all [serves, closes]

theorem closer_of_closing {closer : Bool} {stage : Stage} (h : stage.serves closer = true)
    (hs : stage = closing) : closer = true := by
  rw [hs] at h
  exact h

/-- Whoever has an entry serves as an enterer. -/
theorem enterer_of_entries {closer : Bool} {stage : Stage} (h : stage.serves closer = true)
    (he : 0 < stage.entries) : closer = false := by
  cases stage <;> simp_all [serves, entries]

/-- Whoever is present serves as an enterer. -/
theorem enterer_of_present {closer : Bool} {stage : Stage} (h : stage.serves closer = true)
    (hp : stage.present = true) : closer = false := by
  cases stage <;> simp_all [serves, present]

/-- Whoever can count an entry goes on to ask for more. -/
theorem nested_of_lt {more held : Nat} (h : held < maxHeld) :
    nested more held = nesting more (held + 1) := if_pos h

/-- Whoever cannot dies. -/
theorem nested_of_not_lt {more held : Nat} (h : ¬held < maxHeld) :
    nested more held = ending true := if_neg h

end Stage

/-- Whether no enterer can die inside: each can draw its work, and count its entries. -/
def Plan.safe (p : Plan) : Bool := hasBound p.spins && p.depth ≤ maxHeld

namespace Worker

/-- The gate agrees with the stage of a worker: its depths are those of the stage, unless it died
inside, it makes no more entries than it could draw, and it waits at most for what the stage
wants. -/
structure Fits (p : Plan) (c : Crowd) (w : Worker) : Prop where
  serves : w.stage.serves w.closer = true
  depth : c.gate.depth w.thread = w.stage.entries ∨
    w.stage.died = true ∧ w.closer = false ∧ p.safe = false
  within : w.stage.aim ≤ max 1 p.depth
  closeDepth : c.closeDepth w.thread = w.stage.closes
  present : w.stage.present = true → 0 < w.stage.entries
  waits : ∀ v ∈ c.visitors, v.thread = w.thread → w.stage.wants = some v.waiting.hold

/-- Whether a worker counts as an enterer inside: it is there, or it died there. -/
def counted (c : Crowd) (w : Worker) : Bool :=
  w.stage.present || w.stage.died && 0 < c.gate.depth w.thread

variable {p : Plan} {c c' : Crowd} {s s' : Shared} {w w' : Worker} {draw : Nat} {stage : Stage}

/-! ### What a worker that fits knows -/

namespace Fits

/-- A worker fits every crowd that its thread cannot tell apart from one that it fits. -/
theorem of_alike (h : w.Fits p c) (ha : c.Alike c' w.thread) : w.Fits p c' where
  serves := h.serves
  depth := ha.depth.symm ▸ h.depth
  within := h.within
  closeDepth := ha.closeDepth.trans h.closeDepth
  present := h.present
  waits v hv hvt := h.waits v ((ha.mem_iff v hvt).1 hv) hvt

/-- A worker that is alive has the entries of its stage. -/
theorem depth_eq (h : w.Fits p c) (hs : w.stage = stage) (hd : stage.died = false) :
    c.gate.depth w.thread = stage.entries := by
  subst hs
  rcases h.depth with hde | ⟨hdied, -, -⟩
  · exact hde
  · rw [hd] at hdied
    cases hdied

/-- A worker that is present is inside. -/
theorem depth_pos (h : w.Fits p c) (hs : w.stage = stage) (hp : stage.present = true) :
    0 < c.gate.depth w.thread := by
  have hd : stage.died = false := by
    cases stage <;> simp_all [Stage.present, Stage.died]
  rw [h.depth_eq hs hd, ← hs]
  exact h.present (hs ▸ hp)

/-- A worker that wants nothing is not in the middle of a call. -/
theorem idle (h : w.Fits p c) (hs : w.stage = stage) (hw : stage.wants = none) :
    c.idle w.thread = true := by
  rw [Crowd.idle_iff]
  intro v hv hvt
  have hwants := h.waits v hv hvt
  rw [hs, hw] at hwants
  cases hwants

/-- A worker with a close is the closer, and has stopped draining. -/
theorem closer_of_closes (h : w.Fits p c) (hs : w.stage = stage) (hc : 0 < stage.closes) :
    c.gate.closer = some w.thread ∧ c.drains w.thread = false := by
  rw [← hs, ← h.closeDepth] at hc
  exact closeDepth_pos hc

/-- Whoever counts is inside, and is no closer. -/
theorem of_counted (h : w.Fits p c) (hc : w.counted c = true) :
    0 < c.gate.depth w.thread ∧ w.closer = false := by
  simp only [counted, Bool.or_eq_true, Bool.and_eq_true, decide_eq_true_eq] at hc
  rcases hc with hp | ⟨hd, hpos⟩
  · exact ⟨h.depth_pos rfl hp, Stage.enterer_of_present h.serves hp⟩
  · rcases h.depth with hde | ⟨-, henterer, -⟩
    · exact ⟨hpos, Stage.enterer_of_entries h.serves (hde ▸ hpos)⟩
    · exact ⟨hpos, henterer⟩

/-- A worker that cannot count its entries has drawn a depth that nobody can count. -/
theorem overruns {more held : Nat} (h : w.Fits p c) (hs : w.stage = .nesting (more + 1) held)
    (hcount : ¬held < maxHeld) : maxHeld < p.depth := by
  have hwithin := h.within
  rw [hs, Stage.aim] at hwithin
  have hone : 1 ≤ maxHeld := by decide
  omega

end Fits

/-! ### The list -/

/-- **What a step of a worker can do**: to what is shared, and to the worker. -/
inductive Moves (p : Plan) (s : Shared) (w : Worker) : Shared → Worker → Prop
  -- a worker that waits
  | still : Moves p s w s w
  | park {hold : Hold} {c' : Crowd} : w.stage.wants = some hold →
      s.crowd.Turn w.thread hold none c' → Moves p s w (s.withOccurrence c' none) w
  -- between two rounds
  | retire : w.stage = .poll → w.rounds = 0 ∨ s.stop = true →
      Moves p s w s (w.goto (.ending false))
  | crash {n : Nat} : w.stage = .poll → w.closer = false → w.rounds = n + 1 →
      hasBound p.depth = false → Moves p s w s { w with rounds := n, stage := .ending true }
  | startEntry {n depth : Nat} : w.stage = .poll → w.closer = false → w.rounds = n + 1 →
      depth ≤ max 1 p.depth → Moves p s w s { w with rounds := n, stage := .entering depth }
  | startClose {n : Nat} : w.stage = .poll → w.closer = true → w.rounds = n + 1 →
      Moves p s w s { w with rounds := n, stage := .closing }
  -- a round of an enterer
  | entered {depth : Nat} {c' : Crowd} {o : Option Occurrence} : w.stage = .entering depth →
      s.crowd.Turn w.thread .entry (some .granted) c' →
      Moves p s w (s.withOccurrence c' o) (w.goto (.arrived depth))
  | entryTimedOut {depth : Nat} {c' : Crowd} {o : Option Occurrence} {verdict : Verdict} :
      w.stage = .entering depth → verdict.gain = 0 →
      s.crowd.Turn w.thread .entry (some verdict) c' →
      Moves p s w (s.withOccurrence c' o).countEnterTimeout (w.goto .poll)
  | entryOverflowed {depth : Nat} {c' : Crowd} {o : Option Occurrence} :
      w.stage = .entering depth → p.timeout.deadline? s.crowd.clock = none →
      s.crowd.Turn w.thread .entry (some .overflowed) c' →
      Moves p s w (s.withOccurrence c' o) (w.goto (.ending true))
  | arrive {depth : Nat} : w.stage = .arrived depth →
      Moves p s w s.arrive (w.goto (.nesting (depth - 1) 1))
  | nest {more held : Nat} {c' : Crowd} {o : Option Occurrence} :
      w.stage = .nesting (more + 1) held → s.crowd.Turn w.thread .entry (some .granted) c' →
      Moves p s w (s.withOccurrence c' o) (w.goto (.nesting more (held + 1)))
  | overrun {more held : Nat} {c' : Crowd} {o : Option Occurrence} :
      w.stage = .nesting (more + 1) held → maxHeld < p.depth →
      s.crowd.Turn w.thread .entry (some .granted) c' →
      Moves p s w (s.withOccurrence c' o) (w.goto (.ending true))
  | settle {held : Nat} : w.stage = .nesting 0 held → Moves p s w s (w.goto (.working held))
  | work {held : Nat} : w.stage = .working held → Moves p s w s (w.goto (.departing held))
  | collapse {held : Nat} : w.stage = .working held → hasBound p.spins = false →
      Moves p s w s (w.goto (.ending true))
  | depart {held : Nat} : w.stage = .departing held →
      Moves p s w s.depart (w.goto (.exiting held))
  | exit {held : Nat} {c' : Crowd} {o : Option Occurrence} : w.stage = .exiting (held + 1) →
      s.crowd.Turn w.thread .entry (some .released) c' →
      Moves p s w (s.withOccurrence c' o) (w.goto (.exiting held))
  | count : w.stage = .exiting 0 → Moves p s w s.countEntry (w.goto .poll)
  -- a round of a closer
  | closed {c' : Crowd} {o : Option Occurrence} : w.stage = .closing →
      s.crowd.Turn w.thread .close (some .granted) c' →
      Moves p s w (s.withOccurrence c' o) (w.goto .checking)
  | closeTimedOut {c' : Crowd} {o : Option Occurrence} {verdict : Verdict} : w.stage = .closing →
      verdict.gain = 0 → s.crowd.Turn w.thread .close (some verdict) c' →
      Moves p s w (s.withOccurrence c' o).countCloseTimeout (w.goto .poll)
  | closeOverflowed {c' : Crowd} {o : Option Occurrence} : w.stage = .closing →
      p.timeout.deadline? s.crowd.clock = none →
      s.crowd.Turn w.thread .close (some .overflowed) c' →
      Moves p s w (s.withOccurrence c' o) (w.goto (.ending true))
  | check : w.stage = .checking → Moves p s w s.check (w.goto .holding)
  | hold : w.stage = .holding → Moves p s w s (w.goto .rechecking)
  | faint : w.stage = .holding → hasBound p.spins = false →
      Moves p s w s (w.goto (.opening true))
  | recheck : w.stage = .rechecking →
      Moves p s w s.check.countClose (w.goto (.opening false))
  | reopen {dying : Bool} {c' : Crowd} {o : Option Occurrence} : w.stage = .opening dying →
      s.crowd.Turn w.thread .close (some .released) c' →
      Moves p s w (s.withOccurrence c' o) (w.goto (if dying then .ending true else .poll))
  -- the end
  | leave {dying : Bool} : w.stage = .ending dying →
      Moves p s w s.dropHandle (w.goto (.finished dying))

/-- What comes of a step is on the list; a step that parks leaves the worker as it is. -/
def Follows (p : Plan) (s : Shared) (w : Worker) : Progress → Prop
  | .finished => ∃ died, w.stage = .finished died
  | .parked s' => Moves p s w s' w
  | .moved s' w' => Moves p s w s' w'

/-! ### Asking the gate -/

/-- What comes of a worker's segment: it is still parked, it parks, or its call is over. -/
theorem ask_cases {r : Request} (hc : s.crowd.Reachable)
    (hw : ∀ v ∈ s.crowd.visitors, v.thread = w.thread → v.waiting.hold = r.hold)
    (next : Verdict → Shared → Shared × Worker) :
    w.ask s r next = .parked s ∨
      (∃ c', s.crowd.Turn w.thread r.hold none c' ∧
        w.ask s r next = .parked (s.withOccurrence c' none)) ∨
      ∃ c' o, s.crowd.Turn w.thread r.hold (some o.verdict) c' ∧
        (o.verdict = .overflowed → r.timeout?.bind (·.deadline? s.crowd.clock) = none) ∧
        w.ask s r next = .moved (next o.verdict (s.withOccurrence c' (some o))).1
          (next o.verdict (s.withOccurrence c' (some o))).2 := by
  have ho := hc.orderly
  unfold ask
  cases hwoken : s.crowd.isWoken w.thread with
  | true =>
      simp only [if_true]
      cases ha : s.crowd.act (.resume w.thread false) with
      | none => exact .inl rfl
      | some q =>
          obtain ⟨c', o⟩ := q
          have ht := ho.turn_of_resume hc hw ha
          cases o with
          | none => exact .inr (.inl ⟨c', ht, rfl⟩)
          | some o =>
              refine .inr (.inr ⟨c', o, ht, fun hover => ?_, rfl⟩)
              -- only the first segment of a call can overflow
              obtain ⟨t, r', f, heq, -⟩ := Crowd.deadline?_of_overflowed ha hover
              cases heq
  | false =>
      simp only [Bool.false_eq_true, if_false]
      cases ha : s.crowd.act (.call w.thread r false) with
      | none => exact .inl rfl
      | some q =>
          obtain ⟨c', o⟩ := q
          have ht := ho.turn_of_call hc ha
          cases o with
          | none => exact .inr (.inl ⟨c', ht, rfl⟩)
          | some o =>
              refine .inr (.inr ⟨c', o, ht, fun hover => ?_, rfl⟩)
              obtain ⟨t, r', f, heq, hnone⟩ := Crowd.deadline?_of_overflowed ha hover
              cases heq
              exact hnone

/-- An idle worker whose call is done at once moves on with its verdict. -/
theorem ask_of_idle {r : Request} {next : Verdict → Shared → Shared × Worker} {o : Occurrence}
    (hi : s.crowd.idle w.thread = true)
    (ha : s.crowd.act (.call w.thread r false) = some (c', some o)) :
    w.ask s r next = .moved (next o.verdict (s.withOccurrence c' (some o))).1
      (next o.verdict (s.withOccurrence c' (some o))).2 := by
  have hwoken : s.crowd.isWoken w.thread = false := by
    rw [Crowd.isWoken, List.any_eq_false]
    intro v hv
    simpa using Crowd.idle_iff.1 hi v (List.mem_append_right _ hv)
  simp only [ask, hwoken, Bool.false_eq_true, if_false, ha]

/-! ### Every step is on the list -/

/-- Between two rounds a worker starts another one, or is through. -/
theorem step_poll (hs : w.stage = .poll) : w.Follows p s (w.step p draw s) := by
  simp only [step, hs]
  split
  · exact .retire hs (.inl ‹_›)
  · rename_i n hr
    split
    · exact .retire hs (.inr ‹_›)
    · split
      · exact .startClose hs ‹_› hr
      · rename_i hcl
        rw [Bool.not_eq_true] at hcl
        split
        · refine .startEntry hs hcl hr ?_
          unfold drawDepth
          omega
        · rename_i hb
          exact .crash hs hcl hr (by simpa using hb)

section Step

variable (h : w.Fits p s.crowd)
include h

/-- A worker that is outside asks for its first entry. -/
theorem Fits.step_entering {depth : Nat} (hc : s.crowd.Reachable) (hs : w.stage = .entering depth) :
    w.Follows p s (w.step p draw s) := by
  have hw : ∀ v ∈ s.crowd.visitors, v.thread = w.thread →
      v.waiting.hold = (Request.enter p.timeout).hold := by
    intro v hv hvt
    have := h.waits v hv hvt
    rw [hs] at this
    exact (Option.some.inj this).symm
  have hd : s.crowd.gate.depth w.thread = 0 := h.depth_eq hs rfl
  simp only [step, hs]
  rcases ask_cases hc hw (w.afterEntering depth) with ha | ⟨c', ht, ha⟩ | ⟨c', o, ht, hover, ha⟩
  · rw [ha]
    exact .still
  · rw [ha]
    exact .park (by rw [hs]; rfl) ht
  · rw [ha]
    have hgain := ht.depth
    cases hv : o.verdict with
    | granted => exact .entered hs (hv ▸ ht)
    | overflowed => exact .entryOverflowed hs (hover hv) (hv ▸ ht)
    | timedOut => exact .entryTimedOut hs rfl (hv ▸ ht)
    | misused usage => exact .entryTimedOut hs rfl (hv ▸ ht)
    | released =>
        -- a thread that is outside has nothing to give back
        simp only [hd, hv, gained, Request.hold, Verdict.gain, if_true] at hgain
        omega

/-- A worker without a close asks for one. -/
theorem Fits.step_closing (hc : s.crowd.Reachable) (hs : w.stage = .closing) :
    w.Follows p s (w.step p draw s) := by
  have hw : ∀ v ∈ s.crowd.visitors, v.thread = w.thread →
      v.waiting.hold = (Request.close p.timeout).hold := by
    intro v hv hvt
    have := h.waits v hv hvt
    rw [hs] at this
    exact (Option.some.inj this).symm
  have hd : s.crowd.closeDepth w.thread = 0 := by
    rw [h.closeDepth, hs]
    rfl
  simp only [step, hs]
  rcases ask_cases hc hw w.afterClosing with ha | ⟨c', ht, ha⟩ | ⟨c', o, ht, hover, ha⟩
  · rw [ha]
    exact .still
  · rw [ha]
    exact .park (by rw [hs]; rfl) ht
  · rw [ha]
    have hgain := ht.closeDepth
    cases hv : o.verdict with
    | granted => exact .closed hs (hv ▸ ht)
    | overflowed => exact .closeOverflowed hs (hover hv) (hv ▸ ht)
    | timedOut => exact .closeTimedOut hs rfl (hv ▸ ht)
    | misused usage => exact .closeTimedOut hs rfl (hv ▸ ht)
    | released =>
        simp only [hd, hv, gained, Request.hold, Verdict.gain, if_true] at hgain
        omega

/-- **A worker that is inside enters once more at once**, whoever is the closer. -/
theorem Fits.step_nesting {more held : Nat} (hs : w.stage = .nesting (more + 1) held) :
    ∃ c' o, s.crowd.act (.call w.thread (.enter p.timeout) false) = some (c', some o) ∧
      o.verdict = .granted ∧ ∀ draw, w.step p draw s =
        .moved (s.withOccurrence c' (some o)) (w.goto (.nested more held)) := by
  have hi : s.crowd.idle w.thread = true := h.idle hs rfl
  have hbegin := enter_eq_of_inside (h.depth_pos hs rfl) p.timeout s.crowd.clock
  have ha := Crowd.act_call_of_done (r := .enter p.timeout) hi hbegin
  refine ⟨_, _, ha, rfl, fun draw => ?_⟩
  simp only [step, hs]
  rw [ask_of_idle hi ha]
  rfl

/-- **A worker that is inside is not refused an exit.** -/
theorem Fits.step_exiting {held : Nat} (hs : w.stage = .exiting (held + 1)) :
    ∃ c' o, s.crowd.act (.call w.thread .exit false) = some (c', some o) ∧
      o.verdict = .released ∧ ∀ draw, w.step p draw s =
        .moved (s.withOccurrence c' (some o)) (w.goto (.exiting held)) := by
  have hi : s.crowd.idle w.thread = true := h.idle hs rfl
  have hpos : 0 < s.crowd.gate.depth w.thread := by
    rw [h.depth_eq hs rfl]
    exact Nat.succ_pos held
  obtain ⟨g, room, note, hbegin⟩ := exit_eq s.crowd.gate w.thread
  rw [if_pos hpos] at hbegin
  have ha := Crowd.act_call_of_done (r := .exit) hi hbegin
  refine ⟨_, _, ha, rfl, fun draw => ?_⟩
  simp only [step, hs]
  rw [ask_of_idle hi ha]
  rfl

/-- A worker that has the close is not refused an opening. -/
theorem Fits.step_opening {dying : Bool} (hc : s.crowd.Reachable)
    (hs : w.stage = .opening dying) :
    ∃ c' o, s.crowd.act (.call w.thread .reopen false) = some (c', some o) ∧
      o.verdict = .released ∧ ∀ draw, w.step p draw s =
        .moved (s.withOccurrence c' (some o)) (w.goto (if dying then .ending true else .poll)) := by
  have hi : s.crowd.idle w.thread = true := h.idle hs rfl
  have hcloser : s.crowd.gate.isCloser w.thread = true :=
    hc.orderly.sound.isCloser_iff.2 (h.closer_of_closes hs Nat.one_pos).1
  obtain ⟨g, room, note, hbegin⟩ := reopen_eq s.crowd.gate w.thread
  rw [if_pos hcloser] at hbegin
  have ha := Crowd.act_call_of_done (r := .reopen) hi hbegin
  refine ⟨_, _, ha, rfl, fun draw => ?_⟩
  simp only [step, hs]
  rw [ask_of_idle hi ha]
  cases dying <;> rfl

/-- **Every step of a worker that fits is on the list.** -/
theorem Fits.step (hc : s.crowd.Reachable) (draw : Nat) : w.Follows p s (w.step p draw s) := by
  have ho := hc.orderly
  cases hs : w.stage with
  | poll => exact step_poll hs
  | entering depth => exact h.step_entering hc hs
  | arrived depth =>
      simp only [Worker.step, hs]
      exact .arrive hs
  | nesting more held =>
      cases more with
      | zero =>
          simp only [Worker.step, hs]
          exact .settle hs
      | succ more =>
          obtain ⟨c', o, ha, hv, hstep⟩ := h.step_nesting hs
          have ht : s.crowd.Turn w.thread .entry (some o.verdict) c' := ho.turn_of_call hc ha
          rw [hstep draw]
          by_cases hcount : held < maxHeld
          · rw [Stage.nested_of_lt hcount]
            exact .nest hs (hv ▸ ht)
          · rw [Stage.nested_of_not_lt hcount]
            exact .overrun hs (h.overruns hs hcount) (hv ▸ ht)
  | working held =>
      simp only [Worker.step, hs]
      cases hb : hasBound p.spins with
      | true => exact .work hs
      | false => exact .collapse hs hb
  | departing held =>
      simp only [Worker.step, hs]
      exact .depart hs
  | exiting held =>
      cases held with
      | zero =>
          simp only [Worker.step, hs]
          exact .count hs
      | succ held =>
          obtain ⟨c', o, ha, hv, hstep⟩ := h.step_exiting hs
          have ht : s.crowd.Turn w.thread .entry (some o.verdict) c' := ho.turn_of_call hc ha
          rw [hstep draw]
          exact .exit hs (hv ▸ ht)
  | closing => exact h.step_closing hc hs
  | checking =>
      simp only [Worker.step, hs]
      exact .check hs
  | holding =>
      simp only [Worker.step, hs]
      cases hb : hasBound p.spins with
      | true => exact .hold hs
      | false => exact .faint hs hb
  | rechecking =>
      simp only [Worker.step, hs]
      exact .recheck hs
  | opening dying =>
      obtain ⟨c', o, ha, hv, hstep⟩ := h.step_opening hc hs
      have ht : s.crowd.Turn w.thread .close (some o.verdict) c' := ho.turn_of_call hc ha
      rw [hstep draw]
      exact .reopen hs (hv ▸ ht)
  | ending dying =>
      simp only [Worker.step, hs]
      exact .leave hs
  | finished died =>
      simp only [Worker.step, hs]
      exact ⟨died, hs⟩

end Step

/-! ### What a move changes -/

namespace Moves

theorem thread_eq (m : Moves p s w s' w') : w'.thread = w.thread := by
  cases m <;> rfl

@[simp] theorem crowd_check : s.check.crowd = s.crowd := by
  unfold Shared.check
  split <;> rfl

/-- A move is a turn of the worker's thread, or it leaves the gate alone. -/
theorem crowd_cases (m : Moves p s w s' w') :
    s'.crowd = s.crowd ∨ ∃ hold verdict?, s.crowd.Turn w.thread hold verdict? s'.crowd := by
  cases m with
  | park _ ht => exact .inr ⟨_, _, ht⟩
  | entered _ ht => exact .inr ⟨_, _, ht⟩
  | entryTimedOut _ _ ht => exact .inr ⟨_, _, ht⟩
  | entryOverflowed _ _ ht => exact .inr ⟨_, _, ht⟩
  | nest _ ht => exact .inr ⟨_, _, ht⟩
  | overrun _ _ ht => exact .inr ⟨_, _, ht⟩
  | exit _ ht => exact .inr ⟨_, _, ht⟩
  | closed _ ht => exact .inr ⟨_, _, ht⟩
  | closeTimedOut _ _ ht => exact .inr ⟨_, _, ht⟩
  | closeOverflowed _ _ ht => exact .inr ⟨_, _, ht⟩
  | reopen _ ht => exact .inr ⟨_, _, ht⟩
  | check _ => exact .inl crowd_check
  | recheck _ => exact .inl crowd_check
  | _ => exact .inl rfl

theorem reachable (m : Moves p s w s' w') (hc : s.crowd.Reachable) : s'.crowd.Reachable := by
  rcases m.crowd_cases with heq | ⟨_, _, ht⟩
  · exact heq ▸ hc
  · exact ht.reachable

theorem clock_eq (m : Moves p s w s' w') : s'.crowd.clock = s.crowd.clock := by
  rcases m.crowd_cases with heq | ⟨_, _, ht⟩
  · rw [heq]
  · exact ht.clock

/-- **A move of one worker changes nothing for the threads of the others.** -/
theorem alike (m : Moves p s w s' w') {u : ThreadId} (hu : u ≠ w.thread) :
    s.crowd.Alike s'.crowd u := by
  rcases m.crowd_cases with heq | ⟨_, _, ht⟩
  · rw [heq]
    exact ⟨rfl, rfl, fun _ _ => Iff.rfl⟩
  · exact ht.alike u hu

end Moves

/-! ### A move keeps the worker fitting -/

section Keep

variable {hold : Hold} {verdict : Verdict}

/-- A worker that goes on without the gate, with the entries and closes that it has. -/
theorem Fits.advance (h : w.Fits p c) (hs : w.stage = stage) (hthread : w'.thread = w.thread)
    (hwants : stage.wants = none) (halive : stage.died = false)
    (hserves : stage.serves w.closer = true → w'.stage.serves w'.closer = true)
    (hentries : w'.stage.entries = stage.entries) (haim : w'.stage.aim ≤ max 1 p.depth)
    (hcloses : w'.stage.closes = stage.closes)
    (hpresent : w'.stage.present = false ∨ 0 < w'.stage.entries) : w'.Fits p c := by
  refine ⟨hserves (hs ▸ h.serves), .inl ?_, haim, ?_,
    fun hp => hpresent.resolve_left (by simp [hp]), fun v hv hvt => ?_⟩
  · rw [hthread, h.depth_eq hs halive, hentries]
  · rw [hthread, h.closeDepth, hs, hcloses]
  · exact absurd (hvt.trans hthread) (Crowd.idle_iff.1 (h.idle hs hwants) v hv)

/-- A worker whose call is over, with what the verdict gave it or took from it. -/
theorem Fits.of_turn (h : w.Fits p c) (hs : w.stage = stage) (hthread : w'.thread = w.thread)
    (ht : c.Turn w.thread hold (some verdict) c') (halive : stage.died = false)
    (hserves : stage.serves w.closer = true → w'.stage.serves w'.closer = true)
    (hentries : (w'.stage.entries : Int) = stage.entries + gained .entry hold (some verdict))
    (haim : w'.stage.aim ≤ max 1 p.depth)
    (hcloses : (w'.stage.closes : Int) = stage.closes + gained .close hold (some verdict))
    (hpresent : w'.stage.present = false ∨ 0 < w'.stage.entries) : w'.Fits p c' := by
  have hd := ht.depth
  have hcd := ht.closeDepth
  rw [h.depth_eq hs halive, ← hentries] at hd
  rw [h.closeDepth, hs, ← hcloses] at hcd
  refine ⟨hserves (hs ▸ h.serves), .inl ?_, haim, ?_,
    fun hp => hpresent.resolve_left (by simp [hp]), fun v hv hvt => ?_⟩
  · rw [hthread]
    exact Int.natCast_inj.1 hd
  · rw [hthread]
    exact Int.natCast_inj.1 hcd
  · exact absurd (ht.waits v hv (hvt.trans hthread)).1 (by simp)

/-- A worker that parks, for what it wants. -/
theorem Fits.of_park (h : w.Fits p c) (hw : w.stage.wants = some hold)
    (ht : c.Turn w.thread hold none c') : w.Fits p c' := by
  have hd : c'.gate.depth w.thread = c.gate.depth w.thread := by
    have := ht.depth
    simp only [gained] at this
    omega
  have hcd : c'.closeDepth w.thread = c.closeDepth w.thread := by
    have := ht.closeDepth
    simp only [gained] at this
    omega
  refine ⟨h.serves, hd.symm ▸ h.depth, h.within, hcd.trans h.closeDepth, h.present,
    fun v hv hvt => ?_⟩
  rw [hw, (ht.waits v hv hvt).2]

/-- A worker that dies inside keeps its entries. -/
theorem Fits.of_collapse {held : Nat} (h : w.Fits p c) (hs : w.stage = .working held)
    (hb : hasBound p.spins = false) : (w.goto (.ending true)).Fits p c := by
  have henterer : w.closer = false := Stage.enterer_of_present h.serves (by rw [hs]; rfl)
  have hsafe : p.safe = false := by simp [Plan.safe, hb]
  refine ⟨rfl, .inr ⟨rfl, henterer, hsafe⟩, Nat.zero_le _, ?_, nofun, fun v hv hvt => ?_⟩
  · exact h.closeDepth.trans (by rw [hs]; rfl)
  · exact absurd hvt (Crowd.idle_iff.1 (h.idle hs rfl) v hv)

/-- So does one that dies of an entry that it cannot count. -/
theorem Fits.of_overrun {more held : Nat} (h : w.Fits p c)
    (hs : w.stage = .nesting (more + 1) held) (hdeep : maxHeld < p.depth)
    (ht : c.Turn w.thread .entry (some .granted) c') : (w.goto (.ending true)).Fits p c' := by
  have henterer : w.closer = false := Stage.enterer_of_present h.serves (by rw [hs]; rfl)
  have hsafe : p.safe = false := by simp [Plan.safe, hdeep]
  have hclose : c'.closeDepth w.thread = 0 := by
    have hcd := ht.closeDepth
    rw [h.closeDepth, hs] at hcd
    exact Int.natCast_inj.1 hcd
  exact ⟨rfl, .inr ⟨rfl, henterer, hsafe⟩, Nat.zero_le _, hclose, nofun,
    fun v hv hvt => absurd (ht.waits v hv hvt).1 (by simp)⟩

/-- A worker that leaves is as dead or alive as before. -/
theorem Fits.of_leave {dying : Bool} (h : w.Fits p c) (hs : w.stage = .ending dying) :
    (w.goto (.finished dying)).Fits p c := by
  obtain ⟨t, closer, rounds, stage⟩ := w
  cases hs
  exact ⟨rfl, h.depth, h.within, h.closeDepth, nofun, h.waits⟩

/-- **A move keeps the worker fitting.** -/
theorem Fits.moves (h : w.Fits p s.crowd) (m : Moves p s w s' w') : w'.Fits p s'.crowd := by
  have hwithin := h.within
  cases m with
  | still => exact h
  | park hw ht => exact h.of_park hw ht
  | retire hs _ => exact h.advance hs rfl rfl rfl (fun _ => rfl) rfl (Nat.zero_le _) rfl (.inl rfl)
  | crash hs _ _ _ =>
      exact h.advance hs rfl rfl rfl (fun _ => rfl) rfl (Nat.zero_le _) rfl (.inl rfl)
  | startEntry hs hcl _ hdepth =>
      exact h.advance hs rfl rfl rfl (fun _ => by simp [Stage.serves, hcl]) rfl hdepth rfl
        (.inl rfl)
  | startClose hs hcl _ =>
      exact h.advance hs rfl rfl rfl (fun _ => by simp [Stage.serves, hcl]) rfl (Nat.zero_le _) rfl
        (.inl rfl)
  | entered hs ht =>
      rw [hs] at hwithin
      exact h.of_turn hs rfl ht rfl id rfl hwithin rfl (.inl rfl)
  | entryTimedOut hs hg ht =>
      refine h.of_turn hs rfl ht rfl (fun _ => rfl) ?_ (Nat.zero_le _) ?_ (.inl rfl)
      · simp [gained, hg, goto, Stage.entries]
      · simp [gained, goto, Stage.closes]
  | entryOverflowed hs _ ht =>
      exact h.of_turn hs rfl ht rfl (fun _ => rfl) rfl (Nat.zero_le _) rfl (.inl rfl)
  | arrive hs =>
      refine h.advance hs rfl rfl rfl id rfl ?_ rfl (.inr Nat.one_pos)
      rw [hs] at hwithin
      simp only [Stage.aim, goto] at hwithin ⊢
      omega
  | nest hs ht =>
      refine h.of_turn hs rfl ht rfl id rfl ?_ rfl (.inr (Nat.succ_pos _))
      rw [hs] at hwithin
      simp only [Stage.aim, goto] at hwithin ⊢
      omega
  | overrun hs hdeep ht => exact h.of_overrun hs hdeep ht
  | settle hs =>
      have hpresent := h.present
      rw [hs] at hpresent
      exact h.advance hs rfl rfl rfl id rfl (Nat.zero_le _) rfl (.inr (hpresent rfl))
  | work hs =>
      have hpresent := h.present
      rw [hs] at hpresent
      exact h.advance hs rfl rfl rfl id rfl (Nat.zero_le _) rfl (.inr (hpresent rfl))
  | collapse hs hb => exact h.of_collapse hs hb
  | depart hs => exact h.advance hs rfl rfl rfl id rfl (Nat.zero_le _) rfl (.inl rfl)
  | exit hs ht =>
      refine h.of_turn hs rfl ht rfl id ?_ (Nat.zero_le _) rfl (.inl rfl)
      simp only [goto, Stage.entries, gained, Verdict.gain, if_true]
      omega
  | count hs => exact h.advance hs rfl rfl rfl (fun _ => rfl) rfl (Nat.zero_le _) rfl (.inl rfl)
  | closed hs ht => exact h.of_turn hs rfl ht rfl id rfl (Nat.zero_le _) rfl (.inl rfl)
  | closeTimedOut hs hg ht =>
      refine h.of_turn hs rfl ht rfl (fun _ => rfl) ?_ (Nat.zero_le _) ?_ (.inl rfl)
      · simp [gained, goto, Stage.entries]
      · simp [gained, hg, goto, Stage.closes]
  | closeOverflowed hs _ ht =>
      exact h.of_turn hs rfl ht rfl (fun _ => rfl) rfl (Nat.zero_le _) rfl (.inl rfl)
  | check hs =>
      rw [Moves.crowd_check]
      exact h.advance hs rfl rfl rfl id rfl (Nat.zero_le _) rfl (.inl rfl)
  | hold hs => exact h.advance hs rfl rfl rfl id rfl (Nat.zero_le _) rfl (.inl rfl)
  | faint hs _ => exact h.advance hs rfl rfl rfl id rfl (Nat.zero_le _) rfl (.inl rfl)
  | recheck hs =>
      rw [Shared.countClose, Moves.crowd_check]
      exact h.advance hs rfl rfl rfl id rfl (Nat.zero_le _) rfl (.inl rfl)
  | @reopen dying _ _ hs ht =>
      cases dying with
      | true => exact h.of_turn hs rfl ht rfl (fun _ => rfl) rfl (Nat.zero_le _) rfl (.inl rfl)
      | false => exact h.of_turn hs rfl ht rfl (fun _ => rfl) rfl (Nat.zero_le _) rfl (.inl rfl)
  | leave hs => exact h.of_leave hs

end Keep

/-! ### Enterers inside -/

section Inside

/-- Whoever has not died counts while it is present. -/
theorem counted_of_alive (hs : w.stage = stage) (hd : stage.died = false) :
    w.counted c = stage.present := by
  simp [counted, hs, hd]

/-- Whoever is outside and not present does not count. -/
theorem counted_of_outside (hs : w.stage = stage) (hp : stage.present = false)
    (h0 : c.gate.depth w.thread = 0) : w.counted c = false := by
  simp [counted, hs, hp, h0]

theorem Fits.counted_of_closer (h : w.Fits p c) (hcl : w.closer = true) :
    w.counted c = false := by
  rw [Bool.eq_false_iff]
  intro hcounted
  rw [(h.of_counted hcounted).2] at hcl
  cases hcl

/-- A worker that dies inside goes on to count. -/
theorem counted_of_died (hpos : 0 < c.gate.depth w.thread) :
    (w.goto (.ending true)).counted c = true := decide_eq_true hpos

@[simp] theorem inside_check : s.check.inside = s.inside := by
  unfold Shared.check
  split <;> rfl

/-- For workers that are alive it is enough that the number follows the stage. -/
theorem inside_of_alive (hs : w.stage = stage) (hd : stage.died = false)
    (hd' : w'.stage.died = false)
    (hin : s'.inside + stage.present.toNat = s.inside + w'.stage.present.toNat) :
    s'.inside + (w.counted s.crowd).toNat = s.inside + (w'.counted s'.crowd).toNat := by
  rw [counted_of_alive hs hd, counted_of_alive rfl hd']
  exact hin

/-- A worker that counts neither before nor after changes nothing. -/
theorem inside_of_not_counted (hin : s'.inside = s.inside) (hc : w.counted s.crowd = false)
    (hc' : w'.counted s'.crowd = false) :
    s'.inside + (w.counted s.crowd).toNat = s.inside + (w'.counted s'.crowd).toNat := by
  rw [hc, hc', hin]

/-- **The number of enterers inside changes as the worker comes to count or ceases to.** -/
theorem Moves.inside (m : Moves p s w s' w') (h : w.Fits p s.crowd)
    (hin : (w.counted s.crowd).toNat ≤ s.inside) :
    s'.inside + (w.counted s.crowd).toNat = s.inside + (w'.counted s'.crowd).toNat := by
  have h' := h.moves m
  cases m with
  | still => rfl
  | park hw _ =>
      have hd : w.stage.died = false := by
        cases hs : w.stage <;> simp_all [Stage.wants, Stage.died]
      exact inside_of_alive rfl hd hd rfl
  | retire hs _ => exact inside_of_alive hs rfl rfl rfl
  | crash hs _ _ _ =>
      have hout : s.crowd.gate.depth w.thread = 0 := h.depth_eq hs rfl
      exact inside_of_not_counted rfl (counted_of_outside hs rfl hout)
        (counted_of_outside rfl rfl hout)
  | startEntry hs _ _ _ => exact inside_of_alive hs rfl rfl rfl
  | startClose hs _ _ => exact inside_of_alive hs rfl rfl rfl
  | entered hs _ => exact inside_of_alive hs rfl rfl rfl
  | entryTimedOut hs _ _ => exact inside_of_alive hs rfl rfl rfl
  | @entryOverflowed _ c' _ hs _ ht =>
      have hout : s.crowd.gate.depth w.thread = 0 := h.depth_eq hs rfl
      have hout' : c'.gate.depth w.thread = 0 := by
        have hgain := ht.depth
        simp only [hout, gained, Verdict.gain] at hgain
        simpa using hgain
      exact inside_of_not_counted rfl (counted_of_outside hs rfl hout)
        (counted_of_outside rfl rfl hout')
  | arrive hs => exact inside_of_alive hs rfl rfl rfl
  | nest hs _ => exact inside_of_alive hs rfl rfl rfl
  | @overrun _ _ c' o hs _ ht =>
      have hpos : 0 < c'.gate.depth w.thread := by
        have hgain := ht.depth
        simp only [gained, Verdict.gain, if_true] at hgain
        omega
      have hcounts : (w.goto (.ending true)).counted (s.withOccurrence c' o).crowd = true :=
        counted_of_died hpos
      rw [counted_of_alive hs rfl, hcounts]
      rfl
  | settle hs => exact inside_of_alive hs rfl rfl rfl
  | work hs => exact inside_of_alive hs rfl rfl rfl
  | collapse hs _ =>
      rw [counted_of_alive hs rfl, counted_of_died (h.depth_pos hs rfl)]
      rfl
  | depart hs =>
      -- the one who departs was counted, so the number was positive
      rw [counted_of_alive hs rfl] at hin
      exact inside_of_alive hs rfl rfl (Nat.sub_add_cancel hin)
  | exit hs _ => exact inside_of_alive hs rfl rfl rfl
  | count hs => exact inside_of_alive hs rfl rfl rfl
  | closed hs _ => exact inside_of_alive hs rfl rfl rfl
  | closeTimedOut hs _ _ => exact inside_of_alive hs rfl rfl rfl
  | closeOverflowed hs _ _ =>
      have hcl : w.closer = true := Stage.closer_of_closing h.serves hs
      exact inside_of_not_counted rfl (h.counted_of_closer hcl) (h'.counted_of_closer hcl)
  | check hs =>
      exact inside_of_alive hs rfl rfl (by rw [inside_check]; rfl)
  | hold hs => exact inside_of_alive hs rfl rfl rfl
  | faint hs _ => exact inside_of_alive hs rfl rfl rfl
  | recheck hs =>
      exact inside_of_alive hs rfl rfl (by rw [Shared.countClose, inside_check]; rfl)
  | reopen hs _ =>
      have hcl : w.closer = true := Stage.closer_of_closes h.serves (by rw [hs]; exact Nat.one_pos)
      exact inside_of_not_counted rfl (h.counted_of_closer hcl) (h'.counted_of_closer hcl)
  | leave hs =>
      -- dead or alive, the worker is where it was
      rw [counted, hs]
      rfl

end Inside

end Worker

end ReentrantGate.Stress
