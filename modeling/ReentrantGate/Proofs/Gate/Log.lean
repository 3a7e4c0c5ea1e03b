/-
**The log tells the truth about the close.**

A segment leaves its note while it still has the lock, after all its changes, so what the log says
about the close can be compared with the gate itself.  The records "closed" and "opened" are the
*transitions*.  If the sink accepts every record they are a mirror of who holds the close: they
alternate, and the last of them tells whether the close is held, and by whom.  The other two records
about the close come without a transition, and every value in a record is that of the gate which
the segment leaves behind.

Main definitions:

* `Gate.Crowd.holder?` — the thread that holds the close;
* `Gate.log`, `Gate.transitions` — what was written, and what of it is about the close coming and
  going;
* `Gate.Mirrors`, `Gate.Truthful` — what the transitions say together, and each record about the
  close for itself.

Main results:

* `Gate.Move.told` — **what a segment notes is what it did**;
* `Gate.Crowd.run_mirrors` — the transitions mirror the close after every run;
* `Gate.Crowd.log_tells_truth` — **both together**.
-/

import ReentrantGate.Proofs.Gate.Holds

set_option relaxedAutoImplicit false
set_option autoImplicit false

namespace ReentrantGate.Gate

open Crowd (Leaves Step occurrence? gate_absorb drains_absorb_of_ne drains_absorb_self
  drains_of_perm)

/-! ### Who holds the close -/

namespace Crowd

/-- The thread that holds the close: the closer, once its drain is over. -/
def holder? (c : Crowd) : Option ThreadId := c.gate.closer.filter fun t => !c.drains t

theorem holder?_eq_some_iff {c : Crowd} {t : ThreadId} :
    c.holder? = some t ↔ c.gate.closer = some t ∧ c.drains t = false := by
  simp [holder?, Option.filter_eq_some_iff]

/-- Who holds the close depends on the closer and on who drains. -/
theorem holder?_congr {c e : Crowd} (hc : e.gate.closer = c.gate.closer)
    (hd : ∀ t, e.drains t = c.drains t) : e.holder? = c.holder? := by
  simp only [holder?, hc, hd]

end Crowd

/-! ### What is written -/

/-- The record that a call left in the log; one on which the sink failed is not there. -/
def Occurrence.record? (o : Occurrence) : Option Record :=
  if o.unwound then none else o.note.map (·.record)

/-- The log of a history: every record with the thread that emitted it, in order. -/
def log (history : List Occurrence) : List (ThreadId × Record) :=
  history.filterMap fun o => o.record?.map fun r => (o.thread, r)

/-- Whether a record says that the close has come or gone. -/
def isTransition (r : Record) : Bool := r.message = "closed" || r.message = "opened"

/-- The records of a history that say that the close has come or gone. -/
def transitions (history : List Occurrence) : List (ThreadId × Record) :=
  (log history).filter fun p => isTransition p.2

theorem transitions_append (before after : List Occurrence) :
    transitions (before ++ after) = transitions before ++ transitions after := by
  simp [transitions, log]

/-- A call adds its record to the transitions if it is one. -/
theorem transitions_singleton {o : Occurrence} (h : o.unwound = false) :
    transitions [o] =
      ((o.note.map (·.record)).filter isTransition).toList.map (o.thread, ·) := by
  cases hn : o.note with
  | none => simp [transitions, log, Occurrence.record?, hn]
  | some note =>
      by_cases ht : isTransition note.record = true
      · simp [transitions, log, Occurrence.record?, h, hn, ht, Option.filter]
      · simp [transitions, log, Occurrence.record?, h, hn, ht, Option.filter]

/-! ### What a segment notes is what it did -/

/-- Whether a note is about the close of its own thread. -/
def Note.aboutClose : Note → Bool
  | nested _ => true
  | rolledBack _ => true
  | closed _ => true
  | opened => true
  | _ => false

/-- What a note of `t` says about the gate `g` that its segment leaves, with who held the close
before the segment and who holds it after.  Whatever comes without one of these notes leaves the
close where it is. -/
inductive Told (t : ThreadId) (g : Gate) : Option ThreadId → Option Note → Option ThreadId → Prop
  | closed {own : Nat} : own = g.entered → Told t g none (some (.closed own)) (some t)
  | opened : Told t g (some t) (some .opened) none
  | nested {depth : Nat} : depth = g.closed → 2 ≤ depth →
      Told t g (some t) (some (.nested depth)) (some t)
  | rolledBack {pending : Nat} : pending = g.entered → g.depth t < pending →
      Told t g none (some (.rolledBack pending)) none
  | other {holder : Option ThreadId} {note : Option Note} :
      (∀ n ∈ note, n.aboutClose = false) → Told t g holder note holder

/-- A closer with the gate to itself owns all entries. -/
theorem Sound.entered_eq_depth {g : Gate} (h : g.Sound) {t : ThreadId} (hc : g.closer = some t)
    (hf : g.foreign = 0) : g.depth t = g.entered := by
  have hle := h.depth_le_entered t
  rw [foreign_eq hc] at hf
  omega

/-- If there are foreign entries, then the closer's own are not all. -/
theorem depth_lt_entered {g : Gate} {t : ThreadId} (hc : g.closer = some t) (hf : g.foreign ≠ 0) :
    g.depth t < g.entered := by
  rw [foreign_eq hc] at hf
  omega

section Segments

variable {c rest : Crowd} {t : ThreadId} {d : Bool} {hold : Hold} {s : Segment}

/-- A segment that leaves the closer alone and does not change whether its thread drains leaves the
close with whoever holds it. -/
theorem holder?_absorb (hl : Leaves c t d rest) (hc : s.gate.closer = c.gate.closer)
    (hd : s.draining = d) : (rest.absorb t s).holder? = c.holder? := by
  refine Crowd.holder?_congr (by rw [gate_absorb, hc]) fun u => ?_
  by_cases hu : u = t
  · rw [hu, drains_absorb_self hl.away, hl.drains, hd]
  · rw [drains_absorb_of_ne hu, hl.drains_of_ne hu]

/-- Who holds the close after a segment that makes its thread the closer, or leaves it so. -/
theorem holder?_absorb_self (hl : Leaves c t d rest) (hc : s.gate.closer = some t) :
    (rest.absorb t s).holder? = if s.draining then none else some t := by
  simp only [Crowd.holder?, gate_absorb, hc, Option.filter, drains_absorb_self hl.away]
  cases s.draining <;> rfl

theorem holder?_of_closer_none (hc : c.gate.closer = none) : c.holder? = none := by
  simp [Crowd.holder?, hc]

/-- While the closer has the lock, it holds the close unless it drains. -/
theorem holder?_of_leaves (hl : Leaves c t d rest) (hc : c.gate.closer = some t) :
    c.holder? = if d then none else some t := by
  simp only [Crowd.holder?, hc, Option.filter, hl.drains]
  cases d <;> rfl

/-- **What a segment notes is what it did.** -/
theorem Move.told (m : Move t c.gate d hold s) (h : c.gate.Sound) (hl : Leaves c t d rest)
    (sinkFails : Bool) :
    Told t s.gate c.holder? ((occurrence? t hold sinkFails s).bind (·.note))
      (rest.absorb t s).holder? := by
  cases m with
  | refuse e =>
      rw [holder?_absorb hl rfl rfl]
      cases e <;> exact .other (by simp [occurrence?, Note.aboutClose])
  | enter _ =>
      rw [holder?_absorb hl rfl rfl]
      exact .other (by simp [occurrence?])
  | exit _ _ =>
      rw [holder?_absorb hl rfl rfl]
      exact .other (by simp [occurrence?])
  | lastExit _ _ _ _ =>
      rw [holder?_absorb hl rfl rfl]
      exact .other (by simp [occurrence?])
  | nest hc =>
      have hpos := h.closed_pos hc
      rw [holder?_absorb hl rfl rfl, holder?_of_leaves hl hc]
      exact .nested rfl (by simp only [Gate.nest]; omega)
  | unnest hc _ =>
      rw [holder?_absorb hl rfl rfl]
      exact .other (by simp [occurrence?])
  | reopen hc _ =>
      rw [holder?_of_leaves hl hc, holder?_of_closer_none (by rw [gate_absorb]; rfl)]
      exact .opened
  | claim hc hf =>
      rw [holder?_of_closer_none hc, holder?_absorb_self hl rfl]
      exact .closed ((h.claim t).entered_eq_depth rfl hf)
  | probe hc hf =>
      rw [holder?_absorb hl rfl rfl, holder?_of_closer_none hc]
      exact .rolledBack rfl (depth_lt_entered (g := c.gate.claim t) rfl hf)
  | drained hc _ hf =>
      rw [holder?_of_leaves hl hc, holder?_absorb_self hl (by exact hc)]
      exact .closed (h.entered_eq_depth hc hf)
  | rollBack hc hf =>
      rw [holder?_of_leaves hl hc, holder?_of_closer_none (by rw [gate_absorb]; rfl)]
      exact .rolledBack rfl (depth_lt_entered (g := c.gate) hc hf)
  | park hw _ _ =>
      rw [holder?_absorb hl rfl (by exact hw)]
      exact .other (by simp [occurrence?])
  | drain hc _ =>
      rw [holder?_of_closer_none hc, holder?_absorb_self hl rfl]
      exact .other (by simp [occurrence?])
  | stay _ _ _ =>
      rw [holder?_absorb hl rfl rfl]
      exact .other (by simp [occurrence?])

end Segments

/-- Without a note the close stays where it is. -/
theorem Told.eq_of_none {t : ThreadId} {g : Gate} {before after : Option ThreadId}
    (h : Told t g before none after) : after = before := by
  cases h
  rfl

/-- **Every call that is over is told by its note, and nothing else moves the close.** -/
theorem Crowd.Step.told {c c' : Crowd} {a : Action} {o : Option Occurrence} (hs : Step c a c' o)
    (h : c.Orderly) :
    o = none ∧ c'.holder? = c.holder? ∨
      ∃ p, o = some p ∧ Told p.thread c'.gate c.holder? p.note c'.holder? := by
  cases hs with
  | @segment t d hold s rest sinkFails _ hl m =>
      have told := m.told h.sound hl sinkFails
      rw [gate_absorb]
      cases s with
      | park g w => exact .inl ⟨rfl, told.eq_of_none⟩
      | done g room note verdict => exact .inr ⟨_, rfl, told⟩
  | still _ hg hv _ =>
      exact .inl ⟨rfl, Crowd.holder?_congr (by rw [hg]) fun u => drains_of_perm hv⟩

/-! ### The transitions mirror the close -/

/-- Which transition comes after which: whoever has written "closed" writes "opened" next, and then
anybody may write "closed". -/
def Follows (p q : ThreadId × Record) : Prop :=
  p.2.message = "closed" ∧ q.2.message = "opened" ∧ q.1 = p.1 ∨
    p.2.message = "opened" ∧ q.2.message = "closed"

/-- **The transitions mirror who holds the close**: the first is "closed", each one follows the one
before it, and a thread holds the close exactly if the last one is its "closed". -/
structure Mirrors (l : List (ThreadId × Record)) (holder? : Option ThreadId) : Prop where
  first : ∀ p ∈ l.head?, p.2.message = "closed"
  chain : l.IsChain Follows
  held_iff : ∀ t, holder? = some t ↔ ∃ r, l.getLast? = some (t, r) ∧ r.message = "closed"

namespace Mirrors

variable {l : List (ThreadId × Record)} {t : ThreadId} {r : Record}

theorem nil : Mirrors [] none := ⟨by simp, .nil, by simp⟩

/-- The last transition before the close is taken is "opened". -/
theorem getLast?_of_none (h : Mirrors l none) (hl : ∀ p ∈ l, isTransition p.2 = true) :
    ∀ p ∈ l.getLast?, p.2.message = "opened" := by
  intro p hp
  have hkind := hl p (List.mem_of_getLast? hp)
  simp only [isTransition, Bool.or_eq_true, decide_eq_true_eq] at hkind
  refine hkind.resolve_left fun hc => ?_
  simpa using (h.held_iff p.1).2 ⟨p.2, hp, hc⟩

/-- Taking the close adds a "closed". -/
theorem close (h : Mirrors l none) (hl : ∀ p ∈ l, isTransition p.2 = true)
    (hr : r.message = "closed") : Mirrors (l ++ [(t, r)]) (some t) where
  first := by
    cases l with
    | nil => simpa using hr
    | cons p l => simpa using h.first
  chain := by
    refine List.isChain_append.2 ⟨h.chain, .singleton _, ?_⟩
    intro p hp q hq
    cases hq
    exact .inr ⟨h.getLast?_of_none hl p hp, hr⟩
  held_iff u := by simp [hr]

/-- Giving the close back adds an "opened" of the thread that wrote the last "closed". -/
theorem reopen (h : Mirrors l (some t)) (hr : r.message = "opened") :
    Mirrors (l ++ [(t, r)]) none := by
  obtain ⟨r', hlast, hr'⟩ := (h.held_iff t).1 rfl
  refine ⟨?_, ?_, fun u => by simp [hr]⟩
  · cases l with
    | nil => simp at hlast
    | cons p l => simpa using h.first
  · refine List.isChain_append.2 ⟨h.chain, .singleton _, ?_⟩
    intro p hp q hq
    rw [hlast] at hp
    cases hp
    cases hq
    exact .inl ⟨hr', hr, rfl⟩

end Mirrors

theorem isTransition_of_mem {history : List Occurrence} {p : ThreadId × Record}
    (hp : p ∈ transitions history) : isTransition p.2 = true :=
  (List.mem_filter.1 hp).2

/-- A call that is over adds its record to the mirror. -/
theorem Mirrors.told {l : List (ThreadId × Record)} {g : Gate} {before after : Option ThreadId}
    {o : Occurrence} (h : Mirrors l before) (hl : ∀ p ∈ l, isTransition p.2 = true)
    (ho : o.unwound = false) (told : Told o.thread g before o.note after) :
    Mirrors (l ++ transitions [o]) after := by
  rw [transitions_singleton ho]
  generalize hn : o.note = note at told
  cases told with
  | closed _ => exact h.close hl rfl
  | opened => exact h.reopen rfl
  | nested _ _ => simpa [isTransition, Note.record, Option.filter] using h
  | rolledBack _ _ => simpa [isTransition, Note.record, Option.filter] using h
  | other hnote =>
      cases note with
      | none => simpa using h
      | some n =>
          have hn := hnote n rfl
          cases n <;> simp_all [Note.aboutClose, isTransition, Note.record, Option.filter]

namespace Crowd

variable {c c' : Crowd} {as : List Action} {history : List Occurrence}

/-- **After every run with a sink that never fails the transitions mirror the close.** -/
theorem run_mirrors (h : run {} as = some (c, history)) (hq : ∀ o ∈ history, o.unwound = false) :
    Mirrors (transitions history) c.holder? := by
  refine run_steps (P := fun c history => (∀ o ∈ history, o.unwound = false) →
    Mirrors (transitions history) c.holder?) (fun _ => .nil) ?_ h hq
  intro c history a c' o ho ih hs hq
  have hm := ih fun p hp => hq p (List.mem_append_left _ hp)
  rcases hs.told ho with ⟨rfl, hstay⟩ | ⟨p, rfl, told⟩
  · rw [hstay]
    simpa using hm
  · rw [transitions_append]
    exact hm.told (fun _ => isTransition_of_mem) (hq p (by simp)) told

/-- **What a record about the close says is true**, of the gate that the segment leaves and of who
holds the close before and after it. -/
structure Truthful (c c' : Crowd) (t : ThreadId) (r : Record) : Prop where
  closed : r.message = "closed" → c.holder? = none ∧ c'.holder? = some t ∧
    r.fields = [("own", toString c'.gate.entered)]
  opened : r.message = "opened" → c.holder? = some t ∧ c'.holder? = none
  nested : r.message = "close() nested" → c.holder? = some t ∧ c'.holder? = some t ∧
    2 ≤ c'.gate.closed ∧ r.fields = [("depth", toString c'.gate.closed)]
  rolledBack : r.message = "close() timed out draining, rolled back" →
    c.holder? = none ∧ c'.holder? = none ∧ c'.gate.depth t < c'.gate.entered ∧
      r.fields = [("pending", toString c'.gate.entered)]

/-- A note that tells what happened has a truthful record. -/
theorem Truthful.of_told {t : ThreadId} {note : Note}
    (told : Told t c'.gate c.holder? (some note) c'.holder?) : Truthful c c' t note.record := by
  generalize hb : c.holder? = before at told
  generalize ha : c'.holder? = after at told
  cases told with
  | closed hown => constructor <;> simp [Note.record, *]
  | opened => constructor <;> simp [Note.record, *]
  | nested hdepth h2 => constructor <;> simp_all [Note.record]
  | rolledBack hpending hlt => constructor <;> simp_all [Note.record]
  | other hnote =>
      have hn := hnote note rfl
      constructor <;> cases note <;> simp_all [Note.aboutClose, Note.record]

/-- **Every record about the close is truthful.** -/
theorem truthful_act (h : c.Orderly) {a : Action} {o : Occurrence}
    (ha : c.act a = some (c', some o)) {r : Record} (hr : o.record? = some r) :
    Truthful c c' o.thread r := by
  obtain ⟨⟨⟩, -⟩ | ⟨p, hp, told⟩ := (act_step h ha).told h
  cases hp
  unfold Occurrence.record? at hr
  split at hr
  · cases hr
  · obtain ⟨note, hn, rfl⟩ := Option.map_eq_some_iff.1 hr
    rw [hn] at told
    exact .of_told told

/-- **The log tells the truth about the close.**  After any run with a sink that never fails, the
records "closed" and "opened" alternate from a "closed" on, every "opened" comes from the thread of
the "closed" before it, and a thread holds the close exactly if the last of them is its "closed".
Every record about the close that can come next, and so every one that has come, was written by a
thread that does to the close what it says, with the values of the gate that its segment leaves. -/
theorem log_tells_truth (h : run {} as = some (c, history))
    (hq : ∀ o ∈ history, o.unwound = false) :
    Mirrors (transitions history) c.holder? ∧
      ∀ a c' o r, c.act a = some (c', some o) → o.record? = some r → Truthful c c' o.thread r := by
  refine ⟨run_mirrors h hq, ?_⟩
  intro a c' o r ha hr
  exact truthful_act (run_orderly h) ha hr

/-- A close that gives up, one that drains and is nested, and then one of another thread with an
entry of its own, which is about to be nested too. -/
theorem log_tells_truth_of_two_closes :
    let a : ThreadId := ⟨"a"⟩
    let b : ThreadId := ⟨"b"⟩
    let c : Crowd := ⟨⟨1, 1, some a, [(a, 1)]⟩, [], [], 0⟩
    let nested : Record := ⟨.debug, "close() nested", [("depth", "2")]⟩
    let history : List Occurrence :=
      [⟨a, .entry, .granted, none, false⟩, ⟨b, .close, .timedOut, some (.rolledBack 1), false⟩,
        ⟨a, .entry, .released, none, false⟩, ⟨b, .close, .granted, some (.closed 0), false⟩,
        ⟨b, .close, .granted, some (.nested 2), false⟩, ⟨b, .close, .released, none, false⟩,
        ⟨b, .close, .released, some .opened, false⟩, ⟨a, .entry, .granted, none, false⟩,
        ⟨a, .close, .granted, some (.closed 1), false⟩]
    let as : List Action :=
      [.call a (.enter .infinite) false, .call b (.close (.millis 0)) false,
        .call b (.close .infinite) false, .call a .exit false, .resume b false,
        .call b (.close .infinite) false, .call b .reopen false, .call b .reopen false,
        .call a (.enter .infinite) false, .call a (.close .infinite) false]
    run {} as = some (c, history) ∧ (∀ o ∈ history, o.unwound = false) ∧
      transitions history = [(b, ⟨.debug, "closed", [("own", "0")]⟩), (b, ⟨.debug, "opened", []⟩),
        (a, ⟨.debug, "closed", [("own", "1")]⟩)] ∧
      Mirrors (transitions history) (some a) ∧
      Truthful c { c with gate := c.gate.nest } a nested := by
  intro a b c nested history as
  have hrun : run {} as = some (c, history) := by decide +kernel
  have hq : ∀ o ∈ history, o.unwound = false := by decide
  obtain ⟨hmirrors, htruthful⟩ := log_tells_truth hrun hq
  exact ⟨hrun, hq, by decide +kernel, hmirrors,
    htruthful (.call a (.close .infinite) false) _ ⟨a, .close, .granted, some (.nested 2), false⟩ _
      rfl (by decide +kernel)⟩

end Crowd

end ReentrantGate.Gate
