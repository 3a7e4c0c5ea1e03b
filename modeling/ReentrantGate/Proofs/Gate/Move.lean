/-
**What a segment can do.**

A segment at a sound gate does one of a handful of things, and for each of them the gate, the thread
and what the thread was waiting for are in a certain relation.  The relation `Gate.Move` lists them
all; everything that is proved about segments is proved from that list.

While a thread waits, some facts about the gate stay true whatever other threads do: a thread that
waits to enter is outside, one that waits for another closer is not the closer, and one that drains
is.  A waiting that *fits* the gate is one with these facts.

Main definitions:

* `Gate.Waiting.ready`, `Gate.Waiting.Fits` — the condition that a thread waits for, and what stays
  true until then;
* `Gate.Excuse` — why a call can end with nothing done;
* `Gate.Move` — what a segment can do.

Main results:

* `Gate.begin_move`, `Gate.resume_move` — **every segment is on the list**;
* `Gate.Move.sound` — a segment keeps the gate sound;
* `Gate.Move.depth_of_ne`, `Gate.Move.closer_iff_of_ne`, `Gate.Move.closed_of_ne` — **a segment
  changes nothing that another thread holds**;
* `Gate.Move.of_closer_ne` — what is left of the list while another thread is the closer;
* `Gate.Move.not_ready_of_ne` — a segment that makes the condition of another thread true wakes it;
* `Gate.Move.foreign_of_ne`, `Gate.Move.foreign_of_self` — nobody gets in while a close is held.
-/

import ReentrantGate.Gate.Crowd
import ReentrantGate.Proofs.Gate.Sound

set_option relaxedAutoImplicit false
set_option autoImplicit false

namespace ReentrantGate.Gate

/-! ### Waiting threads -/

namespace Waiting

/-- The condition that a parked thread waits for. -/
def ready (g : Gate) : Waiting → Bool
  | entry .. => g.closer.isNone
  | exclusivity _ => g.closer.isNone
  | drain _ => g.foreign = 0

/-- What is true of a thread and the gate for as long as the thread waits. -/
def Fits (g : Gate) (t : ThreadId) : Waiting → Prop
  | entry .. => g.depth t = 0 ∧ g.closer ≠ some t
  | exclusivity _ => g.closer ≠ some t
  | drain _ => g.closer = some t ∧ g.closed = 1

/-- Whether the thread has claimed the gate and waits for the foreign entries to leave. -/
def draining (w : Waiting) : Bool := w.room = .drained

end Waiting

namespace Segment

/-- Whether the thread drains after the segment. -/
def draining : Segment → Bool
  | park _ w => w.draining
  | done .. => false

/-- The room that a segment wakes. -/
def woken : Segment → Option Room
  | park .. => none
  | done _ room _ _ => room

/-- The verdict with which a segment ends its call. -/
def verdict? : Segment → Option Verdict
  | park .. => none
  | done _ _ _ verdict => some verdict

end Segment

/-! ### The list -/

/-- Why a call about a kind of hold can end with nothing done, with its note and its verdict. -/
inductive Excuse (t : ThreadId) (g : Gate) : Hold → Option Note → Verdict → Prop
  | overflow {hold : Hold} : Excuse t g hold none .overflowed
  | entry {timeout : Timeout} : g.closer ≠ none → g.closer ≠ some t → g.depth t = 0 →
      Excuse t g .entry (some (.entryTimedOut timeout)) .timedOut
  | exclusivity : g.closer ≠ none → g.closer ≠ some t →
      Excuse t g .close (some .exclusivityTimedOut) .timedOut
  | exit : g.depth t = 0 → Excuse t g .entry (some (.unbalancedExit t)) (.misused .exit)
  | reopen : g.closer ≠ some t → Excuse t g .close (some (.unbalancedOpen t)) (.misused .reopen)

/-- **What a segment of `t` at the gate `g` can do.**  The flag tells whether `t` was draining
before, the kind of hold is that of its call. -/
inductive Move (t : ThreadId) (g : Gate) : Bool → Hold → Segment → Prop
  | refuse {hold : Hold} {note : Option Note} {verdict : Verdict} : Excuse t g hold note verdict →
      Move t g false hold (.done g none note verdict)
  | enter : g.closer = none ∨ g.closer = some t ∨ 0 < g.depth t →
      Move t g false .entry (.done (g.raise t) none none .granted)
  | exit : 0 < g.depth t →
      g.closer = none ∨ g.closer = some t ∨ (g.lower t).foreign ≠ 0 →
      Move t g false .entry (.done (g.lower t) none none .released)
  | lastExit : 0 < g.depth t → g.closer ≠ none → g.closer ≠ some t → (g.lower t).foreign = 0 →
      Move t g false .entry (.done (g.lower t) (some .drained) none .released)
  | nest : g.closer = some t →
      Move t g false .close (.done g.nest none (some (.nested g.nest.closed)) .granted)
  | unnest : g.closer = some t → 1 < g.closed →
      Move t g false .close (.done g.unnest none none .released)
  | reopen : g.closer = some t → g.closed = 1 →
      Move t g false .close (.done g.unclaim (some .opened) (some .opened) .released)
  | claim : g.closer = none → (g.claim t).foreign = 0 →
      Move t g false .close (.done (g.claim t) none (some (.closed (g.depth t))) .granted)
  | probe : g.closer = none → (g.claim t).foreign ≠ 0 →
      Move t g false .close (.done g (some .opened) (some (.rolledBack g.entered)) .timedOut)
  | drained : g.closer = some t → g.closed = 1 → g.foreign = 0 →
      Move t g true .close (.done g none (some (.closed (g.depth t))) .granted)
  | rollBack : g.closer = some t → g.foreign ≠ 0 →
      Move t g true .close (.done g.unclaim (some .opened) (some (.rolledBack g.entered)) .timedOut)
  | park {w : Waiting} : w.draining = false → w.Fits g t → w.ready g = false →
      Move t g false w.hold (.park g w)
  | drain {deadline : Deadline} : g.closer = none → (g.claim t).foreign ≠ 0 →
      Move t g false .close (.park (g.claim t) (.drain deadline))
  | stay {deadline : Deadline} : g.closer = some t → g.closed = 1 → g.foreign ≠ 0 →
      Move t g true .close (.park g (.drain deadline))

/-! ### Every segment is on the list -/

variable {g : Gate} {t u : ThreadId} {d : Bool} {hold : Hold} {s : Segment}

theorem Sound.unclaim_claim (h : g.Sound) (hc : g.closer = none) (t : ThreadId) :
    (g.claim t).unclaim = g := by
  have hz := h.closed_eq_zero_iff.2 hc
  cases g
  simp only at hc hz
  subst hc hz
  rfl

theorem awaitEntry_move {timeout : Timeout} {deadline : Deadline} {now : Nat}
    (h0 : g.depth t = 0) (hc : g.closer ≠ some t) :
    Move t g false .entry (awaitEntry t timeout deadline now g) := by
  unfold awaitEntry
  split
  · rename_i hl
    rw [look_eq_ready, Option.isNone_iff_eq_none] at hl
    exact .enter (.inl hl)
  · rename_i hl
    have hn : g.closer ≠ none := by
      simpa [Option.isSome_iff_ne_none] using (look_eq_expired.1 hl).1
    exact .refuse (.entry hn hc h0)
  · rename_i hl
    exact Move.park (w := .entry timeout deadline) rfl ⟨h0, hc⟩ (look_eq_park.1 hl).1

theorem awaitDrain_move {deadline : Deadline} {now : Nat} (hc : g.closer = some t)
    (h1 : g.closed = 1) : Move t g true .close (awaitDrain t deadline now g) := by
  unfold awaitDrain
  split
  · rename_i hl
    rw [look_eq_ready, decide_eq_true_eq] at hl
    exact .drained hc h1 hl
  · rename_i hl
    exact .rollBack hc (by simpa using (look_eq_expired.1 hl).1)
  · rename_i hl
    exact .stay hc h1 (by simpa using (look_eq_park.1 hl).1)

/-- A close that finds no other closer claims the gate and drains in the same segment. -/
theorem awaitDrain_claim_move {deadline : Deadline} {now : Nat} (h : g.Sound)
    (hc : g.closer = none) : Move t g false .close (awaitDrain t deadline now (g.claim t)) := by
  unfold awaitDrain
  split
  · rename_i hl
    rw [look_eq_ready, decide_eq_true_eq] at hl
    exact .claim hc hl
  · rename_i hl
    -- giving up at once takes the claim back and leaves the gate as it was
    rw [h.unclaim_claim hc]
    have hf : g.foreign = g.entered := by simp [foreign, hc]
    rw [hf]
    exact .probe hc (by simpa using (look_eq_expired.1 hl).1)
  · rename_i hl
    exact .drain hc (by simpa using (look_eq_park.1 hl).1)

theorem awaitExclusivity_move {deadline : Deadline} {now : Nat} (h : g.Sound)
    (hc : g.closer ≠ some t) : Move t g false .close (awaitExclusivity t deadline now g) := by
  unfold awaitExclusivity
  split
  · rename_i hl
    rw [look_eq_ready, Option.isNone_iff_eq_none] at hl
    exact awaitDrain_claim_move h hl
  · rename_i hl
    have hn : g.closer ≠ none := by
      simpa [Option.isSome_iff_ne_none] using (look_eq_expired.1 hl).1
    exact .refuse (.exclusivity hn hc)
  · rename_i hl
    exact Move.park (w := .exclusivity deadline) rfl hc (look_eq_park.1 hl).1

theorem enter_move {timeout : Timeout} {now : Nat} (h : g.Sound) :
    Move t g false .entry (enter t timeout now g) := by
  unfold enter
  split
  · rename_i ha
    exact .enter (h.admits_iff.1 ha)
  · rename_i ha
    rw [h.admits_iff, not_or, not_or] at ha
    split
    · exact .refuse .overflow
    · exact awaitEntry_move (by omega) ha.2.1

theorem exit_move : Move t g false .entry (exit t g) := by
  unfold exit
  split
  · rename_i h0
    exact .refuse (.exit h0)
  · rename_i h0
    have hc : (g.lower t).closer = g.closer := rfl
    simp only [hc]
    split
    · rename_i hw
      simp only [Bool.and_eq_true, decide_eq_true_eq, Option.isSome_iff_ne_none] at hw
      exact .lastExit (by omega) hw.1.1 hw.1.2 hw.2
    · rename_i hw
      simp only [Bool.and_eq_true, decide_eq_true_eq, Option.isSome_iff_ne_none] at hw
      exact .exit (by omega) (by tauto)

theorem close_move {timeout : Timeout} {now : Nat} (h : g.Sound) :
    Move t g false .close (close t timeout now g) := by
  unfold close
  split
  · rename_i hc
    exact .nest (h.isCloser_iff.1 hc)
  · rename_i hc
    rw [h.isCloser_iff] at hc
    split
    · exact .refuse .overflow
    · exact awaitExclusivity_move h hc

theorem reopen_move (h : g.Sound) : Move t g false .close (reopen t g) := by
  unfold reopen
  split
  · rename_i hc
    rw [h.isCloser_iff] at hc
    have hpos := h.closed_pos hc
    split
    · rename_i h1
      exact .reopen hc h1
    · exact .unnest hc (by omega)
  · rename_i hc
    rw [h.isCloser_iff] at hc
    exact .refuse (.reopen hc)

/-- **The first segment of a call is on the list.** -/
theorem begin_move (h : g.Sound) (now : Nat) (r : Request) :
    Move t g false r.hold (begin t now r g) := by
  cases r with
  | enter timeout => exact enter_move h
  | exit => exact exit_move
  | close timeout => exact close_move h
  | reopen => exact reopen_move h

/-- **So is every later segment**, if what the thread waits for fits the gate. -/
theorem resume_move (h : g.Sound) {w : Waiting} (hw : w.Fits g t) (now : Nat) :
    Move t g w.draining w.hold (resume t now w g) := by
  cases w with
  | entry timeout deadline => exact awaitEntry_move hw.1 hw.2
  | exclusivity deadline => exact awaitExclusivity_move h hw
  | drain deadline => exact awaitDrain_move hw.1 hw.2

/-! ### What a segment leaves alone -/

namespace Move

/-- **A segment keeps the gate sound.** -/
theorem sound (m : Move t g d hold s) (h : g.Sound) : s.gate.Sound := by
  cases m with
  | refuse _ => exact h
  | enter _ => exact h.raise t
  | exit h0 _ => exact h.lower h0
  | lastExit h0 _ _ _ => exact h.lower h0
  | nest hc => exact h.nest hc
  | unnest hc h1 => exact h.unnest hc h1
  | reopen _ _ => exact h.unclaim
  | claim _ _ => exact h.claim t
  | probe _ _ => exact h
  | drained _ _ _ => exact h
  | rollBack _ _ => exact h.unclaim
  | park _ _ _ => exact h
  | drain _ _ => exact h.claim t
  | stay _ _ _ => exact h

/-- **A segment changes nobody else's entries.** -/
theorem depth_of_ne (m : Move t g d hold s) (h : g.Sound) (hu : u ≠ t) :
    s.gate.depth u = g.depth u := by
  cases m with
  | enter _ => simp [Segment.gate, depth_raise, hu.symm]
  | exit _ _ => simp [Segment.gate, h.depth_lower, hu.symm]
  | lastExit _ _ _ _ => simp [Segment.gate, h.depth_lower, hu.symm]
  | _ => rfl

/-- **A segment makes nobody else the closer**, and it takes the close from nobody else. -/
theorem closer_iff_of_ne (m : Move t g d hold s) (hu : u ≠ t) :
    s.gate.closer = some u ↔ g.closer = some u := by
  cases m with
  | reopen hc _ => simp [Segment.gate, unclaim, hc, hu.symm]
  | claim hc _ => simp [Segment.gate, Gate.claim, hc, hu.symm]
  | rollBack hc _ => simp [Segment.gate, unclaim, hc, hu.symm]
  | drain hc _ => simp [Segment.gate, Gate.claim, hc, hu.symm]
  | _ => rfl

/-- **What a segment can do while another thread is the closer**: nothing that is granted, or, for a
thread that is inside already, one entry more or one less.  If the last foreign entry is left, the
closer is woken. -/
theorem of_closer_ne (m : Move t g d hold s) (hc : g.closer = some u) (hu : u ≠ t) :
    s.gate = g ∧ s.verdict? ≠ some .granted ∨
      0 < g.depth t ∧ (s.gate = g.raise t ∨
        s.gate = g.lower t ∧ (s.woken = some .drained ∨ (g.lower t).foreign ≠ 0)) := by
  have hsome : g.closer ≠ none := by simp [hc]
  have hne : g.closer ≠ some t := by
    rw [hc]
    simpa using hu
  cases m with
  | refuse e =>
      refine .inl ⟨rfl, ?_⟩
      cases e <;> simp [Segment.verdict?]
  | enter ha =>
      rcases ha with ha | ha | ha
      · exact absurd ha hsome
      · exact absurd ha hne
      · exact .inr ⟨ha, .inl rfl⟩
  | exit h0 hx =>
      rcases hx with hx | hx | hx
      · exact absurd hx hsome
      · exact absurd hx hne
      · exact .inr ⟨h0, .inr ⟨rfl, .inr hx⟩⟩
  | lastExit h0 _ _ _ => exact .inr ⟨h0, .inr ⟨rfl, .inl rfl⟩⟩
  -- the rest is up to the closer itself or needs a gate without one
  | nest ht => exact absurd ht hne
  | unnest ht _ => exact absurd ht hne
  | reopen ht _ => exact absurd ht hne
  | claim ht _ => exact absurd ht hsome
  | probe ht _ => exact absurd ht hsome
  | drained ht _ _ => exact absurd ht hne
  | rollBack ht _ => exact absurd ht hne
  | park _ _ _ => exact .inl ⟨rfl, by simp [Segment.verdict?]⟩
  | drain ht _ => exact absurd ht hsome
  | stay ht _ _ => exact absurd ht hne

/-- **A segment leaves the depth of another thread's close alone.** -/
theorem closed_of_ne (m : Move t g d hold s) (hu : u ≠ t) (hc : g.closer = some u) :
    s.gate.closed = g.closed := by
  rcases m.of_closer_ne hc hu with ⟨hg, -⟩ | ⟨-, hg | ⟨hg, -⟩⟩
  · rw [hg]
  · rw [hg]
    rfl
  · rw [hg]
    rfl

/-- What another thread waits for goes on fitting the gate. -/
theorem fits_of_ne (m : Move t g d hold s) (h : g.Sound) (hu : u ≠ t) {w : Waiting}
    (hw : w.Fits g u) : w.Fits s.gate u := by
  cases w with
  | entry timeout deadline =>
      refine ⟨?_, ?_⟩
      · rw [m.depth_of_ne h hu]
        exact hw.1
      · rw [ne_eq, m.closer_iff_of_ne hu]
        exact hw.2
  | exclusivity deadline =>
      simp only [Waiting.Fits, ne_eq, m.closer_iff_of_ne hu]
      exact hw
  | drain deadline =>
      refine ⟨(m.closer_iff_of_ne hu).2 hw.1, ?_⟩
      rw [m.closed_of_ne hu hw.1]
      exact hw.2

/-- A thread that parks waits for something that fits the gate and is not the case. -/
theorem of_park {g' : Gate} {w : Waiting} (m : Move t g d hold (.park g' w)) :
    w.Fits g' t ∧ w.ready g' = false := by
  cases m with
  | park _ hf hr => exact ⟨hf, hr⟩
  | drain _ hf => exact ⟨⟨rfl, rfl⟩, by simpa [Waiting.ready] using hf⟩
  | stay hc h1 hf => exact ⟨⟨hc, h1⟩, by simpa [Waiting.ready] using hf⟩

/-! ### Whom a segment must wake -/

/-- The closer does not go without waking those who wait for that. -/
theorem closer_ne_none (m : Move t g d hold s) (hc : g.closer ≠ none)
    (hw : s.woken ≠ some .opened) : s.gate.closer ≠ none := by
  cases m with
  | reopen _ _ => exact absurd rfl hw
  | rollBack _ _ => exact absurd rfl hw
  | claim _ _ => simp [Segment.gate, Gate.claim]
  | drain _ _ => simp [Segment.gate, Gate.claim]
  | _ => exact hc

/-- The last foreign entry does not go without waking the closer. -/
theorem foreign_ne_zero (m : Move t g d hold s) (h : g.Sound) (hu : u ≠ t)
    (hc : g.closer = some u) (hf : g.foreign ≠ 0) (hw : s.woken ≠ some .drained) :
    s.gate.foreign ≠ 0 := by
  rcases m.of_closer_ne hc hu with ⟨hg, -⟩ | ⟨-, hg | ⟨hg, hx⟩⟩
  · rw [hg]
    exact hf
  · -- the new entry is a foreign one
    intro h0
    rw [hg] at h0
    have ht := ((h.raise t).foreign_eq_zero_iff hc).1 h0 t hu.symm
    simp [depth_raise] at ht
  · rw [hg]
    exact hx.resolve_left hw

/-- **A segment that makes the condition of another thread true wakes that thread's room.** -/
theorem not_ready_of_ne (m : Move t g d hold s) (h : g.Sound) (hu : u ≠ t) {w : Waiting}
    (hw : w.Fits g u) (hr : w.ready g = false) (hs : s.woken ≠ some w.room) :
    w.ready s.gate = false := by
  cases w with
  | drain deadline =>
      have hf : g.foreign ≠ 0 := by simpa [Waiting.ready] using hr
      simpa [Waiting.ready] using m.foreign_ne_zero h hu hw.1 hf hs
  | entry timeout deadline =>
      have hc : g.closer ≠ none := by simpa [Waiting.ready, Option.isSome_iff_ne_none] using hr
      simpa [Waiting.ready, Option.isSome_iff_ne_none] using m.closer_ne_none hc hs
  | exclusivity deadline =>
      have hc : g.closer ≠ none := by simpa [Waiting.ready, Option.isSome_iff_ne_none] using hr
      simpa [Waiting.ready, Option.isSome_iff_ne_none] using m.closer_ne_none hc hs

/-! ### A close that is held -/

/-- **A thread that is outside changes nothing while another thread is the closer**, and it is
granted nothing. -/
theorem of_outside (m : Move t g d hold s) (hc : g.closer = some u) (hu : u ≠ t)
    (hout : g.depth t = 0) : s.gate = g ∧ s.verdict? ≠ some .granted := by
  rcases m.of_closer_ne hc hu with hg | ⟨h0, -⟩
  · exact hg
  · omega

/-- **Nobody gets in while another thread holds the close.** -/
theorem foreign_of_ne (m : Move t g d hold s) (h : g.Sound) (hu : u ≠ t)
    (hc : g.closer = some u) (hf : g.foreign = 0) : s.gate.foreign = 0 := by
  -- `t` is a foreign thread, so it is outside
  have hout : g.depth t = 0 := (h.foreign_eq_zero_iff hc).1 hf t hu.symm
  rw [(m.of_outside hc hu hout).1]
  exact hf

/-- **A thread is the closer after its segment only if it drains or there are no foreign entries.**
Its own entries do not count. -/
theorem foreign_of_self (m : Move t g d hold s) (h : g.Sound)
    (hset : g.closer = some t → d = false → g.foreign = 0) (hc : s.gate.closer = some t)
    (hd : s.draining = false) : s.gate.foreign = 0 := by
  -- most segments leave the closer and the entries of others as they were
  have keep : g.closer = some t → d = false → s.gate.foreign = 0 := by
    intro ht h0
    refine ((m.sound h).foreign_eq_zero_iff hc).2 fun v hv => ?_
    rw [m.depth_of_ne h hv]
    exact (h.foreign_eq_zero_iff ht).1 (hset ht h0) v hv
  cases m with
  | reopen _ _ => exact absurd hc (by simp [Segment.gate, unclaim])
  | rollBack _ _ => exact absurd hc (by simp [Segment.gate, unclaim])
  | claim _ hf => exact hf
  | drained _ _ hf => exact hf
  | drain _ _ => exact absurd hd (by simp [Segment.draining, Waiting.draining, Waiting.room])
  | stay _ _ _ => exact absurd hd (by simp [Segment.draining, Waiting.draining, Waiting.room])
  | _ => exact keep hc rfl

end Move

end ReentrantGate.Gate
