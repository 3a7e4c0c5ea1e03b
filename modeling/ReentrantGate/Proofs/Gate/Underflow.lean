/-
**No counter is taken below zero.**

The difference of two natural numbers is zero if the second one is larger, which would hide a
counter that is taken below zero.  So here the segments are run once more with a subtraction that
fails instead.  They make every subtraction at the moment at which a thread makes it, also in the
middle of a change: a thread that leaves lowers the entries first, then its depth, and only then, if
it may have to wake the closer, takes the foreign entries of what it has left.  At a sound gate no
subtraction fails, and the segments come out the same.

Main definitions:

* `Depths.lower?`, `Gate.foreign?` — what is taken from the counters, if it can be taken;
* `Gate.exit?`, `Gate.awaitDrain?`, `Gate.reopen?` — the segments that take anything;
* `Gate.begin?`, `Gate.resume?` — all segments.

Main results:

* `Gate.Sound.begin?_eq`, `Gate.Sound.resume?_eq` — **at a sound gate no subtraction fails**;
* `Gate.Crowd.counters_agree` — the counters of every gate that can come about agree, and no segment
  takes one of them below zero.
-/

import Mathlib.Data.Nat.PSub
import ReentrantGate.Gate.Snapshot
import ReentrantGate.Proofs.Gate.Orderly

set_option relaxedAutoImplicit false
set_option autoImplicit false

namespace ReentrantGate

/-! ### Depths -/

namespace Depths

/-- One entry less for `t`, if its depth allows that. -/
def lower? (t : ThreadId) : Depths → Option Depths
  | [] => some []
  | (u, n) :: ds =>
      if u = t then if n = 1 then some ds else (n.psub 1).map fun m => (u, m) :: ds
      else (lower? t ds).map fun rest => (u, n) :: rest

theorem lower?_eq {ds : Depths} (h : WellFormed ds) (t : ThreadId) :
    lower? t ds = some (lower t ds) := by
  induction ds with
  | nil => rfl
  | cons d ds ih =>
      obtain ⟨u, n⟩ := d
      have hpos : 1 ≤ n := h.1
      by_cases hut : u = t
      · by_cases h1 : n = 1
        · simp only [lower?, lower, hut, h1, if_true, le_refl]
        · have hlt : ¬n ≤ 1 := by omega
          simp only [lower?, lower, hut, h1, hlt, if_true, if_false, Nat.psub_eq_sub hpos,
            Option.map_some]
      · simp only [lower?, lower, hut, if_false, ih h.2.2, Option.map_some]

end Depths

namespace Gate

/-! ### Segments with a subtraction that can fail -/

/-- The entries of threads other than the closer, if the closer does not have more than there
are. -/
def foreign? (g : Gate) : Option Nat :=
  match g.closer with
  | some t => g.entered.psub (g.depth t)
  | none => some g.entered

/-- Leaving.  The foreign entries are taken only if another thread is the closer. -/
def exit? (t : ThreadId) (g : Gate) : Option Segment :=
  if g.depth t = 0 then some (.done g none (some (.unbalancedExit t)) (.misused .exit))
  else do
    let entered ← g.entered.psub 1
    let depths ← g.depths.lower? t
    let left := { g with entered, depths }
    if left.closer.isSome && left.closer ≠ some t then
      let foreign ← left.foreign?
      some (.done left (if foreign = 0 then some .drained else none) none .released)
    else some (.done left none none .released)

/-- The second wait of a close; its condition takes the foreign entries, and so does the note of one
that gives up. -/
def awaitDrain? (t : ThreadId) (deadline : Deadline) (now : Nat) (g : Gate) : Option Segment := do
  let foreign ← g.foreign?
  match look (foreign = 0) deadline now with
  | .ready => some (.done g none (some (.closed (g.depth t))) .granted)
  | .expired => do
      let pending ← g.unclaim.foreign?
      some (.done g.unclaim (some .opened) (some (.rolledBack pending)) .timedOut)
  | .park _ => some (.park g (.drain deadline))

/-- The first wait of a close. -/
def awaitExclusivity? (t : ThreadId) (deadline : Deadline) (now : Nat) (g : Gate) :
    Option Segment :=
  match look g.closer.isNone deadline now with
  | .ready => awaitDrain? t deadline now (g.claim t)
  | .expired => some (.done g none (some .exclusivityTimedOut) .timedOut)
  | .park _ => some (.park g (.exclusivity deadline))

/-- Closing. -/
def close? (t : ThreadId) (timeout : Timeout) (now : Nat) (g : Gate) : Option Segment :=
  if g.isCloser t then some (.done g.nest none (some (.nested g.nest.closed)) .granted)
  else
    match timeout.deadline? now with
    | none => some (.done g none none .overflowed)
    | some deadline => awaitExclusivity? t deadline now g

/-- Opening.  The depth of the close is taken first and compared with zero afterwards. -/
def reopen? (t : ThreadId) (g : Gate) : Option Segment :=
  if g.isCloser t then do
    let closed ← g.closed.psub 1
    if closed = 0 then
      some (.done { g with closed, closer := none } (some .opened) (some .opened) .released)
    else some (.done { g with closed } none none .released)
  else some (.done g none (some (.unbalancedOpen t)) (.misused .reopen))

/-- The first segment of a call; entering takes nothing from any counter. -/
def begin? (t : ThreadId) (now : Nat) : Request → Gate → Option Segment
  | .enter timeout, g => some (enter t timeout now g)
  | .exit, g => exit? t g
  | .close timeout, g => close? t timeout now g
  | .reopen, g => reopen? t g

/-- The next segment of a call that was parked. -/
def resume? (t : ThreadId) (now : Nat) : Waiting → Gate → Option Segment
  | .entry timeout deadline, g => some (awaitEntry t timeout deadline now g)
  | .exclusivity deadline, g => awaitExclusivity? t deadline now g
  | .drain deadline, g => awaitDrain? t deadline now g

/-! ### No subtraction fails at a sound gate -/

namespace Sound

variable {g : Gate} {t : ThreadId} {now : Nat}

theorem foreign?_eq (h : g.Sound) : g.foreign? = some g.foreign := by
  unfold foreign? foreign
  cases g.closer with
  | none => rfl
  | some t => exact Nat.psub_eq_sub (h.depth_le_entered t)

/-- A thread inside is counted, so there is an entry to take; what is left is sound again, so the
foreign entries can be taken from it. -/
theorem exit?_eq (h : g.Sound) : exit? t g = some (exit t g) := by
  unfold exit? exit
  by_cases h0 : g.depth t = 0
  · rw [if_pos h0, if_pos h0]
  · have hpos : 0 < g.depth t := Nat.pos_of_ne_zero h0
    have hentered : 1 ≤ g.entered := hpos.trans_le (h.depth_le_entered t)
    have hforeign : (g.lower t).foreign? = some (g.lower t).foreign := (h.lower hpos).foreign?_eq
    rw [if_neg h0, if_neg h0, Nat.psub_eq_sub hentered, Depths.lower?_eq h.wellFormed]
    -- after both subtractions the gate is the one that the plain segment leaves
    change (if ((g.lower t).closer.isSome && (g.lower t).closer ≠ some t) = true then
        (g.lower t).foreign?.bind fun foreign =>
          some (Segment.done (g.lower t) (if foreign = 0 then some .drained else none) none
            .released)
      else some (Segment.done (g.lower t) none none .released)) = _
    rw [hforeign]
    by_cases hc : ((g.lower t).closer.isSome && (g.lower t).closer ≠ some t) = true
    · simp only [hc, if_true, Option.bind_some, Bool.true_and, decide_eq_true_eq]
    · rw [if_neg hc]
      simp only [hc, Bool.false_and, Bool.false_eq_true, if_false]

theorem awaitDrain?_eq (h : g.Sound) {deadline : Deadline} :
    awaitDrain? t deadline now g = some (awaitDrain t deadline now g) := by
  unfold awaitDrain? awaitDrain
  simp only [h.foreign?_eq, h.unclaim.foreign?_eq, Option.bind_eq_bind, Option.bind_some]
  cases look (decide (g.foreign = 0)) deadline now with
  | ready => rfl
  | expired => rfl
  | park left => rfl

theorem awaitExclusivity?_eq (h : g.Sound) {deadline : Deadline} :
    awaitExclusivity? t deadline now g = some (awaitExclusivity t deadline now g) := by
  unfold awaitExclusivity? awaitExclusivity
  cases look g.closer.isNone deadline now with
  | ready => exact (h.claim t).awaitDrain?_eq
  | expired => rfl
  | park left => rfl

theorem close?_eq (h : g.Sound) {timeout : Timeout} :
    close? t timeout now g = some (close t timeout now g) := by
  unfold close? close
  by_cases hc : g.isCloser t = true
  · rw [if_pos hc, if_pos hc]
  · rw [if_neg hc, if_neg hc]
    cases timeout.deadline? now with
    | none => rfl
    | some deadline => exact h.awaitExclusivity?_eq

theorem reopen?_eq (h : g.Sound) : reopen? t g = some (reopen t g) := by
  unfold reopen? reopen
  by_cases hc : g.isCloser t = true
  · -- the closer has a close to take, and taking it leaves zero exactly if it was the last
    have hpos : 1 ≤ g.closed := h.closed_pos (h.isCloser_iff.1 hc)
    rw [if_pos hc, if_pos hc, Nat.psub_eq_sub hpos]
    by_cases h1 : g.closed = 1
    · simp [h1, Gate.unclaim]
    · have hlt : g.closed - 1 ≠ 0 := by omega
      simp [h1, hlt, Gate.unnest]
  · rw [if_neg hc, if_neg hc]

/-- **No subtraction fails in the first segment of a call.** -/
theorem begin?_eq (h : g.Sound) (t : ThreadId) (now : Nat) (r : Request) :
    begin? t now r g = some (begin t now r g) := by
  cases r with
  | enter timeout => rfl
  | exit => exact h.exit?_eq
  | close timeout => exact h.close?_eq
  | reopen => exact h.reopen?_eq

/-- **Nor does one fail in any later segment.** -/
theorem resume?_eq (h : g.Sound) (t : ThreadId) (now : Nat) (w : Waiting) :
    resume? t now w g = some (resume t now w g) := by
  cases w with
  | entry timeout deadline => rfl
  | exclusivity deadline => exact h.awaitExclusivity?_eq
  | drain deadline => exact h.awaitDrain?_eq

/-! ### What a snapshot shows of a sound gate -/

theorem closing_iff (h : g.Sound) : g.snapshot.closing = true ↔ 0 < g.snapshot.closed := by
  have hz := h.closed_eq_zero_iff
  simp only [snapshot, Option.isSome_iff_ne_none, Nat.pos_iff_ne_zero, ne_eq, hz]

theorem holders_eq_zero_iff (h : g.Sound) :
    g.snapshot.holders = 0 ↔ g.snapshot.entered = 0 := by
  have hle := Depths.length_le_total h.wellFormed
  simp only [snapshot, h.entered_eq]
  constructor
  · intro h0
    rw [List.eq_nil_of_length_eq_zero h0]
    rfl
  · intro h0
    omega

end Sound

namespace Crowd

variable {c : Crowd}

/-- **The counters of every gate that can come about agree, and none is ever taken below zero.**
The entries are the sum of the listed depths, each of them at least one, and the depth of the close
is positive exactly if there is a closer; a snapshot shows the same.  So no segment fails, whatever
thread makes it, at whatever time and with whatever request or wait. -/
theorem counters_agree (h : c.Reachable) :
    c.gate.entered = (c.gate.depths.map (·.2)).sum ∧
      (∀ d ∈ c.gate.depths, 1 ≤ d.2) ∧
      (0 < c.gate.closed ↔ c.gate.closer.isSome = true) ∧
      (c.gate.snapshot.closing = true ↔ 0 < c.gate.snapshot.closed) ∧
      c.gate.snapshot.holders ≤ c.gate.snapshot.entered ∧
      (c.gate.snapshot.holders = 0 ↔ c.gate.snapshot.entered = 0) ∧
      c.gate.foreign? = some c.gate.foreign ∧
      (∀ t now r, begin? t now r c.gate = some (begin t now r c.gate)) ∧
      ∀ t now w, resume? t now w c.gate = some (resume t now w c.gate) := by
  have hs : c.gate.Sound := h.orderly.sound
  refine ⟨?_, fun d hd => Depths.pos_of_mem hs.wellFormed hd, hs.closing_iff.symm, hs.closing_iff,
    ?_, hs.holders_eq_zero_iff, hs.foreign?_eq, hs.begin?_eq, hs.resume?_eq⟩
  · rw [hs.entered_eq, Depths.total_eq_sum_map]
  · have hle := Depths.length_le_total hs.wellFormed
    rw [← hs.entered_eq] at hle
    exact hle

/-- The last foreign entry leaves a gate with a closer that drains and has an entry of its own,
after a close that gave up and a refused release, the records of which could not be written. -/
theorem counters_agree_of_last_exit :
    let c : Crowd :=
      ⟨⟨2, 1, some ⟨"b"⟩, [(⟨"a"⟩, 1), (⟨"b"⟩, 1)]⟩, [⟨⟨"b"⟩, .drain none⟩], [], 0⟩
    c.Reachable ∧ c.gate.foreign = 1 ∧
      exit? ⟨"a"⟩ c.gate =
        some (.done ⟨1, 1, some ⟨"b"⟩, [(⟨"b"⟩, 1)]⟩ (some .drained) none .released) := by
  intro c
  have hreach : c.Reachable :=
    ⟨[.call ⟨"a"⟩ (.enter .infinite) false, .call ⟨"b"⟩ (.enter .infinite) false,
      .call ⟨"b"⟩ (.close (.millis 0)) true, .call ⟨"b"⟩ .reopen true,
      .call ⟨"b"⟩ (.close .infinite) false], _, rfl⟩
  obtain ⟨-, -, -, -, -, -, -, hbegin, -⟩ := counters_agree hreach
  exact ⟨hreach, rfl, hbegin ⟨"a"⟩ 0 .exit⟩

end Crowd

end Gate

end ReentrantGate
