/-
**Every hold is an acquisition that has not been given back.**

As long as the sink of the log accepts every record, each call goes back to its caller with its
verdict, and the callers know from the verdicts alone who holds what.  A thread holds the entries
and closes that it was granted and has not released.  The gate tells it so, its releases succeed
exactly as often, and all the counters of a snapshot follow.

Main definitions:

* `Gate.returned`, `Gate.threads` — the calls that went back to their caller, and who made them;
* `Gate.entriesOf`, `Gate.closesOf` — what a thread holds by its own account;
* `Gate.Crowd.Tells` — what a gate tells a thread that is not in the middle of a call.

Main results:

* `Gate.Crowd.entered_eq_sum`, `Gate.Crowd.holders_eq_card`, `Gate.Crowd.closed_eq_zero` — the
  counters of the gate from the balances of the threads;
* `Gate.Crowd.eq_fresh_or_claim` — what is left once nobody holds anything;
* `Gate.Crowd.Step.holds_of_ne` — nobody else changes what a thread holds;
* `Gate.Crowd.holds_eq_history` — **holds equal history**.
-/

import ReentrantGate.Gate.Snapshot
import ReentrantGate.Proofs.Gate.Exclusion

set_option relaxedAutoImplicit false
set_option autoImplicit false

namespace ReentrantGate.Gate

/-! ### What the callers know -/

/-- The calls that went back to their caller with a verdict. -/
def returned (history : List Occurrence) : List Occurrence := history.filter (!·.unwound)

/-- The threads with a call that is over. -/
def threads (history : List Occurrence) : Finset ThreadId := (history.map (·.thread)).toFinset

/-- The entries that `t` was told to have, less those that it was told to have left. -/
def entriesOf (history : List Occurrence) (t : ThreadId) : Int :=
  balance .entry t (returned history)

/-- The closes that `t` was told to have, less those that it was told to have opened. -/
def closesOf (history : List Occurrence) (t : ThreadId) : Int :=
  balance .close t (returned history)

theorem returned_eq {history : List Occurrence} (h : ∀ o ∈ history, o.unwound = false) :
    returned history = history := by
  refine List.filter_eq_self.2 fun o ho => ?_
  rw [h o ho]
  rfl

/-- A thread without a call that is over has a balance of zero. -/
theorem balance_eq_zero {history : List Occurrence} {t : ThreadId} (h : t ∉ threads history)
    (hold : Hold) : balance hold t history = 0 := by
  have hnone : ∀ verdict, tally hold verdict t history = 0 := by
    intro verdict
    refine List.countP_eq_zero.2 fun o ho => ?_
    have hne : o.thread ≠ t := by
      rintro rfl
      exact h (List.mem_toFinset.2 (List.mem_map_of_mem ho))
    simp [hne]
  simp only [balance, hnone, Nat.cast_zero, sub_zero]

/-! ### How a release ends -/

theorem exit_eq (g : Gate) (t : ThreadId) : ∃ g' room note,
    exit t g = .done g' room note (if 0 < g.depth t then .released else .misused .exit) := by
  unfold exit
  split
  · rename_i h0
    rw [h0]
    exact ⟨_, _, _, rfl⟩
  · rename_i h0
    rw [if_pos (Nat.pos_of_ne_zero h0)]
    exact ⟨_, _, _, rfl⟩

theorem reopen_eq (g : Gate) (t : ThreadId) : ∃ g' room note,
    reopen t g = .done g' room note (if g.isCloser t then .released else .misused .reopen) := by
  unfold reopen
  split
  · split
    · exact ⟨_, _, _, rfl⟩
    · exact ⟨_, _, _, rfl⟩
  · exact ⟨_, _, _, rfl⟩

namespace Crowd

variable {c c' : Crowd} {a : Action} {o : Option Occurrence} {t : ThreadId}

/-- A call of an idle thread that is done in its first segment goes back with its verdict. -/
theorem act_call_of_done {r : Request} {g : Gate} {room : Option Room} {note : Option Note}
    {verdict : Verdict} (hi : c.idle t = true)
    (h : begin t c.clock r c.gate = .done g room note verdict) :
    c.act (.call t r false) =
      some (c.absorb t (.done g room note verdict), some ⟨t, r.hold, verdict, note, false⟩) := by
  rw [act, if_pos hi, h]
  rfl

/-- What a gate tells `t` if `t` holds `n` entries and `m` closes: its depth, whether it is inside,
whether it has closed the gate, and how a release ends. -/
structure Tells (c : Crowd) (t : ThreadId) (n m : Int) : Prop where
  depth : (c.gate.depth t : Int) = n
  entered : 0 < c.gate.depth t ↔ 0 < n
  isCloser : c.gate.isCloser t = true ↔ 0 < m
  exit : ∃ c' note, c.act (.call t .exit false) =
    some (c', some ⟨t, .entry, if 0 < n then .released else .misused .exit, note, false⟩)
  reopen : ∃ c' note, c.act (.call t .reopen false) =
    some (c', some ⟨t, .close, if 0 < m then .released else .misused .reopen, note, false⟩)

/-- The answers to the questions of an idle thread determine how its releases end. -/
theorem Tells.of_idle {n m : Int} (hi : c.idle t = true) (hd : (c.gate.depth t : Int) = n)
    (hc : c.gate.isCloser t = true ↔ 0 < m) : c.Tells t n m where
  depth := hd
  entered := by omega
  isCloser := hc
  exit := by
    obtain ⟨g, room, note, he⟩ := exit_eq c.gate t
    have hn : 0 < c.gate.depth t ↔ 0 < n := by omega
    simp only [hn] at he
    exact ⟨_, note, act_call_of_done (r := .exit) hi he⟩
  reopen := by
    obtain ⟨g, room, note, he⟩ := reopen_eq c.gate t
    simp only [hc] at he
    exact ⟨_, note, act_call_of_done (r := .reopen) hi he⟩

/-! ### The counters of the gate -/

section Counters

variable {as : List Action} {history : List Occurrence}

/-- Whoever is inside has a call that is over. -/
theorem mem_threads (h : run {} as = some (c, history)) (ht : 0 < c.gate.depth t) :
    t ∈ threads history := by
  by_contra hnot
  have hz := depth_eq_balance h t
  rw [balance_eq_zero hnot] at hz
  omega

/-- **The entries of the gate are those of all threads.** -/
theorem entered_eq_sum (h : run {} as = some (c, history)) :
    (c.gate.entered : Int) = ∑ t ∈ threads history, balance .entry t history := by
  have hs := (run_orderly h).sound
  rw [hs.entered_eq, Depths.total_eq_sum hs.wellFormed fun t ht => mem_threads h ht, Nat.cast_sum]
  exact Finset.sum_congr rfl fun t _ => depth_eq_balance h t

/-- **The holders are the threads with an entry left.** -/
theorem holders_eq_card (h : run {} as = some (c, history)) :
    c.gate.depths.length =
      ((threads history).filter fun t => 0 < balance .entry t history).card := by
  have hs := (run_orderly h).sound
  rw [Depths.length_eq_card hs.wellFormed fun t ht => mem_threads h ht]
  refine congrArg Finset.card (Finset.filter_congr fun t _ => ?_)
  rw [← depth_eq_balance h t, Int.natCast_pos]
  rfl

/-- A thread that holds the close holds the whole depth of it. -/
theorem closed_eq_balance (h : run {} as = some (c, history)) (ht : HoldsClose history t) :
    (c.gate.closed : Int) = balance .close t history := by
  rw [← closeDepth_eq_balance h, closeDepth, Gate.closeDepth, if_pos ((holdsClose_iff h).1 ht)]

theorem not_holdsClose (h : balance .close t history = 0) : ¬HoldsClose history t := by
  rw [HoldsClose, h]
  exact lt_irrefl 0

/-- Two threads that hold the close are one. -/
theorem holdsClose_unique (h : run {} as = some (c, history)) {u : ThreadId}
    (ht : HoldsClose history t) (hu : HoldsClose history u) : t = u := by
  have hct := ((holdsClose_iff h).1 ht).1
  have hcu := ((holdsClose_iff h).1 hu).1
  exact Option.some.inj (hct.symm.trans hcu)

/-- A gate without a holder of the close and without a thread that drains has no closer. -/
theorem closer_eq_none (h : run {} as = some (c, history)) (hh : ∀ t, ¬HoldsClose history t)
    (hd : ∀ t, c.drains t = false) : c.gate.closer = none := by
  refine Option.eq_none_iff_forall_ne_some.2 fun t hc => ?_
  exact hh t ((holdsClose_iff h).2 ⟨hc, hd t⟩)

/-- **Once nobody holds anything, at most the claim of one thread that drains is left.** -/
theorem eq_fresh_or_claim (h : run {} as = some (c, history))
    (he : ∀ t, balance .entry t history = 0) (hh : ∀ t, ¬HoldsClose history t) :
    c.gate = {} ∨ ∃ t, c.drains t = true ∧ c.gate = claim {} t := by
  have ho := run_orderly h
  have hout : ∀ t, c.gate.depth t = 0 := by
    intro t
    have hz := depth_eq_balance h t
    rw [he t] at hz
    omega
  by_cases hd : ∃ t, c.drains t = true
  · obtain ⟨t, hd⟩ := hd
    obtain ⟨hc, h1⟩ := ho.closer_of_drains hd
    -- without its claim the gate is fresh
    have hfresh : c.gate.unclaim = {} := ho.sound.unclaim.eq_fresh rfl hout
    refine .inr ⟨t, hd, ?_⟩
    rw [← hfresh, claim, unclaim, ← hc, ← h1]
  · have hnone : ∀ t, c.drains t = false := by
      intro t
      rw [Bool.eq_false_iff]
      exact fun hdt => hd ⟨t, hdt⟩
    exact .inl (ho.sound.eq_fresh (closer_eq_none h hh hnone) hout)

theorem closed_eq_zero (h : run {} as = some (c, history)) (hh : ∀ t, ¬HoldsClose history t)
    (hd : ∀ t, c.drains t = false) : c.gate.closed = 0 :=
  (run_orderly h).sound.closed_eq_zero_iff.2 (closer_eq_none h hh hd)

/-- **A gate is fresh exactly if nobody holds anything or drains.** -/
theorem eq_fresh_iff (h : run {} as = some (c, history)) :
    (∀ t, balance .entry t history = 0 ∧ balance .close t history = 0 ∧ c.drains t = false) ↔
      c.gate = {} := by
  have ho := run_orderly h
  constructor
  · intro h0
    -- with nobody draining only the first of the two is left
    rcases eq_fresh_or_claim h (fun t => (h0 t).1) fun t => not_holdsClose (h0 t).2.1 with
      hg | ⟨t, hd, -⟩
    · exact hg
    · rw [(h0 t).2.2] at hd
      cases hd
  · intro hg t
    refine ⟨?_, ?_, ?_⟩
    · rw [← depth_eq_balance h t, hg]
      rfl
    · rw [← closeDepth_eq_balance h t, closeDepth, hg]
      simp [Gate.closeDepth]
    · rw [Bool.eq_false_iff]
      intro hd
      have hc := (ho.closer_of_drains hd).1
      rw [hg] at hc
      cases hc

end Counters

/-- **A gate tells an idle thread its balances.** -/
theorem tells_balance {as : List Action} {history : List Occurrence}
    (h : run {} as = some (c, history)) (hi : c.idle t = true) :
    c.Tells t (balance .entry t history) (balance .close t history) := by
  have hd : c.drains t = false := drains_eq_false (idle_iff.1 hi)
  have hiff := holdsClose_iff (t := t) h
  simp only [hd, and_true] at hiff
  refine Tells.of_idle hi (depth_eq_balance h t) ?_
  rw [(run_orderly h).sound.isCloser_iff]
  exact hiff.symm

/-! ### Calls of other threads -/

/-- **What happens elsewhere changes nothing that a thread holds.** -/
theorem Step.holds_of_ne (hs : Step c a c' o) (h : c.Orderly) (ht : a.actor ≠ some t) :
    c'.gate.depth t = c.gate.depth t ∧ c'.gate.isCloser t = c.gate.isCloser t ∧
      (c.gate.isCloser t = true → c'.gate.closed = c.gate.closed) := by
  have hs' := (hs.orderly h).sound
  cases hs with
  | @segment u d hold s rest sinkFails hu hl m =>
      have hne : t ≠ u := by
        rintro rfl
        exact ht hu
      rw [gate_absorb] at hs' ⊢
      refine ⟨m.depth_of_ne h.sound hne, ?_, fun hc => ?_⟩
      · rw [Bool.eq_iff_iff, hs'.isCloser_iff, h.sound.isCloser_iff]
        exact m.closer_iff_of_ne hne
      · exact m.closed_of_ne hne (h.sound.isCloser_iff.1 hc)
  | still _ hg _ _ => simp only [hg, implies_true, and_self]

/-! ### Holds equal history -/

/-- **Holds equal history.**  After any run with a sink that never fails, a gate tells every thread
that is not in the middle of a call exactly what the thread was granted and has not given back, and
lets it release that much and no more.  The entries are the sum over all threads, the holders those
with an entry left, and the depth of the close is that of the one thread with a close left, one
while a thread drains, and zero otherwise.  Whatever happens next changes the holds of no other
thread.  The gate is fresh exactly if nobody holds anything or drains; otherwise, with all holds
given back, it has the claim of the thread that drains and nothing else. -/
theorem holds_eq_history {as : List Action} {history : List Occurrence}
    (h : run {} as = some (c, history)) (hq : ∀ o ∈ history, o.unwound = false) :
    (∀ t, c.idle t = true → c.Tells t (entriesOf history t) (closesOf history t)) ∧
      (c.gate.snapshot.entered : Int) = ∑ t ∈ threads history, entriesOf history t ∧
      c.gate.snapshot.holders = ((threads history).filter fun t => 0 < entriesOf history t).card ∧
      (∀ t, t ∉ threads history → entriesOf history t = 0) ∧
      (∀ t u, 0 < closesOf history t → 0 < closesOf history u → t = u) ∧
      (∀ t, 0 < closesOf history t → (c.gate.snapshot.closed : Int) = closesOf history t) ∧
      (∀ t, c.drains t = true → c.gate.snapshot.closed = 1) ∧
      ((∀ t, closesOf history t = 0 ∧ c.drains t = false) → c.gate.snapshot.closed = 0) ∧
      (∀ a c' o t, c.act a = some (c', o) → a.actor ≠ some t →
        c'.gate.depth t = c.gate.depth t ∧ c'.gate.isCloser t = c.gate.isCloser t ∧
          (c.gate.isCloser t = true → c'.gate.closed = c.gate.closed)) ∧
      ((∀ t, entriesOf history t = 0 ∧ closesOf history t = 0) →
        c.gate = {} ∨ ∃ t, c.drains t = true ∧ c.gate = claim {} t) ∧
      ((∀ t, entriesOf history t = 0 ∧ closesOf history t = 0 ∧ c.drains t = false) ↔
        c.gate = {}) := by
  have ho := run_orderly h
  have he : ∀ t, entriesOf history t = balance .entry t history := by
    intro t
    rw [entriesOf, returned_eq hq]
  have hm : ∀ t, closesOf history t = balance .close t history := by
    intro t
    rw [closesOf, returned_eq hq]
  simp only [he, hm]
  refine ⟨fun t hi => tells_balance h hi, entered_eq_sum h, holders_eq_card h,
    fun t ht => balance_eq_zero ht _, fun t u ht hu => holdsClose_unique h ht hu,
    fun t ht => closed_eq_balance h ht, fun t hd => (ho.closer_of_drains hd).2, fun h0 => ?_,
    fun a c' o t ha ht => (act_step ho ha).holds_of_ne ho ht, fun h0 => ?_, eq_fresh_iff h⟩
  · exact closed_eq_zero h (fun t => not_holdsClose (h0 t).1) fun t => (h0 t).2
  · exact eq_fresh_or_claim h (fun t => (h0 t).1) fun t => not_holdsClose (h0 t).2

/-- A close that gives up, one that drains behind two entries while a third thread waits to enter,
and then closes, entries and releases of its own, one of them too many. -/
theorem holds_eq_history_of_last_close :
    let a : ThreadId := ⟨"a"⟩
    let b : ThreadId := ⟨"b"⟩
    let c : Crowd := ⟨⟨0, 1, some b, []⟩, [⟨⟨"c"⟩, .entry .infinite none⟩], [], 0⟩
    let history : List Occurrence :=
      [⟨a, .entry, .granted, none, false⟩, ⟨a, .entry, .granted, none, false⟩,
        ⟨b, .close, .timedOut, some (.rolledBack 2), false⟩,
        ⟨a, .entry, .released, none, false⟩, ⟨a, .entry, .released, none, false⟩,
        ⟨b, .close, .granted, some (.closed 0), false⟩,
        ⟨b, .close, .granted, some (.nested 2), false⟩,
        ⟨b, .entry, .granted, none, false⟩, ⟨b, .entry, .released, none, false⟩,
        ⟨b, .entry, .misused .exit, some (.unbalancedExit b), false⟩,
        ⟨b, .close, .released, none, false⟩]
    let as : List Action :=
      [.call a (.enter .infinite) false, .call a (.enter (.millis 0)) false,
        .call b (.close (.millis 0)) false, .call b (.close .infinite) false,
        .call ⟨"c"⟩ (.enter .infinite) false, .call a .exit false, .call a .exit false,
        .resume b false, .call b (.close (.millis 7)) false, .call b (.enter .infinite) false,
        .call b .exit false, .call b .exit false, .call b .reopen false]
    run {} as = some (c, history) ∧ (∀ o ∈ history, o.unwound = false) ∧
      c.Tells a 0 0 ∧ c.Tells b 0 1 := by
  intro a b c history as
  have hrun : run {} as = some (c, history) := by decide +kernel
  have hq : ∀ o ∈ history, o.unwound = false := by decide
  obtain ⟨htells, -⟩ := holds_eq_history hrun hq
  exact ⟨hrun, hq, htells a (by decide), htells b (by decide)⟩

end Crowd

end ReentrantGate.Gate
