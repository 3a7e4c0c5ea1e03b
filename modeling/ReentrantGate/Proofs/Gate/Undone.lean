/-
**Failed calls leave nothing behind.**

A call that fails has, in most cases, written nothing.  The exception is a close that has claimed
the gate and then gives up: everybody has seen the claim, for as long as the close was draining, and
other threads may have come and gone meanwhile.  What makes it possible to take the claim back is
that nobody else writes to the close as long as there is a closer.

What a call has written is read off the stints of its thread, since the one that started the call.

Main definitions:

* `Gate.ownWrites`, `Gate.closeWrites` — what the last call of a thread has written, and what has
  been written to the close by anybody;
* `Gate.Stint.gain`, `Gate.made`, `Gate.madeByAll` — what stints add to the entries;
* `Gate.Stint.failed` — a stint that ends its call with a failure;
* `Gate.TakenBack` — a close that has taken its claim back;
* `Gate.Courtyard.Tidy` — what the calls that are going on have written.

Main results:

* `Gate.Conduct.filter_writesClose` — **nobody but the closer writes to the close**;
* `Gate.Conduct.failed_cases` — what a segment that fails its call can be;
* `Gate.Courtyard.Tidy.act` — **every action keeps a courtyard tidy**;
* `Gate.Courtyard.failed_call_leaves_nothing` — **failed calls leave nothing behind**.
-/

import Mathlib.Data.List.ReduceOption
import ReentrantGate.Proofs.Gate.Stint
import ReentrantGate.Proofs.Gate.Turn

set_option relaxedAutoImplicit false
set_option autoImplicit false

namespace ReentrantGate.Gate

/-! ### Writes -/

namespace Deed

/-- Whether a deed assigns to a field of the gate. -/
def writes : Deed → Bool
  | .notify _ => false
  | .log _ => false
  | _ => true

/-- Whether a deed assigns to the closer or to the depth of the close. -/
def writesClose : Deed → Bool
  | .closer .. => true
  | .closed .. => true
  | _ => false

end Deed

/-- What the call of `t` that is going on or has ended last has written. -/
def ownWrites (t : ThreadId) (stints : List Stint) : List Deed :=
  stints.foldl (fun written i =>
    if i.thread = t then
      (if i.started.isSome then [] else written) ++ i.deeds.filter Deed.writes
    else written) []

/-- What has been written to the close, and by whom. -/
def closeWrites (stints : List Stint) : List (ThreadId × Deed) :=
  stints.flatMap fun i => (i.deeds.filter Deed.writesClose).map fun e => (i.thread, e)

/-- What a stint adds to the entries of its thread, as far as its caller is told. -/
def Stint.gain (i : Stint) : Int :=
  match i.hold, i.ending with
  | .entry, .replied (.flag true) => 1
  | .entry, .replied .ok => -1
  | _, _ => 0

/-- The entries that the calls of `t` have made. -/
def made (t : ThreadId) (stints : List Stint) : Int :=
  ((stints.filter (·.thread = t)).map Stint.gain).sum

/-- The entries that the calls of all threads have made. -/
def madeByAll (stints : List Stint) : Int := (stints.map Stint.gain).sum

/-- Whether a stint ends its call with a failure: nothing was granted, or the call was refused, be
it on behalf of a guard that is dropped. -/
def Stint.failed (i : Stint) : Bool :=
  match i.ending with
  | .replied (.flag success) => !success
  | .replied (.refused _) => true
  | .replied (.unwound (.guardOutlived _)) => true
  | _ => false

/-- The writes by which a claim is taken back. -/
def unclaiming (t : ThreadId) : List Deed := [.closer (some t) none, .closed 1 0]

/-- **A close has taken its claim back** in the stint `i`, which leads from one crowd to another: it
has written its claim and the claim's undoing, nobody else has written to the close in between,
everybody who waited for the closer to go has been woken, and everybody may enter. -/
structure TakenBack (i : Stint) (stints : List Stint) (before after : Crowd) : Prop where
  writes : ownWrites i.thread stints = claiming i.thread ++ unclaiming i.thread
  alone : ((claiming i.thread ++ unclaiming i.thread).map fun e => (i.thread, e)) <:+
    closeWrites stints
  last : rollingBack i.thread ++ [.log (.rolledBack after.gate.entered)] <:+ i.deeds
  woken : ∀ v ∈ before.parked, v.waiting.room = .opened → v ∈ after.woken ∧ v ∉ after.parked
  closer : after.gate.closer = none
  closed : after.gate.closed = 0
  admits : ∀ u, after.gate.admits u = true

/-! ### The writes of a stint -/

section Stints

variable {g : Gate} {t u : ThreadId} {d : Bool} {hold : Hold} {started : Option Call}
  {deeds : List Deed} {s : Segment} {sink : Sink} {stints : List Stint} {i : Stint}

theorem ownWrites_concat (t : ThreadId) (stints : List Stint) (i : Stint) :
    ownWrites t (stints ++ [i]) =
      if i.thread = t then
        (if i.started.isSome then [] else ownWrites t stints) ++ i.deeds.filter Deed.writes
      else ownWrites t stints := by
  simp [ownWrites]

theorem closeWrites_concat (stints : List Stint) (i : Stint) :
    closeWrites (stints ++ [i]) =
      closeWrites stints ++ (i.deeds.filter Deed.writesClose).map fun e => (i.thread, e) := by
  simp [closeWrites]

theorem made_concat (t : ThreadId) (stints : List Stint) (i : Stint) :
    made t (stints ++ [i]) = made t stints + if i.thread = t then i.gain else 0 := by
  by_cases h : i.thread = t <;> simp [made, h]

/-- Whether the sink fails makes no difference to any deeds but notes. -/
theorem Conduct.filter_under (m : Conduct t g d hold deeds s) {p : Deed → Bool}
    (hp : ∀ note, p (.log note) = false) (started : Option Call) (sink : Sink) :
    ((s.stint t hold started deeds).under sink).deeds.filter p = deeds.filter p := by
  rw [m.under_stint]
  cases s.note? with
  | none => rfl
  | some note =>
      cases hs : sink note with
      | true => simp [hs]
      | false => simp [hs, hp]

/-- **Nobody but the closer writes to the close** as long as there is one. -/
theorem Conduct.filter_writesClose (m : Conduct t g d hold deeds s) (hc : g.closer = some u)
    (hu : u ≠ t) : deeds.filter Deed.writesClose = [] := by
  have hsome : g.closer ≠ none := by simp [hc]
  have hne : g.closer ≠ some t := by
    rw [hc]
    simpa using hu
  cases m with
  | nest ht => exact absurd ht hne
  | unnest ht _ => exact absurd ht hne
  | reopen ht _ => exact absurd ht hne
  | claim hn _ _ => exact absurd hn hsome
  | probe hn _ _ => exact absurd hn hsome
  | rollBack ht _ _ => exact absurd ht hne
  | drain hn _ _ => exact absurd hn hsome
  -- entries are no business of the close, and the rest writes nothing
  | _ => simp [raising, lowering, Deed.writesClose]

/-- A thread that parks has written its claim, in this stint or before, if it parks to drain, and
else nothing. -/
theorem Conduct.writes_of_park {g' : Gate} {w : Waiting}
    (m : Conduct t g d hold deeds (.park g' w)) :
    (if d then claiming t else []) ++ deeds.filter Deed.writes =
      if w.draining then claiming t else [] := by
  cases m with
  | park hd _ _ => simp [hd]
  | drain _ _ _ => rfl
  | stay _ _ _ => rfl

/-- A thread that parks to drain has been draining and writes nothing, or writes its claim. -/
theorem Conduct.claims_of_park {g' : Gate} {w : Waiting}
    (m : Conduct t g d hold deeds (.park g' w)) (hd : w.draining = true) :
    d = true ∧ deeds = [] ∨ deeds = claiming t := by
  cases m with
  | park hw _ _ => simp [hw] at hd
  | drain _ _ _ => exact .inr rfl
  | stay _ _ _ => exact .inl ⟨rfl, rfl⟩

/-! ### Entries -/

/-- A stint adds something only if its caller is told so, about entries. -/
theorem Stint.gain_eq_zero
    (h : i.hold = .close ∨ i.ending ≠ .replied (.flag true) ∧ i.ending ≠ .replied .ok) :
    i.gain = 0 := by
  unfold gain
  split
  · simp_all
  · simp_all
  · rfl

/-- A stint that ends as its segment does adds what the verdict adds. -/
theorem Stint.gain_of_ending (h : i.ending = Gate.ending started s.outcome) :
    i.gain = gained .entry i.hold s.verdict? := by
  cases s with
  | park g w =>
      rw [gain_eq_zero (.inr (by simp [h, Segment.outcome, Gate.ending]))]
      rfl
  | done g room note verdict =>
      cases verdict with
      | misused usage =>
          rw [gain_eq_zero (.inr ?_)]
          · cases i.hold <;> rfl
          · simpa [h, Segment.outcome, Gate.ending] using conclusion_misused started usage true
      | _ =>
          rw [gain, h]
          simp only [Segment.outcome, Gate.ending, conclusion_granted, conclusion_released,
            conclusion_timedOut]
          cases i.hold <;> rfl

/-- A segment with a note adds nothing to the entries. -/
theorem Conduct.gained_of_note {note : Note} (m : Conduct t g d hold deeds s)
    (hn : s.note? = some note) : gained .entry hold s.verdict? = 0 := by
  cases m with
  | refuse e => cases e <;> simp [gained, Segment.verdict?, Verdict.gain]
  | enter _ => cases hn
  | exit _ _ => cases hn
  | lastExit _ _ _ _ => cases hn
  | park _ _ _ => cases hn
  | _ => rfl

/-- **What a stint adds to the entries** is what the verdict of its segment adds, failing sink or
not. -/
theorem Conduct.gain_under (m : Conduct t g d hold deeds s) (started : Option Call) (sink : Sink) :
    ((s.stint t hold started deeds).under sink).gain = gained .entry hold s.verdict? := by
  rw [m.under_stint]
  cases hn : s.note? with
  | none => exact Stint.gain_of_ending rfl
  | some note =>
      cases hs : sink note with
      | false =>
          simp only [hs, Bool.false_eq_true, if_false]
          exact Stint.gain_of_ending rfl
      | true =>
          simp only [hs, if_true]
          rw [m.gained_of_note hn]
          exact Stint.gain_eq_zero (.inr (by simp))

/-- **A segment changes the number of entries by what it grants or gives back.** -/
theorem Move.entered_self (m : Move t g d hold s) (h : g.Sound) :
    (s.gate.entered : Int) = g.entered + gained .entry hold s.verdict? := by
  have hpos : 0 < g.depth t → 0 < g.entered := fun h0 => h0.trans_le (h.depth_le_entered t)
  have hleave : 0 < g.depth t → ((g.lower t).entered : Int) = g.entered + -1 := by
    intro h0
    have := hpos h0
    simp only [Gate.lower]
    omega
  cases m with
  | refuse e => cases e <;> simp [Segment.gate, Segment.verdict?, gained, Verdict.gain]
  | enter _ => simp [Segment.gate, Segment.verdict?, gained, Verdict.gain, Gate.raise]
  | exit h0 _ => exact hleave h0
  | lastExit h0 _ _ _ => exact hleave h0
  -- closes leave the entries alone
  | _ =>
      simp [Segment.gate, Segment.verdict?, gained, Gate.nest, Gate.unnest, Gate.unclaim,
        Gate.claim]

/-! ### Failures -/

/-- A stint that fails its call for other reasons than the sink is not changed by the sink. -/
theorem Stint.under_of_failed (h : (i.under sink).failed = true) : i.under sink = i := by
  unfold under at h ⊢
  split
  · rename_i hany
    simp [hany, failed] at h
  · rfl

/-- A call fails because its time is over or because of a misuse. -/
theorem Segment.verdict_of_failed (h : (s.stint t hold started deeds).failed = true) :
    s.verdict? = some .timedOut ∨ ∃ usage, s.verdict? = some (.misused usage) := by
  cases s with
  | park g w => simp [Segment.stint, Segment.outcome, ending, Stint.failed] at h
  | done g room note verdict =>
      cases verdict with
      | timedOut => exact .inl rfl
      | misused usage => exact .inr ⟨usage, rfl⟩
      | granted => simp [Segment.stint, Segment.outcome, ending, Stint.failed] at h
      | released => simp [Segment.stint, Segment.outcome, ending, Stint.failed] at h
      | overflowed => simp [Segment.stint, Segment.outcome, ending, Stint.failed] at h

/-- **What a segment that fails its call can be**: nothing has been done, with an excuse that is
noted, or the claim is taken back, which was made in the same stint or before. -/
theorem Conduct.failed_cases (m : Conduct t g d hold deeds s)
    (h : (s.stint t hold started deeds).failed = true) :
    (d = false ∧ deeds = [] ∧ ∃ note verdict, s = .done g none (some note) verdict ∧
        Excuse t g hold (some note) verdict) ∨
      hold = .close ∧ (if d then claiming t else []) ++ deeds = claiming t ++ rollingBack t ∧
        rollingBack t <:+ deeds ∧ s = .done { g with closer := none, closed := 0 } (some .opened)
          (some (.rolledBack g.entered)) .timedOut := by
  have hv := Segment.verdict_of_failed h
  cases m with
  | refuse e =>
      refine .inl ⟨rfl, rfl, ?_⟩
      cases e with
      | overflow => simp [Segment.verdict?] at hv
      | entry hn hc h0 => exact ⟨_, _, rfl, .entry hn hc h0⟩
      | exclusivity hn hc => exact ⟨_, _, rfl, .exclusivity hn hc⟩
      | exit h0 => exact ⟨_, _, rfl, .exit h0⟩
      | reopen hc => exact ⟨_, _, rfl, .reopen hc⟩
  | probe hc h0 _ => exact .inr ⟨rfl, rfl, List.suffix_append _ _, by rw [← hc, ← h0]⟩
  | rollBack _ _ _ => exact .inr ⟨rfl, rfl, List.suffix_refl _, rfl⟩
  | _ => simp [Segment.verdict?] at hv

end Stints

/-! ### Calls that are going on -/

namespace Courtyard

/-- **What the calls that are going on have written**: a thread that drains has written its claim,
after which nobody has written to the close, and the others have written nothing.  The entries are
those that calls have made. -/
structure Tidy (y : Courtyard) (stints : List Stint) : Prop where
  orderly : y.crowd.Orderly
  writes : ∀ v ∈ y.crowd.visitors,
    ownWrites v.thread stints = if v.waiting.draining then claiming v.thread else []
  claimed : ∀ v ∈ y.crowd.visitors, v.waiting.draining = true →
    ((claiming v.thread).map fun e => (v.thread, e)) <:+ closeWrites stints
  depth : ∀ u, (y.crowd.gate.depth u : Int) = made u stints
  entered : (y.crowd.gate.entered : Int) = madeByAll stints

variable {y y' : Courtyard} {t : ThreadId} {d : Bool} {hold : Hold} {started : Option Call}
  {deeds : List Deed} {s : Segment} {rest : Crowd} {a : Action} {sink : Sink}
  {stints : List Stint}

/-- **What the call of a thread has written after a stretch**: its claim, if it was draining before,
and what it writes now. -/
theorem Tidy.ownWrites_stretch (h : Tidy y stints)
    (hs : Stretch y.crowd t hold started d deeds s rest) (sink : Sink) :
    ownWrites t (stints ++ [(s.stint t hold started deeds).under sink]) =
      (if d then claiming t else []) ++ deeds.filter Deed.writes := by
  have hbefore : (if started.isSome then [] else ownWrites t stints) =
      if d then claiming t else [] := by
    cases hstart : started with
    | none =>
        obtain ⟨v, hv, rfl, rfl⟩ := hs.waited hstart
        simpa using h.writes v hv
    | some call =>
        -- a thread that starts a call has been nowhere, and so not draining
        have hidle := Crowd.idle_iff.1 (hs.idle (by simp [hstart]))
        have hd : d = false := hs.leaves.drains.symm.trans (Crowd.drains_eq_false hidle)
        simp [hd]
  rw [ownWrites_concat, hs.conduct.filter_under (fun _ => rfl), Stint.thread_under,
    Stint.started_under, Segment.thread_stint, Segment.started_stint, if_pos rfl, hbefore]

/-- **What has been written to the close after a stretch.** -/
theorem closeWrites_stretch (hs : Stretch y.crowd t hold started d deeds s rest)
    (stints : List Stint) (sink : Sink) :
    closeWrites (stints ++ [(s.stint t hold started deeds).under sink]) =
      closeWrites stints ++ (deeds.filter Deed.writesClose).map fun e => (t, e) := by
  rw [closeWrites_concat, hs.conduct.filter_under (fun _ => rfl), Stint.thread_under,
    Segment.thread_stint]

/-- **A stretch keeps a courtyard tidy**, whatever the sink does. -/
theorem Tidy.stretch (h : Tidy y stints) (hs : Stretch y.crowd t hold started d deeds s rest)
    (hy : y'.crowd = rest.absorb t s) (ho : y'.crowd.Orderly) (sink : Sink) :
    Tidy y' (stints ++ [(s.stint t hold started deeds).under sink]) where
  orderly := ho
  writes v hv := by
    rw [hy, Crowd.mem_visitors_absorb] at hv
    rcases hv with hv | hv
    · obtain ⟨g, w, rfl, rfl⟩ := Crowd.eq_of_mem_parks hv
      rw [h.ownWrites_stretch hs]
      exact hs.conduct.writes_of_park
    · obtain ⟨hv, hne⟩ := (hs.leaves.mem_iff v).1 hv
      rw [ownWrites_concat, if_neg (by simpa using hne.symm)]
      exact h.writes v hv
  claimed v hv hd := by
    rw [hy, Crowd.mem_visitors_absorb] at hv
    rw [closeWrites_stretch hs]
    rcases hv with hv | hv
    · obtain ⟨g, w, rfl, rfl⟩ := Crowd.eq_of_mem_parks hv
      rcases hs.conduct.claims_of_park hd with ⟨rfl, rfl⟩ | rfl
      · obtain ⟨x, hx, rfl, hxd⟩ := Crowd.drains_iff.1 hs.leaves.drains
        simpa using h.claimed x hx hxd
      · exact List.suffix_append _ _
    · -- `v` has been draining all along, so nobody else has written to the close
      obtain ⟨hv, hne⟩ := (hs.leaves.mem_iff v).1 hv
      have hdrains : y.crowd.drains v.thread = true := Crowd.drains_iff.2 ⟨v, hv, rfl, hd⟩
      have hc := (h.orderly.closer_of_drains hdrains).1
      rw [hs.conduct.filter_writesClose hc hne]
      simpa using h.claimed v hv hd
  depth u := by
    rw [hy, Crowd.gate_absorb, made_concat, Stint.thread_under, Segment.thread_stint]
    have m := hs.conduct.move
    by_cases hu : t = u
    · subst hu
      rw [if_pos rfl, hs.conduct.gain_under, ← h.depth, m.depth_self h.orderly.sound false,
        balance_occurrence]
    · rw [if_neg hu, m.depth_of_ne h.orderly.sound (Ne.symm hu), h.depth]
      simp
  entered := by
    rw [hy, Crowd.gate_absorb, hs.conduct.move.entered_self h.orderly.sound, h.entered,
      ← hs.conduct.gain_under started sink]
    simp [madeByAll]

/-- A call that is refused before it takes the lock keeps a courtyard tidy. -/
theorem Tidy.refused (h : Tidy y stints) (hi : y.crowd.idle t = true) (call : Call)
    (refusal : Refusal) :
    Tidy y (stints ++ [⟨t, call.hold, some call, [], .replied (.refused refusal)⟩]) where
  orderly := h.orderly
  writes v hv := by
    rw [ownWrites_concat, if_neg (Crowd.idle_iff.1 hi v hv).symm]
    exact h.writes v hv
  claimed v hv hd := by
    rw [closeWrites_concat]
    simpa using h.claimed v hv hd
  depth u := by
    rw [made_concat, Stint.gain_eq_zero (.inr (by simp)), ite_self, add_zero]
    exact h.depth u
  entered := by
    rw [h.entered, madeByAll, madeByAll, List.map_append, List.sum_append]
    simp [Stint.gain_eq_zero]

/-- **Every action keeps a courtyard tidy.** -/
theorem Tidy.act {o : Option Stint} (h : Tidy y stints) (ha : y.act sink a = some (y', o)) :
    Tidy y' (stints ++ o.toList) := by
  have ho := orderly_of_act h.orderly ha
  cases act_course h.orderly a with
  | stuck hstuck => simp [hstuck] at ha
  | still hb hact hstill =>
      rw [hstill] at ha
      cases ha
      cases Crowd.act_step h.orderly hact with
      | segment _ ht _ _ => simp [hb] at ht
      | still _ hg hv _ =>
          -- neither the gate nor who is there has changed
          rw [Option.toList_none, List.append_nil]
          exact ⟨ho, fun v hm => h.writes v (hv.mem_iff.1 hm),
            fun v hm => h.claimed v (hv.mem_iff.1 hm), fun u => hg ▸ h.depth u, hg ▸ h.entered⟩
  | refused hi hrefused =>
      rw [hrefused] at ha
      cases ha
      exact h.refused hi _ _
  | stretch hs _ hstretch =>
      obtain ⟨hy, rfl⟩ := of_seen (hstretch sink) ha
      exact h.stretch hs hy ho sink

theorem tidy_fresh : Tidy {} [] :=
  ⟨Crowd.orderly_fresh, by simp [Crowd.visitors], by simp [Crowd.visitors], fun _ => rfl, rfl⟩

/-- **Every run leads to a tidy courtyard.** -/
theorem run_tidy {as : List (Sink × Action)} {history : List (Option Stint)}
    (h : run {} as = some (y, history)) : Tidy y history.reduceOption := by
  refine run_induction (P := fun y history => Tidy y history.reduceOption) tidy_fresh ?_ h
  intro y history sink a y' o ht ha
  rw [List.reduceOption_append, List.reduceOption_singleton]
  exact ht.act ha

theorem filter_rollingBack (t : ThreadId) :
    (rollingBack t).filter Deed.writesClose = unclaiming t := rfl

/-- **A stretch in which a close gives up draining takes the claim back.** -/
theorem Tidy.takenBack (h : Tidy y stints) (hs : Stretch y.crowd t hold started d deeds s rest)
    (hdeeds : (if d then claiming t else []) ++ deeds = claiming t ++ rollingBack t)
    (hlast : rollingBack t <:+ deeds)
    (hseg : s = .done { y.crowd.gate with closer := none, closed := 0 } (some .opened)
      (some (.rolledBack y.crowd.gate.entered)) .timedOut) :
    TakenBack (s.stint t hold started deeds) (stints ++ [s.stint t hold started deeds]) y.crowd
      (rest.absorb t s) where
  writes := by
    have hown := h.ownWrites_stretch hs .accepting
    have hfilter := congrArg (List.filter Deed.writes) hdeeds
    have hclaim : (if d then claiming t else []).filter Deed.writes =
        if d then claiming t else [] := by cases d <;> rfl
    rw [List.filter_append, hclaim] at hfilter
    rw [Stint.under_accepting, hfilter] at hown
    exact hown
  alone := by
    have hclose := closeWrites_stretch hs stints .accepting
    rw [Stint.under_accepting] at hclose
    rw [hclose, Segment.thread_stint]
    cases d with
    | false =>
        simp only [Bool.false_eq_true, if_false, List.nil_append] at hdeeds
        rw [hdeeds]
        exact List.suffix_append _ _
    | true =>
        -- the claim is the last thing that was written to the close before
        simp only [if_true, List.append_cancel_left_eq] at hdeeds
        obtain ⟨x, hx, rfl, hxd⟩ := Crowd.drains_iff.1 hs.leaves.drains
        obtain ⟨earlier, hearlier⟩ := h.claimed x hx hxd
        rw [hdeeds, filter_rollingBack, ← hearlier]
        exact ⟨earlier, by rw [List.map_append, List.append_assoc]⟩
  last := by
    obtain ⟨earlier, hearlier⟩ := hlast
    rw [hseg, ← hearlier]
    exact ⟨earlier, by simp [Segment.stint, Segment.note?, Crowd.absorb]⟩
  woken v hv hroom := by
    rw [← hs.leaves.parked] at hv
    rw [hseg]
    simp [Crowd.absorb, hv, hroom]
  closer := by rw [hseg]; rfl
  closed := by rw [hseg]; rfl
  admits u := by
    rw [hseg]
    simp [Crowd.absorb, Gate.admits]

/-- A call that was not draining and does nothing but log has written nothing. -/
theorem Tidy.nothing (h : Tidy y stints)
    (hs : Stretch y.crowd t hold started false [] s rest) :
    ownWrites t (stints ++ [s.stint t hold started []]) = [] := by
  have hown := h.ownWrites_stretch hs .accepting
  rwa [Stint.under_accepting] at hown

/-- **A call that fails has written nothing or has taken its claim back.** -/
theorem Tidy.failed {i : Stint} (h : Tidy y stints) (ha : y.act sink a = some (y', some i))
    (hf : i.failed = true) :
    (ownWrites i.thread (stints ++ [i]) = [] ∧ y'.crowd.gate = y.crowd.gate ∧
      (i.hold = .close → i.ending = .replied (.flag false) →
        i.deeds = [.log .exclusivityTimedOut])) ∨
      i.hold = .close ∧ i.ending = .replied (.flag false) ∧
        TakenBack i (stints ++ [i]) y.crowd y'.crowd := by
  cases act_course h.orderly a with
  | stuck hstuck => simp [hstuck] at ha
  | still _ _ hstill => simp [hstill] at ha
  | refused _ hrefused =>
      rw [hrefused] at ha
      cases ha
      exact .inl ⟨by simp [ownWrites_concat], rfl, by simp⟩
  | @stretch _ t hold started d deeds s rest hs _ hstretch =>
      obtain ⟨hy, hi⟩ := of_seen (hstretch sink) ha
      obtain rfl := Option.some.inj hi
      have hself := Stint.under_of_failed hf
      rw [hself] at hf ⊢
      rw [hy]
      rcases hs.conduct.failed_cases hf with
        ⟨rfl, rfl, note, verdict, rfl, e⟩ | ⟨rfl, hdeeds, hlast, hseg⟩
      · refine .inl ⟨h.nothing hs, rfl, fun hc he => ?_⟩
        -- among the excuses of a close only this one is told as a failed attempt
        cases e with
        | entry _ _ _ => cases hc
        | exclusivity _ _ => rfl
        | exit _ => cases hc
        | reopen _ =>
            simp only [Segment.stint, Segment.outcome, ending, Ending.replied.injEq] at he
            exact absurd he (conclusion_misused started .reopen false).1
      · refine .inr ⟨rfl, ?_, h.takenBack hs hdeeds hlast hseg⟩
        rw [hseg, ← conclusion_timedOut started]
        rfl

/-- **Failed calls leave nothing behind.**  After a stint `i` that ends its call with a failure, at
the end of any run and whatever the sinks do:

* what the call has written in all its stints is about the close, and undoes itself;
* a call about entries has written nothing, nor has a call that was refused;
* a close that was granted nothing has written nothing, as it gave up on waiting for another closer
  to go, or has taken its claim back;
* the depth of every thread, and the number of entries, are what the calls have made them. -/
theorem failed_call_leaves_nothing {as : List (Sink × Action)} {history : List (Option Stint)}
    {i : Stint} (h : run {} as = some (y, history)) (ha : y.act sink a = some (y', some i))
    (hf : i.failed = true) :
    let stints := history.reduceOption ++ [i]
    let written := ownWrites i.thread stints
    (∀ e ∈ written, e.writesClose = true) ∧
    (∀ g : Gate, g.closer = none → g.closed = 0 → written.foldl after g = g) ∧
    (i.hold = .entry ∨ i.ending ≠ .replied (.flag false) →
      written = [] ∧ y'.crowd.gate = y.crowd.gate) ∧
    (i.hold = .close → i.ending = .replied (.flag false) →
      written = [] ∧ i.deeds = [.log .exclusivityTimedOut] ∧ y'.crowd.gate = y.crowd.gate ∨
        TakenBack i stints y.crowd y'.crowd) ∧
    (∀ u, (y'.crowd.gate.depth u : Int) = made u stints) ∧
    (y'.crowd.gate.entered : Int) = madeByAll stints := by
  have ht := run_tidy h
  have ht' := ht.act ha
  simp only [Option.toList_some] at ht'
  intro stints written
  rcases ht.failed ha hf with ⟨hw, hg, hd⟩ | ⟨hc, he, hback⟩
  · have hnone : written = [] := hw
    refine ⟨by simp [hnone], by simp [hnone], fun _ => ⟨hnone, hg⟩,
      fun hc he => .inl ⟨hnone, hd hc he, hg⟩, ht'.depth, ht'.entered⟩
  · have hsome : written = claiming i.thread ++ unclaiming i.thread := hback.writes
    refine ⟨?_, ?_, ?_, fun _ _ => .inr hback, ht'.depth, ht'.entered⟩
    · rw [hsome]
      simp [claiming, unclaiming, Deed.writesClose]
    · intro g hc h0
      rw [hsome]
      simp [claiming, unclaiming, after, ← hc, ← h0]
    · rintro (he' | he')
      · simp [hc] at he'
      · exact absurd he he'

/-- A close of `b` claims the gate and drains, while `a` nests and leaves again and `c` parks; then
its time is over. -/
theorem failed_call_leaves_nothing_of_nesting :
    let y : Courtyard :=
      ⟨⟨⟨1, 1, some ⟨"b"⟩, [(⟨"a"⟩, 1)]⟩, [⟨⟨"c"⟩, .entry .infinite none⟩],
        [⟨⟨"b"⟩, .drain (some 1000000)⟩], 1000000⟩, false⟩
    let after : Crowd :=
      ⟨⟨1, 0, none, [(⟨"a"⟩, 1)]⟩, [], [⟨⟨"c"⟩, .entry .infinite none⟩], 1000000⟩
    let history : List (Option Stint) :=
      [some ⟨⟨"a"⟩, .entry, some (.enterFor .infinite),
          [.entered 0 1, .depths [] [(⟨"a"⟩, 1)]], .replied (.flag true)⟩,
        some ⟨⟨"b"⟩, .close, some (.close 1), claiming ⟨"b"⟩, .parked (.drain (some 1000000))⟩,
        some ⟨⟨"c"⟩, .entry, some (.enter (-1)), [], .parked (.entry .infinite none)⟩,
        some ⟨⟨"a"⟩, .entry, some (.enter 0),
          [.entered 1 2, .depths [(⟨"a"⟩, 1)] [(⟨"a"⟩, 2)]], .replied (.flag true)⟩,
        some ⟨⟨"a"⟩, .entry, some .exit,
          [.entered 2 1, .depths [(⟨"a"⟩, 2)] [(⟨"a"⟩, 1)]], .replied .ok⟩, none, none]
    let i : Stint :=
      ⟨⟨"b"⟩, .close, none, rollingBack ⟨"b"⟩ ++ [.log (.rolledBack 1)], .replied (.flag false)⟩
    run {} [(.accepting, .call ⟨"a"⟩ (.enterFor .infinite)),
        (.accepting, .call ⟨"b"⟩ (.close 1)), (.accepting, .call ⟨"c"⟩ (.enter (-1))),
        (.accepting, .call ⟨"a"⟩ (.enter 0)), (.accepting, .call ⟨"a"⟩ .exit),
        (.accepting, .tick 1000000), (.accepting, .rouse ⟨"b"⟩)] = some (y, history) ∧
      y.act .accepting (.resume ⟨"b"⟩) = some (⟨after, false⟩, some i) ∧
      i.failed = true ∧ TakenBack i (history.reduceOption ++ [i]) y.crowd after := by
  intro y after history i
  have ha : y.act .accepting (.resume ⟨"b"⟩) = some (⟨after, false⟩, some i) := rfl
  refine (fun h => ⟨h, ha, rfl, ?_⟩) rfl
  have hrun : run {} _ = some (y, history) := h
  have hback := (failed_call_leaves_nothing hrun ha rfl).2.2.2.1 rfl rfl
  exact hback.resolve_left fun hnone => by simp [i, rollingBack] at hnone

end Courtyard

end ReentrantGate.Gate
