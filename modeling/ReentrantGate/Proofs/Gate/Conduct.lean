/-
**Routines play segments.**

Whatever the sink does, a routine goes through the deeds of its segment, and then hands the note of
the segment to the log, if there is one, as the last thing it does.  So the order in which a segment
is made up is the order in which things happen: the gate is changed first, then a room is woken, and
a sink that fails finds nothing left to be skipped but the answer.

Main definitions:

* `Gate.Conduct` — the deeds that make up each segment;
* `Gate.Hand.close` — a note goes to the log and the thread gives up the lock;
* `Gate.Plays` — a routine makes a segment, deed by deed, whatever the sink does.

Main results:

* `Gate.plays_begin`, `Gate.plays_resume` — **every routine plays its segment**;
* `Gate.Conduct.move` — what a segment can do, from its deeds;
* `Gate.Conduct.leftBy_eq_absorb` — the crowd after the deeds is the crowd after the segment.
-/

import ReentrantGate.Gate.Routine
import ReentrantGate.Proofs.Gate.Orderly

set_option relaxedAutoImplicit false
set_option autoImplicit false

namespace ReentrantGate.Gate

open Locked

/-! ### The deeds of a segment -/

/-- The deeds of one more entry. -/
def raising (t : ThreadId) (g : Gate) : List Deed :=
  [.entered g.entered (g.entered + 1), .depths g.depths (g.depths.raise t)]

/-- The deeds of one entry less. -/
def lowering (t : ThreadId) (g : Gate) : List Deed :=
  [.entered g.entered (g.entered - 1), .depths g.depths (g.depths.lower t)]

/-- The deeds of a claim. -/
def claiming (t : ThreadId) : List Deed := [.closer none (some t), .closed 0 1]

/-- The deeds by which a claim is taken back. -/
def rollingBack (t : ThreadId) : List Deed :=
  [.closer (some t) none, .closed 1 0, .notify .opened]

/-- **The deeds of a segment of `t` at the gate `g`**, up to the note.  The flag tells whether `t`
was draining before, the kind of hold is that of its call. -/
inductive Conduct (t : ThreadId) (g : Gate) : Bool → Hold → List Deed → Segment → Prop
  | refuse {hold : Hold} {note : Option Note} {verdict : Verdict} : Excuse t g hold note verdict →
      Conduct t g false hold [] (.done g none note verdict)
  | enter : g.closer = none ∨ g.closer = some t ∨ 0 < g.depth t →
      Conduct t g false .entry (raising t g) (.done (g.raise t) none none .granted)
  | exit : 0 < g.depth t → g.closer = none ∨ g.closer = some t ∨ (g.lower t).foreign ≠ 0 →
      Conduct t g false .entry (lowering t g) (.done (g.lower t) none none .released)
  | lastExit : 0 < g.depth t → g.closer ≠ none → g.closer ≠ some t → (g.lower t).foreign = 0 →
      Conduct t g false .entry (lowering t g ++ [.notify .drained])
        (.done (g.lower t) (some .drained) none .released)
  | nest : g.closer = some t →
      Conduct t g false .close [.closed g.closed (g.closed + 1)]
        (.done g.nest none (some (.nested g.nest.closed)) .granted)
  | unnest : g.closer = some t → 1 < g.closed →
      Conduct t g false .close [.closed g.closed (g.closed - 1)]
        (.done g.unnest none none .released)
  | reopen : g.closer = some t → g.closed = 1 →
      Conduct t g false .close [.closed 1 0, .closer (some t) none, .notify .opened]
        (.done g.unclaim (some .opened) (some .opened) .released)
  | claim : g.closer = none → g.closed = 0 → (g.claim t).foreign = 0 →
      Conduct t g false .close (claiming t)
        (.done (g.claim t) none (some (.closed (g.depth t))) .granted)
  | probe : g.closer = none → g.closed = 0 → (g.claim t).foreign ≠ 0 →
      Conduct t g false .close (claiming t ++ rollingBack t)
        (.done g (some .opened) (some (.rolledBack g.entered)) .timedOut)
  | drained : g.closer = some t → g.closed = 1 → g.foreign = 0 →
      Conduct t g true .close [] (.done g none (some (.closed (g.depth t))) .granted)
  | rollBack : g.closer = some t → g.closed = 1 → g.foreign ≠ 0 →
      Conduct t g true .close (rollingBack t)
        (.done g.unclaim (some .opened) (some (.rolledBack g.entered)) .timedOut)
  | park {w : Waiting} : w.draining = false → w.Fits g t → w.ready g = false →
      Conduct t g false w.hold [] (.park g w)
  | drain {deadline : Deadline} : g.closer = none → g.closed = 0 → (g.claim t).foreign ≠ 0 →
      Conduct t g false .close (claiming t) (.park (g.claim t) (.drain deadline))
  | stay {deadline : Deadline} : g.closer = some t → g.closed = 1 → g.foreign ≠ 0 →
      Conduct t g true .close [] (.park g (.drain deadline))

namespace Segment

/-- The note of a segment. -/
def note? : Segment → Option Note
  | park .. => none
  | done _ _ note _ => note

/-- How the routine of a segment ends, as long as the sink does not fail. -/
def outcome : Segment → Except Panic Outcome
  | park _ w => .ok (.parked w)
  | done _ _ _ .overflowed => .error .instantOverflow
  | done _ _ _ verdict => .ok (.returned verdict)

end Segment

/-- A note goes to the log, unless the sink fails on it, and the routine ends. -/
def Hand.close (h : Hand) (sink : Sink) (note : Option Note) (outcome : Except Panic Outcome) :
    Except Panic Outcome × Hand :=
  match note with
  | none => (outcome, h)
  | some note => if sink note then (.error .sinkFailed, h) else (outcome, h.did [.log note])

/-- **A routine plays a segment**: whatever the sink does, it goes through the deeds of the segment,
then hands over the note, and ends. -/
def Plays (p : Locked Outcome) (t : ThreadId) (g : Gate) (d : Bool) (hold : Hold) (s : Segment) :
    Prop :=
  ∃ deeds, Conduct t g d hold deeds s ∧
    ∀ sink h, h.crowd.gate = g → p.play sink h = (h.did deeds).close sink s.note? s.outcome

/-! ### Every routine plays its segment -/

section Routines

variable {g : Gate} {t : ThreadId} {now : Nat} {deadline : Deadline} {timeout : Timeout}
  {sink : Sink} {h : Hand}

theorem play_raise :
    play (Routine.raise t) sink h = (.ok (), h.did (raising t h.crowd.gate)) := by
  simp only [Routine.raise, play_bind, play_gate, play_setEntered, play_setDepths, Hand.did_did]
  rfl

theorem play_lower :
    play (Routine.lower t) sink h = (.ok (), h.did (lowering t h.crowd.gate)) := by
  simp only [Routine.lower, play_bind, play_gate, play_setEntered, play_setDepths, Hand.did_did]
  rfl

theorem play_claim (hc : h.crowd.gate.closer = none) (h0 : h.crowd.gate.closed = 0) :
    play (Routine.claim t) sink h = (.ok (), h.did (claiming t)) := by
  simp only [Routine.claim, play_bind, play_setCloser, play_setClosed, Hand.did_did, hc]
  rw [claiming, ← h0]
  rfl

theorem play_rollBack (hc : h.crowd.gate.closer = some t) (h1 : h.crowd.gate.closed = 1) :
    play Routine.rollBack sink h = (.ok (), h.did (rollingBack t)) := by
  simp only [Routine.rollBack, play_bind, play_setCloser, play_setClosed, play_notify, Hand.did_did,
    hc]
  rw [rollingBack, ← h1]
  rfl

theorem play_conclude (note : Note) (verdict : Verdict) :
    play (Routine.conclude note verdict) sink h =
      h.close sink (some note) (.ok (.returned verdict)) := by
  rw [Routine.conclude, play_bind, play_log, Hand.close]
  cases sink note <;> rfl

theorem plays_awaitEntry (h0 : g.depth t = 0) (hc : g.closer ≠ some t) :
    Plays (Routine.awaitEntry t timeout deadline now) t g false .entry
      (awaitEntry t timeout deadline now g) := by
  unfold awaitEntry
  split
  · rename_i hl
    have hn : g.closer = none := by rwa [look_eq_ready, Option.isNone_iff_eq_none] at hl
    refine ⟨_, .enter (.inl hn), ?_⟩
    intro sink h hg
    subst hg
    simp only [Routine.awaitEntry, play_bind, play_gate, hl, play_raise]
    rfl
  · rename_i hl
    have hn : g.closer ≠ none := by
      simpa [Option.isSome_iff_ne_none] using (look_eq_expired.1 hl).1
    refine ⟨_, .refuse (.entry hn hc h0), ?_⟩
    intro sink h hg
    subst hg
    simp only [Routine.awaitEntry, play_bind, play_gate, hl, play_conclude, Hand.did_nil]
    rfl
  · rename_i hl
    refine ⟨_, Conduct.park (w := .entry timeout deadline) rfl ⟨h0, hc⟩ (look_eq_park.1 hl).1, ?_⟩
    intro sink h hg
    subst hg
    simp only [Routine.awaitEntry, play_bind, play_gate, hl, Hand.did_nil]
    rfl

theorem plays_exit : Plays (Routine.exit t) t g false .entry (exit t g) := by
  unfold exit
  split
  · rename_i h0
    refine ⟨_, .refuse (.exit h0), ?_⟩
    intro sink h hg
    subst hg
    simp only [Routine.exit, play_bind, play_gate, h0, if_true, play_conclude, Hand.did_nil]
    rfl
  · rename_i h0
    have hc : (g.lower t).closer = g.closer := rfl
    have hleft : ∀ h : Hand, h.crowd.gate = g → (h.did (lowering t g)).crowd.gate = g.lower t := by
      rintro h rfl
      rfl
    simp only [hc]
    split
    · rename_i hw
      have hw' := hw
      simp only [Bool.and_eq_true, decide_eq_true_eq, Option.isSome_iff_ne_none] at hw'
      refine ⟨_, .lastExit (by omega) hw'.1.1 hw'.1.2 hw'.2, ?_⟩
      intro sink h hg
      simp only [Routine.exit, play_bind, play_gate, hg, h0, if_false, play_lower, hleft h hg, hc,
        hw, if_true, play_notify, Hand.did_did]
      rfl
    · rename_i hw
      have hw' := hw
      simp only [Bool.and_eq_true, decide_eq_true_eq, Option.isSome_iff_ne_none] at hw'
      refine ⟨_, .exit (by omega) (by tauto), ?_⟩
      intro sink h hg
      simp only [Routine.exit, play_bind, play_gate, hg, h0, if_false, play_lower, hleft h hg, hc,
        hw]
      rfl

/-- The second wait of a close, from whatever has been done before. -/
theorem play_awaitDrain (hc : h.crowd.gate.closer = some t) (h1 : h.crowd.gate.closed = 1) :
    play (Routine.awaitDrain t deadline now) sink h =
      match look (h.crowd.gate.foreign = 0) deadline now with
      | .ready =>
          h.close sink (some (.closed (h.crowd.gate.depth t))) (.ok (.returned .granted))
      | .expired =>
          (h.did (rollingBack t)).close sink (some (.rolledBack h.crowd.gate.unclaim.foreign))
            (.ok (.returned .timedOut))
      | .park _ => (.ok (.parked (.drain deadline)), h) := by
  simp only [Routine.awaitDrain, play_bind, play_gate]
  cases look (h.crowd.gate.foreign = 0) deadline now with
  | ready => simp only [play_bind, play_gate, play_conclude]
  | expired =>
      simp only [play_bind, play_gate, play_rollBack hc h1, play_conclude]
      rfl
  | park left => rfl

theorem plays_awaitDrain (hc : g.closer = some t) (h1 : g.closed = 1) :
    Plays (Routine.awaitDrain t deadline now) t g true .close (awaitDrain t deadline now g) := by
  unfold awaitDrain
  split
  · rename_i hl
    have hf := hl
    rw [look_eq_ready, decide_eq_true_eq] at hf
    refine ⟨_, .drained hc h1 hf, ?_⟩
    intro sink h hg
    rw [play_awaitDrain (hg ▸ hc) (hg ▸ h1), hg, hl, Hand.did_nil]
    rfl
  · rename_i hl
    have hf : g.foreign ≠ 0 := by simpa using (look_eq_expired.1 hl).1
    refine ⟨_, .rollBack hc h1 hf, ?_⟩
    intro sink h hg
    rw [play_awaitDrain (hg ▸ hc) (hg ▸ h1), hg, hl]
    rfl
  · rename_i hl
    have hf : g.foreign ≠ 0 := by simpa using (look_eq_park.1 hl).1
    refine ⟨_, .stay hc h1 hf, ?_⟩
    intro sink h hg
    rw [play_awaitDrain (hg ▸ hc) (hg ▸ h1), hg, hl, Hand.did_nil]
    rfl

/-- A close that finds no other closer claims the gate and drains in the same stretch. -/
theorem plays_claim (hs : g.Sound) (hc : g.closer = none) :
    Plays (Routine.claim t >>= fun _ => Routine.awaitDrain t deadline now) t g false .close
      (awaitDrain t deadline now (g.claim t)) := by
  have h0 : g.closed = 0 := hs.closed_eq_zero_iff.2 hc
  have hclaim : ∀ h : Hand, h.crowd.gate = g → (h.did (claiming t)).crowd.gate = g.claim t := by
    rintro h rfl
    rfl
  have hplay : ∀ sink (h : Hand), h.crowd.gate = g →
      play (Routine.claim t >>= fun _ => Routine.awaitDrain t deadline now) sink h =
        play (Routine.awaitDrain t deadline now) sink (h.did (claiming t)) := by
    intro sink h hg
    rw [play_bind, play_claim (hg ▸ hc) (hg ▸ h0)]
  have hdrain : ∀ h : Hand, h.crowd.gate = g →
      (h.did (claiming t)).crowd.gate.closer = some t ∧
        (h.did (claiming t)).crowd.gate.closed = 1 := by
    intro h hg
    rw [hclaim h hg]
    exact ⟨rfl, rfl⟩
  unfold awaitDrain
  split
  · rename_i hl
    have hf := hl
    rw [look_eq_ready, decide_eq_true_eq] at hf
    refine ⟨_, .claim hc h0 hf, ?_⟩
    intro sink h hg
    rw [hplay sink h hg, play_awaitDrain (hdrain h hg).1 (hdrain h hg).2, hclaim h hg, hl]
    rfl
  · rename_i hl
    have hf : (g.claim t).foreign ≠ 0 := by simpa using (look_eq_expired.1 hl).1
    -- giving up at once takes the claim back and leaves the gate as it was
    rw [hs.unclaim_claim hc]
    have he : g.foreign = g.entered := by simp [foreign, hc]
    rw [he]
    refine ⟨_, .probe hc h0 hf, ?_⟩
    intro sink h hg
    rw [hplay sink h hg, play_awaitDrain (hdrain h hg).1 (hdrain h hg).2, hclaim h hg, hl,
      hs.unclaim_claim hc, he]
    simp only [Hand.did_did]
    rfl
  · rename_i hl
    have hf : (g.claim t).foreign ≠ 0 := by simpa using (look_eq_park.1 hl).1
    refine ⟨_, .drain hc h0 hf, ?_⟩
    intro sink h hg
    rw [hplay sink h hg, play_awaitDrain (hdrain h hg).1 (hdrain h hg).2, hclaim h hg, hl]
    rfl

/-- A routine that starts like another one plays what that one plays. -/
theorem Plays.of_eq {p q : Locked Outcome} {d : Bool} {hold : Hold} {s : Segment}
    (hq : Plays q t g d hold s)
    (h : ∀ sink (h : Hand), h.crowd.gate = g → p.play sink h = q.play sink h) :
    Plays p t g d hold s := by
  obtain ⟨deeds, hconduct, hplay⟩ := hq
  exact ⟨deeds, hconduct, fun sink hand hg => (h sink hand hg).trans (hplay sink hand hg)⟩

theorem plays_awaitExclusivity (hs : g.Sound) (hc : g.closer ≠ some t) :
    Plays (Routine.awaitExclusivity t deadline now) t g false .close
      (awaitExclusivity t deadline now g) := by
  unfold awaitExclusivity
  split
  · rename_i hl
    have hn : g.closer = none := by rwa [look_eq_ready, Option.isNone_iff_eq_none] at hl
    refine (plays_claim hs hn).of_eq fun sink h hg => ?_
    simp only [Routine.awaitExclusivity, play_bind, play_gate, hg, hl]
  · rename_i hl
    have hn : g.closer ≠ none := by
      simpa [Option.isSome_iff_ne_none] using (look_eq_expired.1 hl).1
    refine ⟨_, .refuse (.exclusivity hn hc), ?_⟩
    intro sink h hg
    simp only [Routine.awaitExclusivity, play_bind, play_gate, hg, hl, play_conclude,
      Hand.did_nil]
    rfl
  · rename_i hl
    refine ⟨_, Conduct.park (w := .exclusivity deadline) rfl hc (look_eq_park.1 hl).1, ?_⟩
    intro sink h hg
    simp only [Routine.awaitExclusivity, play_bind, play_gate, hg, hl, Hand.did_nil]
    rfl

theorem play_deadlineOf : play (Routine.deadlineOf timeout now) sink h =
    match timeout.deadline? now with
    | none => (.error .instantOverflow, h)
    | some deadline => (.ok deadline, h) := by
  rw [Routine.deadlineOf]
  cases timeout.deadline? now <;> rfl

theorem plays_enter (hs : g.Sound) :
    Plays (Routine.enter t timeout now) t g false .entry (enter t timeout now g) := by
  unfold enter
  split
  · rename_i ha
    refine ⟨_, .enter (hs.admits_iff.1 ha), ?_⟩
    intro sink h hg
    simp only [Routine.enter, play_bind, play_gate, hg, ha, if_true, play_raise]
    rfl
  · rename_i ha
    have hno := ha
    rw [hs.admits_iff, not_or, not_or] at hno
    split
    · rename_i hd
      refine ⟨_, .refuse .overflow, ?_⟩
      intro sink h hg
      simp only [Routine.enter, play_bind, play_gate, hg, ha, if_false, play_deadlineOf, hd,
        Hand.did_nil, Bool.false_eq_true]
      rfl
    · rename_i deadline hd
      -- with its deadline the call goes on to wait
      refine Plays.of_eq (plays_awaitEntry (by omega) hno.2.1) fun sink h hg => ?_
      simp only [Routine.enter, play_bind, play_gate, hg, ha, if_false, play_deadlineOf, hd,
        Bool.false_eq_true]

theorem plays_close (hs : g.Sound) :
    Plays (Routine.close t timeout now) t g false .close (close t timeout now g) := by
  unfold close
  split
  · rename_i hc
    refine ⟨_, .nest (hs.isCloser_iff.1 hc), ?_⟩
    intro sink h hg
    simp only [Routine.close, play_bind, play_gate, hg, hc, if_true, play_setClosed, play_conclude]
    subst hg
    rfl
  · rename_i hc
    have hno := hc
    rw [hs.isCloser_iff] at hno
    split
    · rename_i hd
      refine ⟨_, .refuse .overflow, ?_⟩
      intro sink h hg
      simp only [Routine.close, play_bind, play_gate, hg, hc, if_false, play_deadlineOf, hd,
        Hand.did_nil, Bool.false_eq_true]
      rfl
    · rename_i deadline hd
      refine (plays_awaitExclusivity hs hno).of_eq fun sink h hg => ?_
      simp only [Routine.close, play_bind, play_gate, hg, hc, if_false, play_deadlineOf, hd,
        Bool.false_eq_true]

theorem plays_reopen (hs : g.Sound) :
    Plays (Routine.reopen t) t g false .close (reopen t g) := by
  unfold reopen
  split
  · rename_i hc
    have ht := hs.isCloser_iff.1 hc
    have hpos := hs.closed_pos ht
    have hdid : ∀ h : Hand, h.crowd.gate = g →
        (h.did [.closed g.closed (g.closed - 1)]).crowd.gate = g.unnest := by
      rintro h rfl
      rfl
    split
    · rename_i h1
      have h0 : g.unnest.closed = 0 := by simp [unnest, h1]
      refine ⟨_, .reopen ht h1, ?_⟩
      intro sink h hg
      simp only [Routine.reopen, play_bind, play_gate, hg, hc, if_true, play_setClosed, hdid h hg,
        h0, play_setCloser, play_notify, play_conclude, Hand.did_did]
      rw [h1, show g.unnest.closer = some t from ht]
      rfl
    · rename_i h1
      have h0 : g.unnest.closed ≠ 0 := by
        simp only [unnest]
        omega
      refine ⟨_, .unnest ht (by omega), ?_⟩
      intro sink h hg
      simp only [Routine.reopen, play_bind, play_gate, hg, hc, if_true, play_setClosed, hdid h hg,
        h0, if_false]
      rfl
  · rename_i hc
    have hno := hc
    rw [hs.isCloser_iff] at hno
    refine ⟨_, .refuse (.reopen hno), ?_⟩
    intro sink h hg
    simp only [Routine.reopen, play_bind, play_gate, hg, hc, if_false, play_conclude,
      Hand.did_nil, Bool.false_eq_true]
    rfl

/-- **The first stretch of a call plays its segment.** -/
theorem plays_begin (hs : g.Sound) (now : Nat) (r : Request) :
    Plays (Routine.begin t now r) t g false r.hold (begin t now r g) := by
  cases r with
  | enter timeout => exact plays_enter hs
  | exit => exact plays_exit
  | close timeout => exact plays_close hs
  | reopen => exact plays_reopen hs

/-- **So does every later stretch**, if what the thread waits for fits the gate. -/
theorem plays_resume (hs : g.Sound) {w : Waiting} (hw : w.Fits g t) (now : Nat) :
    Plays (Routine.resume t now w) t g w.draining w.hold (resume t now w g) := by
  cases w with
  | entry timeout deadline => exact plays_awaitEntry hw.1 hw.2
  | exclusivity deadline => exact plays_awaitExclusivity hs hw
  | drain deadline => exact plays_awaitDrain hw.1 hw.2

end Routines

/-! ### What the deeds of a segment come to -/

namespace Crowd

variable {t : ThreadId}

/-- A segment that wakes nobody and does not park only changes the gate. -/
theorem absorb_quiet (c : Crowd) (g : Gate) (note : Option Note) (verdict : Verdict) :
    c.absorb t (.done g none note verdict) = { c with gate := g } := by
  simp [absorb]

/-- A segment that does not park changes the gate and then wakes its room. -/
theorem absorb_waking (c : Crowd) (g : Gate) (room : Room) (note : Option Note)
    (verdict : Verdict) :
    c.absorb t (.done g (some room) note verdict) = { c with gate := g }.wake room := by
  simp [absorb, wake]

end Crowd

namespace Conduct

variable {g : Gate} {t : ThreadId} {d : Bool} {hold : Hold} {deeds : List Deed} {s : Segment}

/-- The deeds of a segment go with a move. -/
theorem move (m : Conduct t g d hold deeds s) : Move t g d hold s := by
  cases m with
  | refuse e => exact .refuse e
  | enter ha => exact .enter ha
  | exit h0 hx => exact .exit h0 hx
  | lastExit h0 hn ht hf => exact .lastExit h0 hn ht hf
  | nest hc => exact .nest hc
  | unnest hc h1 => exact .unnest hc h1
  | reopen hc h1 => exact .reopen hc h1
  | claim hc _ hf => exact .claim hc hf
  | probe hc _ hf => exact .probe hc hf
  | drained hc h1 hf => exact .drained hc h1 hf
  | rollBack hc _ hf => exact .rollBack hc hf
  | park hd hw hr => exact .park hd hw hr
  | drain hc _ hf => exact .drain hc hf
  | stay hc h1 hf => exact .stay hc h1 hf

/-- **The note comes after all the deeds**, so none of them is a note. -/
theorem log_not_mem (m : Conduct t g d hold deeds s) (note : Note) : Deed.log note ∉ deeds := by
  cases m <;> simp [raising, lowering, claiming, rollingBack]

/-- **The deeds of a segment come to the segment**: the crowd after them, once the thread has parked
if it does, is the crowd after the segment. -/
theorem leftBy_eq_absorb {c : Crowd} (m : Conduct t c.gate d hold deeds s) :
    (deeds.foldl Crowd.after c).leftBy t s.outcome = c.absorb t s := by
  cases m with
  | refuse e =>
      rw [Crowd.absorb_quiet]
      cases e <;> rfl
  | probe hc h0 _ =>
      -- the claim and its rollback leave the gate as it was
      have hg : (c.gate.claim t).unclaim = c.gate := by simp [Gate.claim, Gate.unclaim, ← hc, ← h0]
      rw [Crowd.absorb_waking, ← hg]
      rfl
  -- a thread that parks has done its deeds before, and wakes nobody
  | park _ _ _ => rfl
  | drain _ _ _ => rfl
  | stay _ _ _ => rfl
  | _ =>
      simp only [Crowd.absorb_quiet, Crowd.absorb_waking]
      rfl

end Conduct

end ReentrantGate.Gate
