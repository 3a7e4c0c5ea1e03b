/-
**Runs in which a worker dies.**

While the others stand still, one worker may take several steps.  The first worker of a kind finds a
fresh gate, which lets it in at once, so it comes to whatever kills it: an enterer to a depth that
it cannot draw, to work that it cannot draw, or, after as many entries as it can count, to one more;
a closer to work that it cannot draw.

Main definitions:

* `Stress.Worker.Takes`, `Stress.Arena.placed` — steps of one worker while nobody else takes one;
* `Stress.Shared.enteredBy`, `Stress.Shared.closedBy` — what is shared once a worker is alone in the
  gate, or has closed it.

Main results:

* `Stress.Arena.Reachable.takes` — **one worker may take several steps in a row**;
* `Stress.takes_crash` — an enterer dies outside;
* `Stress.takes_collapse`, `Stress.takes_overrun` — **an enterer dies inside**, with one entry or
  with one more than it can count;
* `Stress.takes_faint` — a closer dies while it has the close.
-/

import ReentrantGate.Proofs.Stress.Crew

set_option relaxedAutoImplicit false
set_option autoImplicit false

namespace ReentrantGate.Stress

open Gate Relation

variable {s : Settings} {p : Plan}

/-! ### Steps of one worker -/

/-- A worker takes one step, whatever it draws if it draws a number. -/
def Worker.Takes (p : Plan) (x y : Shared × Worker) : Prop :=
  ∃ draw, x.2.step p draw x.1 = .moved y.1 y.2

namespace Arena

variable {a : Arena} {i : Nat} {w : Worker} {x y : Shared × Worker}

/-- The run with one worker, and what is shared, as they are somewhere else. -/
def placed (a : Arena) (i : Nat) (x : Shared × Worker) : Arena :=
  { a with shared := x.1, workers := a.workers.set i x.2 }

theorem placed_self (hi : a.workers[i]? = some w) : a.placed i (a.shared, w) = a := by
  obtain ⟨_, hget⟩ := List.getElem?_eq_some_iff.1 hi
  simp only [placed, ← hget, List.set_getElem_self]

theorem getElem?_placed (hi : a.workers[i]? = some w) : (a.placed i x).workers[i]? = some x.2 :=
  List.getElem?_set_self (List.getElem?_eq_some_iff.1 hi).1

/-- A step of the worker leads from one of these runs to another. -/
theorem act_placed (hi : a.workers[i]? = some w) (hs : Worker.Takes p x y) :
    ∃ draw, (a.placed i x).act p (.worker i draw) = some (a.placed i y) := by
  obtain ⟨draw, hmoved⟩ := hs
  have hmoved : x.2.step p draw (a.placed i x).shared = .moved y.1 y.2 := hmoved
  refine ⟨draw, ?_⟩
  simp only [act, getElem?_placed hi, hmoved]
  simp only [placed, List.set_set]

/-- **A worker may take several steps while nobody else takes one.** -/
theorem Reachable.takes (h : Reachable s p a) (hi : a.workers[i]? = some w)
    (ht : ReflTransGen (Worker.Takes p) (a.shared, w) x) : Reachable s p (a.placed i x) := by
  induction ht with
  | refl =>
      rw [placed_self hi]
      exact h
  | tail _ hs ih =>
      obtain ⟨draw, ha⟩ := act_placed hi hs
      exact ih.act ha

end Arena

/-! ### A worker at a fresh gate -/

namespace Shared

/-- What is shared while one enterer is in the gate, with `n` entries. -/
def enteredBy (t : ThreadId) (n handles : Nat) : Shared :=
  { handles := handles, crowd := { gate := ⟨n, 0, none, [(t, n)]⟩ } }

/-- What is shared once the first closer has closed. -/
def closedBy (t : ThreadId) (handles : Nat) : Shared :=
  { handles := handles, crowd := { gate := claim {} t }, notes := [.closed 0] }

theorem depth_enteredBy (t : ThreadId) (n handles : Nat) :
    (enteredBy t n handles).crowd.gate.depth t = n := by
  simp [enteredBy, depth, Depths.of]

end Shared

open Worker Shared

variable (t : ThreadId) (n handles : Nat)

/-- An enterer that cannot draw a depth dies before it enters. -/
theorem takes_crash (hb : hasBound p.depth = false) :
    Takes p ({ handles := handles }, ⟨t, false, n + 1, .poll⟩)
      ({ handles := handles }, ⟨t, false, n, .ending true⟩) :=
  ⟨0, by simp [step, hb]⟩

/-- An enterer that has drawn a depth enters a fresh gate. -/
theorem takes_arrived (draw : Nat) (hb : hasBound p.depth = true) :
    ReflTransGen (Takes p) ({ handles := handles }, ⟨t, false, n + 1, .poll⟩)
      ((enteredBy t 1 handles).arrive, ⟨t, false, n, .nesting (drawDepth p draw - 1) 1⟩) := by
  have hpoll : Takes p ({ handles := handles }, ⟨t, false, n + 1, .poll⟩)
      ({ handles := handles }, ⟨t, false, n, .entering (drawDepth p draw)⟩) :=
    ⟨draw, by simp [step, hb]⟩
  have hentering : Takes p ({ handles := handles }, ⟨t, false, n, .entering (drawDepth p draw)⟩)
      (enteredBy t 1 handles, ⟨t, false, n, .arrived (drawDepth p draw)⟩) := ⟨0, rfl⟩
  have harrived : Takes p (enteredBy t 1 handles, ⟨t, false, n, .arrived (drawDepth p draw)⟩)
      ((enteredBy t 1 handles).arrive, ⟨t, false, n, .nesting (drawDepth p draw - 1) 1⟩) := ⟨0, rfl⟩
  exact .head hpoll (.head hentering (.single harrived))

/-- An enterer that cannot draw its work dies inside, after one entry. -/
theorem takes_collapse (hd : hasBound p.depth = true) (hb : hasBound p.spins = false) :
    ReflTransGen (Takes p) ({ handles := handles }, ⟨t, false, n + 1, .poll⟩)
      ((enteredBy t 1 handles).arrive, ⟨t, false, n, .ending true⟩) := by
  have hnesting : Takes p ((enteredBy t 1 handles).arrive, ⟨t, false, n, .nesting 0 1⟩)
      ((enteredBy t 1 handles).arrive, ⟨t, false, n, .working 1⟩) := ⟨0, rfl⟩
  have hworking : Takes p ((enteredBy t 1 handles).arrive, ⟨t, false, n, .working 1⟩)
      ((enteredBy t 1 handles).arrive, ⟨t, false, n, .ending true⟩) :=
    ⟨0, by simp [step, goto, hb]⟩
  have hleast : drawDepth p 0 = 1 := by
    unfold drawDepth
    omega
  have harrived := takes_arrived t n handles 0 hd
  rw [hleast] at harrived
  exact harrived.trans (.head hnesting (.single hworking))

/-- An enterer that is alone in the gate is granted a further entry. -/
theorem takes_nested (more held : Nat) :
    Takes p ((enteredBy t held handles).arrive, ⟨t, false, n, .nesting (more + 1) held⟩)
      ((enteredBy t (held + 1) handles).arrive, ⟨t, false, n, .nested more held⟩) := by
  have hact : (enteredBy t held handles).crowd.act (.call t (.enter p.timeout) false) =
      some ((enteredBy t (held + 1) handles).crowd, some ⟨t, .entry, .granted, none, false⟩) := by
    simp [enteredBy, Crowd.act, Crowd.idle, begin, enter, admits, raise, Depths.raise,
      Crowd.absorb, Crowd.occurrence?, Request.hold]
  have hwoken : (enteredBy t held handles).crowd.isWoken t = false := rfl
  refine ⟨0, ?_⟩
  simp only [step, ask, Shared.arrive, hwoken, Bool.false_eq_true, if_false, hact]
  rfl

/-- An enterer that is alone in the gate is granted as many further entries as it can count. -/
theorem takes_nests (more held k : Nat) (hcount : held + k ≤ maxHeld) :
    ReflTransGen (Takes p)
      ((enteredBy t held handles).arrive, ⟨t, false, n, .nesting (more + k) held⟩)
      ((enteredBy t (held + k) handles).arrive, ⟨t, false, n, .nesting more (held + k)⟩) := by
  induction k generalizing more with
  | zero => exact .refl
  | succ k ih =>
      have hnested := takes_nested (p := p) t n handles more (held + k)
      rw [Stage.nested_of_lt (by omega)] at hnested
      have hmore : more + (k + 1) = more + 1 + k := by omega
      rw [hmore]
      exact (ih (more + 1) (by omega)).tail hnested

/-- An enterer that has drawn more than it can count dies inside, with one entry more than that. -/
theorem takes_overrun (hb : hasBound p.depth = true) (hdeep : maxHeld < p.depth) :
    ReflTransGen (Takes p) ({ handles := handles }, ⟨t, false, n + 1, .poll⟩)
      ((enteredBy t (maxHeld + 1) handles).arrive, ⟨t, false, n, .ending true⟩) := by
  obtain ⟨k, hk⟩ : ∃ k, maxHeld = 1 + k := ⟨maxHeld - 1, by decide⟩
  obtain ⟨m, hm⟩ : ∃ m, p.depth = m + 1 + maxHeld := ⟨p.depth - 1 - maxHeld, by omega⟩
  -- it draws the largest depth
  have hdraw : drawDepth p p.depth - 1 = m + 1 + k := by
    unfold drawDepth
    omega
  have harrived := takes_arrived t n handles p.depth hb
  have hnests := takes_nests (p := p) t n handles (m + 1) 1 k hk.ge
  have hnested := takes_nested (p := p) t n handles m maxHeld
  rw [hdraw] at harrived
  rw [← hk] at hnests
  rw [Stage.nested_of_not_lt (Nat.lt_irrefl _)] at hnested
  exact (harrived.trans hnests).tail hnested

/-! ### A closer at a fresh gate -/

/-- A closer that can wait is granted the close of a fresh gate. -/
theorem close_fresh {timeout : Timeout} {deadline : Option Nat}
    (hd : timeout.deadline? 0 = some deadline) :
    Gate.close t timeout 0 {} = .done (claim {} t) none (some (.closed 0)) .granted := by
  have hdepth : Depths.of t [] = 0 := rfl
  simp [Gate.close, hd, isCloser, awaitExclusivity, awaitDrain, look, claim, foreign, depth, hdepth]

/-- A closer that cannot draw its work dies while it has the close. -/
theorem takes_faint {deadline : Option Nat} (hd : p.timeout.deadline? 0 = some deadline)
    (hb : hasBound p.spins = false) :
    ReflTransGen (Takes p) ({ handles := handles }, ⟨t, true, n + 1, .poll⟩)
      (closedBy t handles, ⟨t, true, n, .opening true⟩) := by
  have hact : (({} : Crowd)).act (.call t (.close p.timeout) false) =
      some ((closedBy t handles).crowd,
        some ⟨t, .close, .granted, some (.closed 0), false⟩) := by
    simp [closedBy, Crowd.act, Crowd.idle, begin, close_fresh t hd, Crowd.absorb, Crowd.occurrence?,
      Request.hold]
  have hpoll : Takes p ({ handles := handles }, ⟨t, true, n + 1, .poll⟩)
      ({ handles := handles }, ⟨t, true, n, .closing⟩) := ⟨0, rfl⟩
  have hclosing : Takes p ({ handles := handles }, ⟨t, true, n, .closing⟩)
      (closedBy t handles, ⟨t, true, n, .checking⟩) := by
    refine ⟨0, ?_⟩
    simp only [step, ask, Crowd.isWoken, List.any_nil, Bool.false_eq_true, if_false, hact]
    rfl
  have hchecking : Takes p (closedBy t handles, ⟨t, true, n, .checking⟩)
      (closedBy t handles, ⟨t, true, n, .holding⟩) := ⟨0, rfl⟩
  have hholding : Takes p (closedBy t handles, ⟨t, true, n, .holding⟩)
      (closedBy t handles, ⟨t, true, n, .opening true⟩) := ⟨0, by simp [step, goto, hb]⟩
  exact .head hpoll (.head hclosing (.head hchecking (.single hholding)))

end ReentrantGate.Stress
