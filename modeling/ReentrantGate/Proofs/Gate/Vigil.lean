/-
**A wait never answers on stale data.**

The loop of a wait is up against everybody else: whenever it parks, others may do to the state what
they like, and any time may pass.  What it promises all the same is said in one structure, and kept
by each turn of the loop: a turn that answers does so on what it has just found, and a turn that
parks adds one stay to a loop that keeps the promise from the next scene on.

The calls of a gate make no other waits.  Segment by segment, as they run, an entry and a close do
what they do if each of their waits is one call of the loop.

Main definitions:

* `Vigil.Honest` — what a wait promises.

Main results:

* `keepVigil_honest` — **the loop keeps the promise**;
* `Gate.attend_wait` — the segments of a wait make up the loop;
* `Gate.wait_never_answers_on_stale_data` — the loop keeps the promise, and the calls go by it.
-/

import Mathlib.Data.List.Infix
import ReentrantGate.Gate.Vigil

set_option relaxedAutoImplicit false
set_option autoImplicit false

namespace ReentrantGate

/-! ### The loop -/

section Loop

variable {σ : Type} {ready : σ → Bool} {deadline : Deadline} {x : Scene σ}
  {interludes : List (Interlude σ)} {v : Vigil σ} {i : Interlude σ} {remaining : Option Nat}

/-- **What a wait promises** that starts at the scene `x`, whatever comes in between. -/
structure Vigil.Honest (ready : σ → Bool) (deadline : Deadline) (x : Scene σ)
    (interludes : List (Interlude σ)) (v : Vigil σ) : Prop where
  /-- Every interlude has come or is still to come. -/
  comes : v.past ++ v.later = interludes
  /-- The state in the end is what others have made of the one at the start; the wait itself changes
  nothing. -/
  untouched : v.scene = v.past.foldl Scene.after x
  /-- Success is told only while the condition holds, in the very state that goes with it. -/
  granted : v.answer = some true → ready v.scene.state = true
  /-- Failure is told only while it does not hold, at or past the deadline. -/
  denied : v.answer = some false →
    ready v.scene.state = false ∧ ∃ d, deadline = some d ∧ d ≤ v.scene.clock
  /-- Without a deadline there is no failure. -/
  patient : deadline = none → v.answer ≠ some false
  /-- The wait is over by the first look that finds the condition true, and if it takes that look it
  succeeds, even past the deadline. -/
  prompt : ∀ before, before <+: interludes → ready (before.foldl Scene.after x).state = true →
    v.past <+: before ∧ (v.past = before → v.answer = some true)
  /-- It has parked before each interlude that has come, and once more if there is no answer. -/
  length : v.stays.length = v.past.length + v.answer.isNone.toNat
  /-- Where it parks it has looked at what others have left, at the start at what it was given. -/
  looked : ∀ k s, v.stays[k]? = some s → s.scene = (v.past.take k).foldl Scene.after x
  /-- It parks only while the condition does not hold, and either without end, or with a positive
  time that is left until the deadline. -/
  parks : ∀ s ∈ v.stays, ready s.scene.state = false ∧
    (deadline = none ∧ s.remaining = none ∨
      ∃ left, s.remaining = some left ∧ 0 < left ∧ deadline = some (s.scene.clock + left))
  /-- It has no answer only if nothing more comes. -/
  pending : v.answer = none → v.later = []
  /-- The answer is decided by what there is to be found, and not by what woke the thread. -/
  decided : v.answer.map (v.scene.state, ·) = watch ready deadline (x.found interludes)

namespace Vigil.Honest

/-- A look that finds the condition true ends the wait with success. -/
theorem of_ready (h : look (ready x.state) deadline x.clock = .ready) :
    Honest ready deadline x interludes ⟨[], [], x, some true, interludes⟩ where
  comes := rfl
  untouched := rfl
  granted _ := look_eq_ready.1 h
  denied ha := by simp at ha
  patient _ := by simp
  prompt before _ _ := ⟨List.nil_prefix, fun _ => rfl⟩
  length := rfl
  looked k s hs := by simp at hs
  parks s hs := by simp at hs
  pending ha := by simp at ha
  decided := by cases interludes <;> simp [Scene.found, watch, h]

/-- A look that finds it false when the deadline has come ends the wait with failure. -/
theorem of_expired (h : look (ready x.state) deadline x.clock = .expired) :
    Honest ready deadline x interludes ⟨[], [], x, some false, interludes⟩ where
  comes := rfl
  untouched := rfl
  granted ha := by simp at ha
  denied _ := look_eq_expired.1 h
  patient := by
    rintro rfl
    obtain ⟨-, d, hd, -⟩ := look_eq_expired.1 h
    cases hd
  prompt before _ hready := by
    refine ⟨List.nil_prefix, ?_⟩
    rintro rfl
    exact absurd hready (by simpa using (look_eq_expired.1 h).1)
  length := rfl
  looked k s hs := by simp at hs
  parks s hs := by simp at hs
  pending ha := by simp at ha
  decided := by cases interludes <;> simp [Scene.found, watch, h]

/-- What a stay is like that follows a look. -/
theorem stay_of_park (h : look (ready x.state) deadline x.clock = .park remaining) :
    ready x.state = false ∧
      (deadline = none ∧ remaining = none ∨
        ∃ left, remaining = some left ∧ 0 < left ∧ deadline = some (x.clock + left)) := by
  obtain ⟨hfails, hlt, rfl⟩ := look_eq_park.1 h
  refine ⟨hfails, ?_⟩
  cases deadline with
  | none => exact .inl ⟨rfl, rfl⟩
  | some d =>
      have hd := hlt d rfl
      refine .inr ⟨d - x.clock, rfl, by omega, ?_⟩
      congr 1
      omega

/-- A thread that parks stays parked if nothing more comes. -/
theorem of_parked (h : look (ready x.state) deadline x.clock = .park remaining) :
    Honest ready deadline x [] ⟨[⟨x, remaining⟩], [], x, none, []⟩ where
  comes := rfl
  untouched := rfl
  granted ha := by simp at ha
  denied ha := by simp at ha
  patient _ := by simp
  prompt before hbefore hready := by
    rw [List.prefix_nil] at hbefore
    subst hbefore
    exact absurd hready (by simpa using (stay_of_park h).1)
  length := rfl
  looked k s hs := by
    cases k with
    | zero =>
        cases hs
        rfl
    | succ k => simp at hs
  parks s hs := by
    rw [List.mem_singleton] at hs
    subst hs
    exact stay_of_park h
  pending _ := rfl
  decided := by simp [Scene.found, watch, h]

/-- **One turn of the loop**: a thread that parks, and keeps the promise from the next scene on,
keeps it from here. -/
theorem stayed (h : look (ready x.state) deadline x.clock = .park remaining)
    (hv : v.Honest ready deadline (x.after i) interludes) :
    (v.stayed ⟨x, remaining⟩ i).Honest ready deadline x (i :: interludes) where
  comes := congrArg (i :: ·) hv.comes
  untouched := hv.untouched
  granted := hv.granted
  denied := hv.denied
  patient := hv.patient
  prompt before hbefore hready := by
    -- the look that comes before the turn finds the condition false, so `before` is not empty
    rcases List.prefix_cons_iff.1 hbefore with rfl | ⟨rest, rfl, hrest⟩
    · exact absurd hready (by simpa using (stay_of_park h).1)
    · obtain ⟨hpast, hanswer⟩ := hv.prompt rest hrest hready
      refine ⟨List.cons_prefix_cons.2 ⟨rfl, hpast⟩, fun he => hanswer ?_⟩
      exact (List.cons.inj he).2
  length := by
    have hlength := hv.length
    simp only [Vigil.stayed, List.length_cons]
    omega
  looked k s hs := by
    cases k with
    | zero =>
        cases hs
        rfl
    | succ k => exact hv.looked k s hs
  parks s hs := by
    rcases List.mem_cons.1 hs with rfl | hs
    · exact stay_of_park h
    · exact hv.parks s hs
  pending := hv.pending
  decided := by simpa [Scene.found, watch, h, Vigil.stayed] using hv.decided

end Vigil.Honest

/-- **The loop keeps its promise**, by induction on the interludes. -/
theorem keepVigil_honest (ready : σ → Bool) (deadline : Deadline) (x : Scene σ)
    (interludes : List (Interlude σ)) :
    (keepVigil ready deadline x interludes).Honest ready deadline x interludes := by
  fun_induction keepVigil ready deadline x interludes with
  | case1 interludes x h => exact .of_ready h
  | case2 interludes x h => exact .of_expired h
  | case3 x remaining h => exact .of_parked h
  | case4 x remaining h i later ih => exact .stayed h ih

end Loop

namespace Gate

/-! ### The waits of calls -/

variable {t : ThreadId} {w : Waiting} {deadline : Deadline} {timeout : Timeout} {x : Scene Gate}
  {interludes : List (Interlude Gate)}

theorem attend_done (g : Gate) (room : Option Room) (note : Option Note) (verdict : Verdict)
    (now : Nat) :
    attend t (.done g room note verdict) now interludes =
      ⟨.done g room note verdict, now, interludes⟩ := by
  cases interludes <;> rfl

theorem attend_park (i : Interlude Gate) :
    attend t (.park x.state w) x.clock (i :: interludes) =
      attend t (resume t (x.after i).clock w (x.after i).state) (x.after i).clock interludes := rfl

theorem goOn_congr {v : Vigil Gate}
    {granted granted' denied denied' : Scene Gate → List (Interlude Gate) → Progress}
    (hg : ∀ y later, granted y later = granted' y later)
    (hd : ∀ y later, denied y later = denied' y later) :
    goOn w v granted denied = goOn w v granted' denied' := by
  rw [funext₂ hg, funext₂ hd]

/-- **The segments of a wait make up the loop**: a wait whose segments go by a look, and leave the
gate as it is when they park, is one call of the loop. -/
theorem attend_wait (ready : Gate → Bool) (granted denied : Scene Gate → Segment)
    (h : ∀ x : Scene Gate, resume t x.clock w x.state =
      match look (ready x.state) deadline x.clock with
      | .ready => granted x
      | .expired => denied x
      | .park _ => .park x.state w) :
    attend t (resume t x.clock w x.state) x.clock interludes =
      goOn w (keepVigil ready deadline x interludes)
        (fun y => attend t (granted y) y.clock) (fun y => attend t (denied y) y.clock) := by
  fun_induction keepVigil ready deadline x interludes with
  | case1 interludes x hl =>
      rw [h x, hl]
      rfl
  | case2 interludes x hl =>
      rw [h x, hl]
      rfl
  | case3 x remaining hl =>
      rw [h x, hl]
      rfl
  | case4 x remaining hl i later ih =>
      rw [h x, hl, attend_park]
      exact ih

/-- The wait of a fresh entry. -/
theorem attend_entry :
    attend t (resume t x.clock (.entry timeout deadline) x.state) x.clock interludes =
      goOn (.entry timeout deadline) (keepVigil (·.closer.isNone) deadline x interludes)
        (fun y => concludeAt none none .granted (y.map (·.raise t)))
        (concludeAt none (some (.entryTimedOut timeout)) .timedOut) :=
  (attend_wait (·.closer.isNone) (fun y => .done (y.state.raise t) none none .granted)
    (fun y => .done y.state none (some (.entryTimedOut timeout)) .timedOut) fun _ => rfl).trans
    (goOn_congr (fun _ _ => attend_done ..) fun _ _ => attend_done ..)

/-- The second wait of a close. -/
theorem attend_drain :
    attend t (resume t x.clock (.drain deadline) x.state) x.clock interludes =
      goOn (.drain deadline) (keepVigil (·.foreign = 0) deadline x interludes)
        (fun y => concludeAt none (some (.closed (y.state.depth t))) .granted y)
        (fun y => concludeAt (some .opened) (some (.rolledBack y.state.unclaim.foreign)) .timedOut
          (y.map unclaim)) :=
  (attend_wait (·.foreign = 0)
    (fun y => .done y.state none (some (.closed (y.state.depth t))) .granted)
    (fun y => .done y.state.unclaim (some .opened) (some (.rolledBack y.state.unclaim.foreign))
      .timedOut) fun _ => rfl).trans
    (goOn_congr (fun _ _ => attend_done ..) fun _ _ => attend_done ..)

/-- The first wait of a close; the second one starts in the same segment, on the claimed gate. -/
theorem attend_exclusivity :
    attend t (resume t x.clock (.exclusivity deadline) x.state) x.clock interludes =
      goOn (.exclusivity deadline) (keepVigil (·.closer.isNone) deadline x interludes)
        (fun y later =>
          goOn (.drain deadline) (keepVigil (·.foreign = 0) deadline (y.map (·.claim t)) later)
            (fun z => concludeAt none (some (.closed (z.state.depth t))) .granted z)
            (fun z =>
              concludeAt (some .opened) (some (.rolledBack z.state.unclaim.foreign)) .timedOut
                (z.map unclaim)))
        (concludeAt none (some .exclusivityTimedOut) .timedOut) :=
  (attend_wait (·.closer.isNone)
    (fun y => resume t y.clock (.drain deadline) (y.state.claim t))
    (fun y => .done y.state none (some .exclusivityTimedOut) .timedOut) fun _ => rfl).trans
    (goOn_congr (fun y _ => attend_drain (x := y.map (·.claim t))) fun _ _ => attend_done ..)

/-- **An entry makes one wait.** -/
theorem attend_begin_enter :
    attend t (begin t x.clock (.enter timeout) x.state) x.clock interludes =
      enterBy t timeout x interludes := by
  simp only [begin, enter, enterBy]
  split
  · exact attend_done ..
  · cases timeout.deadline? x.clock with
    | none => exact attend_done ..
    | some deadline => exact attend_entry

/-- **A close makes two waits**, with one deadline. -/
theorem attend_begin_close :
    attend t (begin t x.clock (.close timeout) x.state) x.clock interludes =
      closeBy t timeout x interludes := by
  simp only [begin, close, closeBy]
  split
  · exact attend_done ..
  · cases timeout.deadline? x.clock with
    | none => exact attend_done ..
    | some deadline => exact attend_exclusivity

/-- **A wait never answers on stale data.**  For every condition, deadline and scene at the start,
and whatever interludes come, the loop of a wait keeps its promise.  Segment by segment an entry and
a close of a gate do what they do if each of their waits is a call of this loop. -/
theorem wait_never_answers_on_stale_data {σ : Type} (ready : σ → Bool) (deadline : Deadline)
    (x : Scene σ) (interludes : List (Interlude σ)) (t : ThreadId) (timeout : Timeout)
    (y : Scene Gate) (others : List (Interlude Gate)) :
    (keepVigil ready deadline x interludes).Honest ready deadline x interludes ∧
      attend t (begin t y.clock (.enter timeout) y.state) y.clock others =
        enterBy t timeout y others ∧
      attend t (begin t y.clock (.close timeout) y.state) y.clock others =
        closeBy t timeout y others :=
  ⟨keepVigil_honest ready deadline x interludes, attend_begin_enter, attend_begin_close⟩

/-- A thread that is woken past its deadline looks before it gives up. -/
example : (keepVigil (· = 0) (some 10) ⟨2, 0⟩
    [⟨.spurious, 3, id⟩, ⟨.timedOut, 9, fun _ => 0⟩]).answer = some true := by decide

end Gate

end ReentrantGate
