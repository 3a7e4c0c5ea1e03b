/-
**An event is a binary semaphore.**

What has happened at an event determines its flag: it is set exactly if a signal came after the
latest wait that succeeded.  Every wait that succeeds has a signal of its own, since between two of
them, and before the first, there is one.  So the signals can be accounted for: each was taken by a
wait, is still there in the flag, or found the flag set already and was lost in it.

Main definitions:

* `Event.flagAfter` — the flag that a history leaves;
* `Event.signals`, `Event.successes`, `Event.repeats` — counts over a history;
* `Event.Occurrence.Fits` — what an occurrence says about the flag before and after it.

Main results:

* `Event.flagAfter_iff` — a flag is set if a signal came after the latest success;
* `Event.Crowd.event_eq_flagAfter` — **the flag is the one that the history leaves**;
* `Event.Crowd.exists_signal_of_success` — **every success has a signal of its own**;
* `Event.Crowd.signals_eq` — **the signals are accounted for**;
* `Event.Household.binary_semaphore` — all of it, with the handles around.
-/

import ReentrantGate.Proofs.Event.Signals

set_option relaxedAutoImplicit false
set_option autoImplicit false

namespace ReentrantGate.Event

/-! ### Histories -/

namespace Occurrence

/-- Whether something that is over was a signal. -/
def isSignal : Occurrence → Bool
  | signalled _ => true
  | _ => false

/-- Whether something that is over was a wait that succeeded. -/
def isSuccess : Occurrence → Bool
  | succeeded _ => true
  | _ => false

/-- What an occurrence says about the flag before and after it: a signal sets the flag and reports
how it found it, a success clears a flag that was set, and whoever gives up, or has a deadline that
does not exist, leaves the flag as it is. -/
def Fits (before after : Event) : Occurrence → Prop
  | signalled wasSet => before.set = wasSet ∧ after.set = true
  | succeeded _ => before.set = true ∧ after.set = false
  | gaveUp _ => after = before
  | overflowed _ => after = before

end Occurrence

/-- The flag that a history leaves, from the flag before it. -/
def flagAfter (set : Bool) : List Occurrence → Bool
  | [] => set
  | .signalled _ :: later => flagAfter true later
  | .succeeded _ :: later => flagAfter false later
  | _ :: later => flagAfter set later

/-- The number of signals. -/
def signals (history : List Occurrence) : Nat := history.countP Occurrence.isSignal

/-- The number of waits that succeeded. -/
def successes (history : List Occurrence) : Nat := history.countP Occurrence.isSuccess

/-- The number of signals that found the flag set already. -/
def repeats (history : List Occurrence) : Nat := history.count (.signalled true)

theorem flagAfter_append (set : Bool) (before after : List Occurrence) :
    flagAfter set (before ++ after) = flagAfter (flagAfter set before) after := by
  induction before generalizing set with
  | nil => rfl
  | cons o before ih =>
      cases o with
      | signalled found => exact ih true
      | succeeded t => exact ih false
      | gaveUp t => exact ih set
      | overflowed t => exact ih set

/-- Without a success a set flag stays set. -/
theorem flagAfter_true {history : List Occurrence} (h : ∀ o ∈ history, o.isSuccess = false) :
    flagAfter true history = true := by
  induction history with
  | nil => rfl
  | cons o history ih =>
      have htail := ih fun x hx => h x (List.mem_cons_of_mem _ hx)
      cases o with
      | succeeded t =>
          have ho := h _ List.mem_cons_self
          cases ho
      | signalled found => exact htail
      | gaveUp t => exact htail
      | overflowed t => exact htail

/-- **The flag is set exactly if a signal came after the latest success**, or after the start if
there was none. -/
theorem flagAfter_iff {history : List Occurrence} :
    flagAfter false history = true ↔ ∃ before found after,
      history = before ++ .signalled found :: after ∧ ∀ o ∈ after, o.isSuccess = false := by
  constructor
  · intro h
    induction history using List.reverseRecOn with
    | nil => cases h
    | append_singleton history o ih =>
        rw [flagAfter_append] at h
        -- unless the last thing is a signal, the one that counts came before it
        have keep : o.isSuccess = false → flagAfter false history = true →
            ∃ before found after, history ++ [o] = before ++ .signalled found :: after ∧
              ∀ x ∈ after, x.isSuccess = false := by
          intro ho hset
          obtain ⟨before, found, after, rfl, hafter⟩ := ih hset
          refine ⟨before, found, after ++ [o], by simp, fun x hx => ?_⟩
          rcases List.mem_append.1 hx with hx | hx
          · exact hafter x hx
          · rw [List.mem_singleton.1 hx]
            exact ho
        cases o with
        | signalled found => exact ⟨history, found, [], rfl, by simp⟩
        | succeeded t => cases h
        | gaveUp t => exact keep rfl h
        | overflowed t => exact keep rfl h
  · rintro ⟨before, found, after, rfl, hafter⟩
    rw [flagAfter_append]
    exact flagAfter_true hafter

/-! ### Runs of the crowd -/

namespace Crowd

variable {c c' : Crowd} {a : Action} {as : List Action} {history : List Occurrence}

/-- What is over fits the flag before and after. -/
theorem Step.fits {o : Occurrence} (hs : Step c c' (some o)) : o.Fits c.event c'.event := by
  cases hs with
  | signal pick => exact ⟨rfl, rfl⟩
  | succeed hset => exact ⟨hset, rfl⟩
  | giveUp _ => rfl
  | overflow => rfl

/-- As long as nothing is over the flag stays as it is. -/
theorem Step.event_eq (hs : Step c c' none) : c'.event = c.event := by
  cases hs <;> rfl

/-- An action changes the flag as its occurrence says. -/
theorem Step.flagAfter_eq {o : Option Occurrence} (hs : Step c c' o) :
    c'.event.set = flagAfter c.event.set o.toList := by
  cases o with
  | none => rw [hs.event_eq, Option.toList_none, flagAfter]
  | some o =>
      have hf := hs.fits
      cases o with
      | signalled found => exact hf.2
      | succeeded t => exact hf.2
      | gaveUp t => exact congrArg Event.set hf
      | overflowed t => exact congrArg Event.set hf

/-- **The flag is the one that the history leaves.** -/
theorem event_eq_flagAfter (h : run {} as = some (c, history)) :
    c.event.set = flagAfter false history := by
  refine run_induction (P := fun c history => c.event.set = flagAfter false history) rfl ?_ h
  intro c history c' o ih hs
  rw [hs.flagAfter_eq, ih, flagAfter_append]

/-- **Every success has a signal of its own**: one that came after the success before it. -/
theorem exists_signal_of_success (h : run {} as = some (c, history))
    {before after : List Occurrence} {t : ThreadId}
    (hh : history = before ++ .succeeded t :: after) :
    flagAfter false before = true := by
  refine run_induction (P := fun c history => c.event.set = flagAfter false history ∧
    ∀ before t after, history = before ++ .succeeded t :: after →
      flagAfter false before = true) ⟨rfl, by simp⟩ ?_ h |>.2 before t after hh
  rintro c history c' o ⟨hset, ih⟩ hs
  refine ⟨by rw [hs.flagAfter_eq, hset, flagAfter_append], fun before t after hsplit => ?_⟩
  cases o with
  | none => exact ih before t after (by simpa using hsplit)
  | some o =>
      -- either the success is the last thing, or it was there before
      rcases List.eq_nil_or_concat after with rfl | ⟨rest, x, rfl⟩
      · obtain ⟨rfl, ho⟩ := List.append_inj' hsplit rfl
        obtain rfl : o = .succeeded t := by simpa using ho
        rw [← hset]
        exact hs.fits.1
      · have hinit : history = before ++ .succeeded t :: rest := by
          have hlast : history ++ [o] = (before ++ .succeeded t :: rest) ++ [x] := by
            simpa using hsplit
          exact (List.append_inj' hlast rfl).1
        exact ih before t rest hinit

/-- **The signals are accounted for**: each was taken by a wait that succeeded, is in the flag, or
found the flag set already. -/
theorem signals_eq (h : run {} as = some (c, history)) :
    signals history = successes history + (if c.event.set then 1 else 0) + repeats history := by
  refine run_induction (P := fun c history => signals history =
    successes history + (if c.event.set then 1 else 0) + repeats history) rfl ?_ h
  intro c history c' o ih hs
  simp only [signals, successes, repeats, List.countP_append, List.count_append] at ih ⊢
  cases o with
  | none => simpa [hs.event_eq] using ih
  | some o =>
      have hf := hs.fits
      cases o with
      | signalled found =>
          obtain ⟨hbefore, hafter⟩ := hf
          rw [hbefore] at ih
          cases found <;> simp [hafter, Occurrence.isSignal, Occurrence.isSuccess] at ih ⊢ <;> omega
      | succeeded t =>
          obtain ⟨hbefore, hafter⟩ := hf
          simp [hbefore, hafter, Occurrence.isSignal, Occurrence.isSuccess] at ih ⊢
          omega
      | gaveUp t =>
          have heq : c'.event = c.event := hf
          simpa [heq, Occurrence.isSignal, Occurrence.isSuccess] using ih
      | overflowed t =>
          have heq : c'.event = c.event := hf
          simpa [heq, Occurrence.isSignal, Occurrence.isSuccess] using ih

end Crowd

/-! ### A binary semaphore -/

/-- **An event is a binary semaphore.**  After every run, with operations on handles among all that
can happen, the flag is set exactly if a signal came after the latest wait that succeeded; before
each success there is a signal with no other success in between, so no two waits succeed on the same
one; and the signals are as many as the successes, the flag, and the signals that found the flag
set.  Whatever is over next, a signal sets the flag, a success clears a flag that was set, and a
wait that gives up or whose deadline does not exist leaves the flag as it is. -/
theorem Household.binary_semaphore {ds : List Deed} {h : Household} {history : List Occurrence}
    (hr : run {} ds = some (h, history)) :
    (h.crowd.event.set = true ↔ ∃ before found after,
        history = before ++ .signalled found :: after ∧ ∀ o ∈ after, o.isSuccess = false) ∧
      (∀ before t after, history = before ++ .succeeded t :: after → ∃ earlier found later,
        before = earlier ++ .signalled found :: later ∧ ∀ o ∈ later, o.isSuccess = false) ∧
      signals history =
        successes history + (if h.crowd.event.set then 1 else 0) + repeats history ∧
      ∀ d h' o, h.act d = some (h', some o) → o.Fits h.crowd.event h'.crowd.event := by
  obtain ⟨as, has⟩ := run_crowd hr
  refine ⟨?_, fun before t after hh => ?_, Crowd.signals_eq has, fun d h' o hd => ?_⟩
  · rw [Crowd.event_eq_flagAfter has]
    exact flagAfter_iff
  · exact flagAfter_iff.1 (Crowd.exists_signal_of_success has hh)
  · rcases act_crowd hd with ⟨-, ho⟩ | ⟨a, ha⟩
    · cases ho
    · exact (Crowd.act_step ha).fits

/-- A wait that gives up, one whose deadline does not exist, one that takes a signal before a woken
thread does, and three signals, the last of them by the end of a family. -/
theorem Household.binary_semaphore_of_repeats :
    let a : ThreadId := ⟨"a"⟩
    let b : ThreadId := ⟨"b"⟩
    let h : Household := ⟨⟨⟨true⟩, [], [⟨a, none⟩], 5⟩, ⟨[], 1⟩⟩
    let history : List Occurrence :=
      [.gaveUp b, .overflowed b, .signalled false, .succeeded b, .signalled false, .signalled true]
    run {} [.inCrowd (.wait a none), .inCrowd (.wait b (some ⟨0, 5⟩)), .inCrowd (.tick 5),
        .inCrowd (.rouse b), .inCrowd (.resume b), .inCrowd (.wait b (some ⟨Instant.limit, 0⟩)),
        .create "x" 0, .clone "x" "y" 0, .inCrowd (.signal 0), .inCrowd (.wait b none),
        .inCrowd (.resume a), .drop "x" 0, .drop "y" 0, .inCrowd (.signal 0)] =
      some (h, history) ∧
    (∃ before found after, history = before ++ .signalled found :: after ∧
      ∀ o ∈ after, o.isSuccess = false) ∧
    signals history = successes history + 1 + repeats history ∧
    signals history = 3 ∧ successes history = 1 ∧ repeats history = 1 := by
  intro a b h history
  have hrun : run {} [.inCrowd (.wait a none), .inCrowd (.wait b (some ⟨0, 5⟩)), .inCrowd (.tick 5),
        .inCrowd (.rouse b), .inCrowd (.resume b), .inCrowd (.wait b (some ⟨Instant.limit, 0⟩)),
        .create "x" 0, .clone "x" "y" 0, .inCrowd (.signal 0), .inCrowd (.wait b none),
        .inCrowd (.resume a), .drop "x" 0, .drop "y" 0, .inCrowd (.signal 0)] =
      some (h, history) := by decide
  obtain ⟨hset, -, hcount, -⟩ := binary_semaphore hrun
  exact ⟨hrun, hset.1 rfl, hcount, rfl, rfl, rfl⟩

end ReentrantGate.Event
