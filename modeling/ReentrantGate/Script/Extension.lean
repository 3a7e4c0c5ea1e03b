/-
**Giving a call more time.**

A timed call can be given a longer timeout, or none at all if it is about a gate.  An extension says
which calls of a script get more time, by their label and their operation, and what the operation
becomes.  Everything else in the script stays.

Main definitions:

* `Timeout.Extends`, `Operation.Extends` — a timed operation, and the same with more time;
* `Operation.deadline?` — until when an operation that starts now may last;
* `Script.Extension`, `Extension.call`, `Extension.step` — some calls get more time;
* `Extension.deadline` — what becomes of their deadlines.

Main results:

* `Extension.eq_deadline` — the new deadline is the old one and the time that was added.
-/

import ReentrantGate.Script.Run

set_option relaxedAutoImplicit false
set_option autoImplicit false

namespace ReentrantGate

theorem Instant.eq_of_add? {now ns a : Nat} (h : Instant.add? now ns = some a) : a = now + ns := by
  simp only [Instant.add?] at h
  split at h
  · exact (Option.some.inj h).symm
  · cases h

/-- A finite timeout becomes `new`, which is no shorter. -/
inductive Timeout.Extends : (old new : Timeout) → Prop
  | millis {m n : Nat} : m ≤ n → Extends (millis m) (millis n)
  | infinite {m : Nat} : Extends (millis m) infinite

/-- The length of a timeout in nanoseconds, unless it is infinite. -/
def Timeout.nanos? : Timeout → Option Nat
  | infinite => none
  | millis ms => some (ms * 1000000)

namespace Script

namespace Operation

/-- A timed operation with a finite timeout becomes `new`, with one that is no shorter. -/
inductive Extends : (old new : Operation) → Prop
  | enterFor {old new : Timeout} : old.Extends new → Extends (enterFor old) (enterFor new)
  | closeFor {old new : Timeout} : old.Extends new → Extends (closeFor old) (closeFor new)
  | waitFor {old new : Duration} : old.toNanos ≤ new.toNanos →
      Extends (waitFor old) (waitFor new)

/-- How long a timed operation may last. -/
def nanos? : Operation → Option Nat
  | enterFor timeout => timeout.nanos?
  | closeFor timeout => timeout.nanos?
  | waitFor duration => some duration.toNanos
  | _ => none

/-- Until when a timed operation that starts at `now` may last; `none` if the clock cannot hold
it. -/
def deadline? (now : Nat) (op : Operation) : Option Deadline :=
  match op.nanos? with
  | none => some none
  | some ns => (Instant.add? now ns).map some

theorem deadline?_enterFor (now : Nat) (timeout : Timeout) :
    (enterFor timeout).deadline? now = timeout.deadline? now := by
  cases timeout <;> rfl

theorem deadline?_closeFor (now : Nat) (timeout : Timeout) :
    (closeFor timeout).deadline? now = timeout.deadline? now := by
  cases timeout <;> rfl

theorem deadline?_waitFor (now : Nat) (duration : Duration) :
    (waitFor duration).deadline? now = (Instant.add? now duration.toNanos).map some := rfl

end Operation

/-- The calls with a label and an operation get more time. -/
structure Extension where
  label : Nat
  old : Operation
  new : Operation
  more : old.Extends new

namespace Extension

/-! ### Calls with more time -/

/-- Whether a call gets more time. -/
def marks (x : Extension) : Call → Bool
  | .single site op => site.label = x.label && op = x.old
  | .scope .. => false

mutual

/-- A call, after it and those inside it have got more time. -/
def call (x : Extension) : Call → Call
  | .single site op => .single site (if site.label = x.label ∧ op = x.old then x.new else op)
  | .scope site hold timeout body panics => .scope site hold timeout (x.calls body) panics

/-- Calls, after they have got more time. -/
def calls (x : Extension) : List Call → List Call
  | [] => []
  | c :: cs => x.call c :: x.calls cs

end

/-- A step, after its calls have got more time. -/
def step (x : Extension) : Step → Step
  | .advance ns => .advance ns
  | .perform t cs => .perform t (cs.map x.call)

variable (x : Extension)

theorem calls_eq_map (cs : List Call) : x.calls cs = cs.map x.call := by
  induction cs with
  | nil => rfl
  | cons c cs ih => rw [calls, ih, List.map_cons]

theorem kinds :
    (∃ old new, x.old = .enterFor old ∧ x.new = .enterFor new) ∨
      (∃ old new, x.old = .closeFor old ∧ x.new = .closeFor new) ∨
        ∃ old new, x.old = .waitFor old ∧ x.new = .waitFor new := by
  obtain ⟨label, old, new, more⟩ := x
  cases more with
  | enterFor _ => exact .inl ⟨_, _, rfl, rfl⟩
  | closeFor _ => exact .inr (.inl ⟨_, _, rfl, rfl⟩)
  | waitFor _ => exact .inr (.inr ⟨_, _, rfl, rfl⟩)

/-! ### Deadlines -/

/-- How much time there is in all of the new operation beyond the old one; `none` is no end. -/
def extra : Option Nat := x.new.nanos?.map (· - x.old.nanos?.getD 0)

/-- What becomes of the deadline of a call that gets more time. -/
def deadline : Deadline → Deadline
  | none => none
  | some d => x.extra.map (d + ·)

theorem nanos?_old : ∃ m, x.old.nanos? = some m ∧ ∀ n, x.new.nanos? = some n → m ≤ n := by
  obtain ⟨label, old, new, more⟩ := x
  have timeout : ∀ {old new : Timeout}, old.Extends new →
      ∃ m, old.nanos? = some m ∧ ∀ n, new.nanos? = some n → m ≤ n := by
    intro old new h
    cases h with
    | millis h =>
        refine ⟨_, rfl, fun n hn => ?_⟩
        cases hn
        exact Nat.mul_le_mul_right _ h
    | infinite => exact ⟨_, rfl, fun n hn => by cases hn⟩
  cases more with
  | enterFor h => exact timeout h
  | closeFor h => exact timeout h
  | waitFor h =>
      refine ⟨_, rfl, fun n hn => ?_⟩
      cases hn
      exact h

/-- **The new deadline is the old one and the time that was added**, if both exist. -/
theorem eq_deadline {now : Nat} {d d' : Deadline} (h : x.old.deadline? now = some d)
    (h' : x.new.deadline? now = some d') : d' = x.deadline d := by
  obtain ⟨m, hm, hle⟩ := x.nanos?_old
  simp only [Operation.deadline?, hm, Option.map_eq_some_iff] at h
  obtain ⟨a, ha, rfl⟩ := h
  have hsum := Instant.eq_of_add? ha
  cases hn : x.new.nanos? with
  | none =>
      simp only [Operation.deadline?, hn, Option.some.injEq] at h'
      rw [← h']
      simp [deadline, extra, hn]
  | some n =>
      simp only [Operation.deadline?, hn, Option.map_eq_some_iff] at h'
      obtain ⟨b, hb, rfl⟩ := h'
      have hsum' := Instant.eq_of_add? hb
      have hmn := hle n hn
      simp only [deadline, extra, hn, hm, Option.map_some, Option.getD_some, Option.some.injEq]
      omega

/-- If the new deadline exists then so does the old one, or the call had none. -/
theorem deadline_cases {now : Nat} (h : (x.new.deadline? now).isSome = true) :
    x.old.deadline? now = none ∨
      ∃ d, x.old.deadline? now = some d ∧ x.new.deadline? now = some (x.deadline d) := by
  obtain ⟨d', hd'⟩ := Option.isSome_iff_exists.1 h
  cases hd : x.old.deadline? now with
  | none => exact .inl rfl
  | some d => exact .inr ⟨d, rfl, by rw [hd', x.eq_deadline hd hd']⟩

/-- A deadline only moves to a later time. -/
theorem le_of_deadline {d : Deadline} {b : Nat} (h : x.deadline d = some b) :
    ∃ a, d = some a ∧ a ≤ b := by
  cases d with
  | none => cases h
  | some a =>
      simp only [deadline, Option.map_eq_some_iff] at h
      obtain ⟨k, -, rfl⟩ := h
      exact ⟨a, rfl, Nat.le_add_right a k⟩

end Extension

end Script

end ReentrantGate
