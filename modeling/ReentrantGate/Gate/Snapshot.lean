/-
**A view of a gate at one moment.**

A snapshot shows the number of entries, the depth of the close, the number of threads inside and
whether there is a closer; a closer that still drains shows already.

Main definitions:

* `Gate.Snapshot`, `Gate.snapshot`;
* `Gate.Snapshot.toJson`, `Gate.Snapshot.text` — its two written forms.
-/

import ReentrantGate.Gate.Basic
import ReentrantGate.Json.Basic

set_option relaxedAutoImplicit false
set_option autoImplicit false

namespace ReentrantGate.Gate

/-- The counters of a gate at one moment. -/
structure Snapshot where
  entered : Nat
  closed : Nat
  holders : Nat
  closing : Bool
  deriving DecidableEq

/-- The snapshot of a gate. -/
def snapshot (g : Gate) : Snapshot := ⟨g.entered, g.closed, g.depths.length, g.closer.isSome⟩

namespace Snapshot

/-- The snapshot as a JSON object. -/
def toJson (s : Snapshot) : Json :=
  .object [("entered", .ofNat s.entered), ("closed", .ofNat s.closed),
    ("holders", .ofNat s.holders), ("closing", .bool s.closing)]

/-- The snapshot for a reader of logs. -/
def text (s : Snapshot) : String :=
  "Snapshot \x7b entered: " ++ toString s.entered ++ ", closed: " ++ toString s.closed ++
    ", holders: " ++ toString s.holders ++ ", closing: " ++ toString s.closing ++ " \x7d"

end Snapshot

end ReentrantGate.Gate
