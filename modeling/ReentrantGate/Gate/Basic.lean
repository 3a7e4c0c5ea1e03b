/-
**The state of a gate.**

Any number of threads may be inside a gate at once.  One thread may be the *closer*: it first
claims the gate, then waits for the *foreign* entries, those of other threads, to leave.  Entries
and closes are counted per thread, and a gate starts open with nobody inside.

Main definitions:

* `ReentrantGate.Gate` — the state;
* `Gate.depth`, `Gate.isCloser`, `Gate.foreign` — what it says about threads;
* `Gate.admits` — who may enter without waiting;
* `Gate.raise`, `Gate.lower`, `Gate.claim`, `Gate.unclaim`, `Gate.nest`, `Gate.unnest` — the only
  changes that are ever made to it.
-/

import ReentrantGate.Gate.Depths

set_option relaxedAutoImplicit false
set_option autoImplicit false

namespace ReentrantGate

/-- A gate: the number of entries in it, the depth of the close, the thread that has claimed or
closed it, and the depths of the threads inside. -/
structure Gate where
  entered : Nat := 0
  closed : Nat := 0
  closer : Option ThreadId := none
  depths : Depths := []
  deriving DecidableEq

namespace Gate

/-! ### What a gate says about a thread -/

/-- The number of entries that `t` holds. -/
def depth (g : Gate) (t : ThreadId) : Nat := g.depths.of t

/-- Whether `t` has claimed or closed the gate. -/
def isCloser (g : Gate) (t : ThreadId) : Bool := 0 < g.closed && g.closer = some t

/-- The entries of threads other than the closer. -/
def foreign (g : Gate) : Nat :=
  match g.closer with
  | some t => g.entered - g.depth t
  | none => g.entered

/-- Whether `t` may enter at once: it is the closer, it is inside already, or there is no
closer. -/
def admits (g : Gate) (t : ThreadId) : Bool :=
  g.isCloser t || 0 < g.depth t || g.closer.isNone

/-! ### Changes -/

/-- One more entry of `t`. -/
def raise (g : Gate) (t : ThreadId) : Gate :=
  { g with entered := g.entered + 1, depths := g.depths.raise t }

/-- One entry of `t` less. -/
def lower (g : Gate) (t : ThreadId) : Gate :=
  { g with entered := g.entered - 1, depths := g.depths.lower t }

/-- Thread `t` becomes the closer; from now on fresh entries of others have to wait. -/
def claim (g : Gate) (t : ThreadId) : Gate := { g with closer := some t, closed := 1 }

/-- Nobody is the closer any more. -/
def unclaim (g : Gate) : Gate := { g with closer := none, closed := 0 }

/-- The closer closes once more. -/
def nest (g : Gate) : Gate := { g with closed := g.closed + 1 }

/-- The closer opens one of several closes. -/
def unnest (g : Gate) : Gate := { g with closed := g.closed - 1 }

end Gate

end ReentrantGate
