/-
**Handles that signal an event when the last of a family goes.**

A handle is created for an event and may be cloned; the clones of one handle are a *family*.  Names
are shared by all threads, and a name holds one handle.  Storing a handle under a name in use drops
the old one after the new one is stored.  When the last handle of a family is dropped, its event is
signalled.

Main definitions:

* `ReentrantGate.Handle`, `ReentrantGate.Handles`;
* `Handles.create`, `Handles.clone?`, `Handles.drop?` — each answers with the event to signal, if
  the operation ended a family.
-/

set_option relaxedAutoImplicit false
set_option autoImplicit false

namespace ReentrantGate

/-- A handle: the family it belongs to and the event that the family signals. -/
structure Handle where
  family : Nat
  event : Nat
  deriving DecidableEq

/-- The live handles by name, and the number of families created so far. -/
structure Handles where
  live : List (String × Handle) := []
  created : Nat := 0
  deriving DecidableEq

namespace Handles

/-- The handle under a name. -/
def get? (hs : Handles) (name : String) : Option Handle := hs.live.lookup name

/-- Whether a family has a live handle. -/
def alive (hs : Handles) (family : Nat) : Bool := hs.live.any fun p => p.2.family = family

/-- The handles other than the one under `name`. -/
def without (hs : Handles) (name : String) : Handles :=
  { hs with live := hs.live.filter fun p => p.1 ≠ name }

/-- The event to signal once `h` is gone: its own, if no other handle of its family is live. -/
def ended (hs : Handles) (h : Handle) : Option Nat :=
  if hs.alive h.family then none else some h.event

/-- Stores a handle and then drops the one that the name held before. -/
def store (hs : Handles) (name : String) (h : Handle) : Handles × Option Nat :=
  let stored := { hs.without name with live := (name, h) :: (hs.without name).live }
  (stored, (hs.get? name).bind stored.ended)

/-- The first handle of a new family. -/
def create (hs : Handles) (name : String) (event : Nat) : Handles × Option Nat :=
  { hs with created := hs.created + 1 }.store name ⟨hs.created, event⟩

/-- One more handle of a family; fails if there is no handle under `source`. -/
def clone? (hs : Handles) (source name : String) : Option (Handles × Option Nat) :=
  (hs.get? source).map (hs.store name)

/-- Drops a handle; fails if there is none under the name. -/
def drop? (hs : Handles) (name : String) : Option (Handles × Option Nat) :=
  (hs.get? name).map fun h => (hs.without name, (hs.without name).ended h)

end Handles

end ReentrantGate
