/-
**Threads.**

Threads are told apart by their names; a log record that mentions a thread shows its name.
-/

set_option relaxedAutoImplicit false
set_option autoImplicit false

namespace ReentrantGate

/-- A thread, known by its name. -/
structure ThreadId where
  name : String
  deriving DecidableEq

end ReentrantGate
