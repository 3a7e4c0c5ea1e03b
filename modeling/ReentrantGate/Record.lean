/-
**Log records.**

A record is a level, a message and named values in the order in which they were given.  A logger
that belongs to a part of a program prints a record on one line: the level, the message, the values
with the latest first, and the name of the part.

Main definitions:

* `ReentrantGate.Level` — with the long name `Level.name` and the four-letter tag `Level.tag`;
* `ReentrantGate.Record` — and its one-line form `Record.line`.
-/

set_option relaxedAutoImplicit false
set_option autoImplicit false

namespace ReentrantGate

/-- How serious a record is. -/
inductive Level
  | debug
  | info
  | warning
  | critical
  deriving DecidableEq

namespace Level

/-- The name in full. -/
def name : Level → String
  | debug => "DEBUG"
  | info => "INFO"
  | warning => "WARNING"
  | critical => "CRITICAL"

/-- The tag at the head of a log line. -/
def tag : Level → String
  | debug => "DEBG"
  | info => "INFO"
  | warning => "WARN"
  | critical => "CRIT"

/-- A logger that is not verbose drops the debug level and keeps the others. -/
def passes (verbose : Bool) : Level → Bool
  | debug => verbose
  | _ => true

end Level

/-- One record of a log. -/
structure Record where
  level : Level
  message : String
  fields : List (String × String) := []
  deriving DecidableEq

/-- The record on one line, as the logger of the part `part` prints it. -/
def Record.line (part : String) (r : Record) : String :=
  let field := fun (f : String × String) => ", " ++ f.1 ++ ": " ++ f.2
  r.level.tag ++ " " ++ r.message ++ String.join (r.fields.reverse.map field) ++ field ("sys", part)

end ReentrantGate
