/-
**The stress command as a program.**

This is the outer layer of `ReentrantGate.Stress.command`: it reads the settings file that the
arguments name, shows what the command shows, puts the log on the error stream, and passes the exit
code on.  The run itself is played in virtual time.
-/

import ReentrantGate.Stress.Command

set_option relaxedAutoImplicit false
set_option autoImplicit false

namespace ReentrantGate.Stress

/-- The text of a file, if it can be read. -/
def textOfFile? (path : String) : IO (Option String) := do
  try
    return some (← IO.FS.readFile path)
  catch _ =>
    return none

/-- The file that the arguments name, as the command wants to see it. -/
def namedFile (args : List String) : IO (String → Option String) := do
  match Arguments.split args with
  | .ok ⟨_, some path, _⟩ =>
      let text ← textOfFile? path
      return fun p => if p = path then text else none
  | _ => return fun _ => none

end ReentrantGate.Stress

open ReentrantGate.Stress in
/-- The program. -/
def main (args : List String) : IO UInt32 := do
  let outcome := command (← namedFile args) false args
  if let .misused := outcome then
    IO.eprintln "error: these arguments cannot be used, see --help"
  for l in outcome.log do
    IO.eprintln l.line
  IO.print outcome.text
  return UInt32.ofNat (outcome.code?.getD 1)
