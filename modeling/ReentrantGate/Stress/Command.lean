/-
**The stress command.**

The command splits its arguments, loads a settings file if it is given one, puts the options on top,
and makes a run if the timeout is one.  It shows a report and logs how it went; its exit code tells
whether the run was sound.  Everything that the command needs from outside, the texts of files and
whether there was an interrupt, is an argument here.

Main definitions:

* `Stress.version`, `Stress.help` — fixed texts;
* `Stress.Outcome` — how the command ends;
* `Stress.command` — the command.
-/

import ReentrantGate.Failure
import ReentrantGate.Record
import ReentrantGate.Stress.Arena
import ReentrantGate.Stress.Arguments

set_option relaxedAutoImplicit false
set_option autoImplicit false

namespace ReentrantGate.Stress

/-! ### Fixed texts -/

/-- The number of the version. -/
def version : String := "0.1.0"

/-- The line that names the command and its version. -/
def versionLine : String := "stress " ++ version ++ "\n"

/-- What is shown when help is asked for. -/
def help : String :=
  versionLine ++
    "hammers a reentrant gate and checks closes never overlap entries\n" ++
    "\n" ++
    "USAGE:\n" ++
    "    stress [FLAGS] [OPTIONS]\n" ++
    "\n" ++
    "FLAGS:\n" ++
    "    -v, --verbose    log the gate close/open transitions\n" ++
    "    -h, --help       Prints help information\n" ++
    "    -V, --version    Prints version information\n" ++
    "\n" ++
    "OPTIONS:\n" ++
    "    -c, --closers <CLOSERS>          number of closing threads\n" ++
    "        --config <CONFIG>            json settings file\n" ++
    "    -d, --depth <DEPTH>              maximum nesting depth per entry\n" ++
    "    -e, --enterers <ENTERERS>        number of entering threads\n" ++
    "    -n, --iterations <ITERATIONS>    iterations per thread\n" ++
    "    -s, --spins <SPINS>              maximum spins while holding the gate\n" ++
    "    -t, --timeout <TIMEOUT>          enter/close timeout in ms (-1 waits forever)\n"

/-! ### The log -/

/-- The part of the program that a record comes from. -/
inductive Part
  | main
  | gate
  deriving DecidableEq

/-- The written name of a part. -/
def Part.name : Part → String
  | main => "main"
  | gate => "gate"

/-- A record with its part. -/
abbrev Logged := Part × Record

/-- The line of a record. -/
def Logged.line (l : Logged) : String := l.2.line l.1.name

/-- A record of the main part. -/
def say (level : Level) (message : String) (fields : List (String × String)) : Logged :=
  (.main, ⟨level, message, fields⟩)

/-! ### The command -/

/-- How the command ends: its arguments were wrong; it showed a text; it failed before a run; it
made a run and reported; or its run never ended, because workers were parked for ever.  From the
third case on there are the records of its log. -/
inductive Outcome
  | misused
  | shown (text : String)
  | failed (log : List Logged)
  | reported (log : List Logged) (report : Report)
  | stuck (log : List Logged)

namespace Outcome

/-- The exit code, if the command ends. -/
def code? : Outcome → Option Nat
  | misused => some 1
  | shown _ => some 0
  | failed _ => some 1
  | reported _ report => some (if report.sound then 0 else 1)
  | stuck _ => none

/-- What is printed. -/
def text : Outcome → String
  | shown text => text
  | reported _ report => report.toJson.pretty ++ "\n"
  | _ => ""

/-- The records of the log. -/
def log : Outcome → List Logged
  | misused => []
  | shown _ => []
  | failed log => log
  | reported log _ => log
  | stuck log => log

/-- The outcome of a command whose log is not verbose, or is. -/
def filterLog (verbose : Bool) : Outcome → Outcome
  | misused => misused
  | shown text => shown text
  | failed log => failed (log.filter (·.2.level.passes verbose))
  | reported log report => reported (log.filter (·.2.level.passes verbose)) report
  | stuck log => stuck (log.filter (·.2.level.passes verbose))

end Outcome

/-- The settings of the file that the arguments name, or the defaults if they name none. -/
def fileSettings (files : String → Option String) (a : Arguments) : Option Settings :=
  match a.config with
  | none => some {}
  | some path => (files path).bind Settings.ofText?

/-- The last record after a report. -/
def closing (r : Report) : Logged :=
  if r.sound then say .info "exiting" []
  else
    say .critical "gate invariant violated"
      [("overlaps", toString r.tally.overlaps), ("violations", toString r.tally.violations)]

/-- A run with valid settings, after the records in `log`. -/
def perform (s : Settings) (p : Plan) (interrupted : Bool) (log : List Logged) : Outcome :=
  let a := Arena.sequential s p interrupted
  let interrupt := if interrupted then [say .info "interrupted, stopping" []] else []
  let notes := a.shared.notes.reverse.map fun note => (Part.gate, note.record)
  let log := log ++ [say .info ("running " ++ s.text) []] ++ interrupt ++ notes
  match a.report? s with
  | none => .stuck log
  | some report => .reported (log ++ [closing report]) report

/-- The command after its arguments have been split, with all records of its log. -/
def execute (files : String → Option String) (interrupted : Bool) (a : Arguments) : Outcome :=
  let starting := say .debug ("starting (version=" ++ version ++ ")") []
  match fileSettings files a with
  | none => .failed [starting, say .critical "unable to load" []]
  | some file =>
      let s := Settings.resolve file a.options
      match Arena.plan? s with
      | none => .failed [starting, say .critical (Refusal.invalidTimeout s.timeout).message []]
      | some p => perform s p interrupted [starting]

/-- The stress command. -/
def command (files : String → Option String) (interrupted : Bool) (args : List String) : Outcome :=
  match Arguments.split args with
  | .error .help => .shown help
  | .error .version => .shown versionLine
  | .error .error => .misused
  | .ok a => (execute files interrupted a).filterLog a.verbose

end ReentrantGate.Stress
