/-
**Splitting a command line.**

The command takes options with a value and flags without.  A long name follows two hyphens and may
have its value after an equals sign; letters follow one hyphen, several flags in a row, and an
option takes what is left of its argument as its value, or else the next argument.  Only the
timeout may have a value in the next argument that starts with a hyphen.  There are no positional
arguments.

Asking for help or for the version ends the splitting at once.  An argument that cannot be split is
an error at once, while an option without a value, or one that is given twice, is an error only if
everything else could be split.

Main definitions:

* `Stress.Parameter`, `Stress.Flag`, `Stress.Switch` — what can be given;
* `Stress.Given` — one occurrence;
* `Stress.Arguments`, `Arguments.split` — the result.
-/

import ReentrantGate.Stress.Settings

set_option relaxedAutoImplicit false
set_option autoImplicit false

namespace ReentrantGate.Stress

/-! ### What can be given -/

/-- An option with a value: the settings file, or a field. -/
inductive Parameter
  | config
  | field (f : Field)
  deriving DecidableEq

/-- A flag. -/
inductive Flag
  | verbose
  | help
  | version
  deriving DecidableEq

/-- Anything that a name can stand for. -/
inductive Switch
  | parameter (p : Parameter)
  | flag (f : Flag)
  deriving DecidableEq

namespace Switch

/-- The long names. -/
def ofName? (name : String) : Option Switch :=
  match name with
  | "config" => some (.parameter .config)
  | "verbose" => some (.flag .verbose)
  | "help" => some (.flag .help)
  | "version" => some (.flag .version)
  | name => (Field.ofName? name).map fun f => .parameter (.field f)

/-- The letters. -/
def ofLetter? : Char → Option Switch
  | 'e' => some (.parameter (.field .enterers))
  | 'c' => some (.parameter (.field .closers))
  | 'n' => some (.parameter (.field .iterations))
  | 'd' => some (.parameter (.field .depth))
  | 't' => some (.parameter (.field .timeout))
  | 's' => some (.parameter (.field .spins))
  | 'v' => some (.flag .verbose)
  | 'h' => some (.flag .help)
  | 'V' => some (.flag .version)
  | _ => none

end Switch

/-- Only the timeout takes a next argument that starts with a hyphen as its value. -/
def Parameter.takesHyphens (p : Parameter) : Bool := p = .field .timeout

/-- One occurrence of an option, with its value unless that is missing, or of the verbose flag. -/
inductive Given
  | value (p : Parameter) (text : Option String)
  | verbose
  deriving DecidableEq

/-- Why the splitting ends before the end. -/
inductive Stop
  | help
  | version
  | error
  deriving DecidableEq

/-! ### One argument -/

/-- Whether an argument is an option or a flag by its form. -/
def isSwitch (arg : List Char) : Bool :=
  match arg with
  | '-' :: _ :: _ => true
  | _ => false

/-- An attached value loses the equals signs in front of it. -/
def attached (value : List Char) : String := String.ofList (value.dropWhile (· = '='))

/-- What one argument gives, and the option that still waits for its value. -/
abbrev Piece := Except Stop (List Given × Option Parameter)

/-- An argument in the long form, without its hyphens. -/
def splitLong (arg : List Char) : Piece :=
  let (name, value) := arg.span (· ≠ '=')
  match Switch.ofName? (String.ofList name), value with
  | none, _ => .error .error
  | some (.flag .help), _ => .error .help
  | some (.flag .version), _ => .error .version
  | some (.flag .verbose), _ => .ok ([.verbose], none)
  | some (.parameter p), [] => .ok ([], some p)
  | some (.parameter p), value => .ok ([.value p (attached value)], none)

/-- An argument of letters, without its hyphen. -/
def splitLetters : List Char → Piece
  | [] => .ok ([], none)
  | c :: rest =>
      match Switch.ofLetter? c with
      | none => .error .error
      | some (.flag .help) => .error .help
      | some (.flag .version) => .error .version
      | some (.flag .verbose) => do
          let (given, waiting) ← splitLetters rest
          return (.verbose :: given, waiting)
      | some (.parameter p) =>
          if rest = [] then .ok ([], some p) else .ok ([.value p (attached rest)], none)

/-- One argument that is not the value of an option; only options and flags are known. -/
def splitOne (arg : List Char) : Piece :=
  match arg with
  | '-' :: '-' :: _ => splitLong (arg.dropWhile (· = '-'))
  | '-' :: c :: rest => splitLetters (c :: rest)
  | _ => .error .error

/-! ### All arguments -/

/-- The occurrences in a list of arguments, where an option may wait for its value. -/
def splitAll (waiting : Option Parameter) : List String → Except Stop (List Given)
  | [] => .ok (waiting.map fun p => .value p none).toList
  | arg :: args => do
      match waiting with
      | some p =>
          if p.takesHyphens || !isSwitch arg.toList then
            return .value p arg :: (← splitAll none args)
      | none => pure ()
      let missing := (waiting.map fun p => Given.value p none).toList
      if arg = "--" then
        if args = [] then return missing else .error .error
      else
        let (given, next) ← splitOne arg.toList
        return missing ++ given ++ (← splitAll next args)

/-- What a command line asks for. -/
structure Arguments where
  verbose : Bool := false
  config : Option String := none
  options : List (Field × String) := []

namespace Arguments

/-- One more occurrence; nothing may be given twice or without a value. -/
def add (a : Arguments) : Given → Option Arguments
  | .verbose => if a.verbose then none else some { a with verbose := true }
  | .value _ none => none
  | .value .config (some path) =>
      if a.config.isSome then none else some { a with config := some path }
  | .value (.field f) (some text) =>
      if a.options.any (·.1 = f) then none
      else some { a with options := a.options ++ [(f, text)] }

/-- The arguments of a command line. -/
def split (args : List String) : Except Stop Arguments := do
  let given ← splitAll none args
  match given.foldlM add {} with
  | none => .error .error
  | some a => return a

end Arguments

end ReentrantGate.Stress
