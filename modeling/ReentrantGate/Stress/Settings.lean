/-
**Settings of a stress run.**

Six numbers decide a run.  Each has a default, may be given by a settings file, and may be given
again on the command line, where a text that is no number of the right kind counts as not given.
A file is an object that names some of the fields, or an array of the first few in their order.
The resolved depth is at least one, and the resolved timeout must be a timeout.

Main definitions:

* `Stress.Field`, `Stress.Settings` — with `Settings.get` and `Settings.put` by field;
* `Settings.ofJson?`, `Settings.ofText?` — the settings of a file;
* `Settings.override`, `Settings.resolve` — one option, and all of them on top of a file;
* `Settings.toJson`, `Settings.text` — two written forms;
* `Settings.predictable` — whether the counters of a run do not depend on its schedule.

Main results:

* `Settings.get_put` — putting a field changes that field and no other.
-/

import ReentrantGate.Stress.Numeral

set_option relaxedAutoImplicit false
set_option autoImplicit false

namespace ReentrantGate.Stress

/-! ### Fields -/

/-- The names of the settings. -/
inductive Field
  | enterers
  | closers
  | iterations
  | depth
  | timeout
  | spins
  deriving DecidableEq

namespace Field

/-- All fields in their order. -/
def all : List Field := [enterers, closers, iterations, depth, timeout, spins]

/-- The written name of a field. -/
def name : Field → String
  | enterers => "enterers"
  | closers => "closers"
  | iterations => "iterations"
  | depth => "depth"
  | timeout => "timeout"
  | spins => "spins"

/-- The field with a written name. -/
def ofName? (s : String) : Option Field := all.find? fun f => f.name = s

/-- The numbers that a field can hold: a timeout has a sign, the others are words. -/
def holds : Field → Int → Bool
  | timeout => isSigned
  | _ => isWord

/-- The number that a text gives a field, if it gives one. -/
def ofText? : Field → String → Option Int
  | timeout => signed?
  | _ => word?

end Field

/-- The settings of a run. -/
structure Settings where
  enterers : Nat := 16
  closers : Nat := 2
  iterations : Nat := 10000
  depth : Nat := 3
  timeout : Int := 50
  spins : Nat := 200
  deriving DecidableEq

namespace Settings

/-- The value of a field. -/
def get (s : Settings) : Field → Int
  | .enterers => s.enterers
  | .closers => s.closers
  | .iterations => s.iterations
  | .depth => s.depth
  | .timeout => s.timeout
  | .spins => s.spins

/-- The settings with another value in one field. -/
def put (s : Settings) (f : Field) (n : Int) : Settings :=
  match f with
  | .enterers => { s with enterers := n.toNat }
  | .closers => { s with closers := n.toNat }
  | .iterations => { s with iterations := n.toNat }
  | .depth => { s with depth := n.toNat }
  | .timeout => { s with timeout := n }
  | .spins => { s with spins := n.toNat }

theorem nonneg_of_isWord {n : Int} (h : isWord n = true) : 0 ≤ n := by
  simp only [isWord, Bool.and_eq_true, decide_eq_true_eq] at h
  exact h.1

/-- Putting a value that a field can hold changes that field and no other. -/
theorem get_put (s : Settings) {f : Field} {n : Int} (h : f.holds n = true) (g : Field) :
    (s.put f n).get g = if g = f then n else s.get g := by
  cases f with
  | timeout => cases g <;> rfl
  | _ =>
      have hn := Int.toNat_of_nonneg (nonneg_of_isWord h)
      cases g <;> simp only [put, get, hn] <;> rfl

/-! ### Settings files -/

/-- The number that a JSON value gives a field. -/
def number? (f : Field) (v : Json) : Option Int := v.integer?.filter f.holds

/-- Members on top of settings; no field may be given twice, and other keys mean nothing. -/
def ofMembers? (s : Settings) (given : List Field) : List (String × Json) → Option Settings
  | [] => some s
  | (content, v) :: rest =>
      match Json.unescape content.toList with
      | none => none
      | some key =>
          match Field.ofName? (String.ofList key) with
          | none => ofMembers? s given rest
          | some f =>
              if f ∈ given then none
              else (number? f v).bind fun n => ofMembers? (s.put f n) (f :: given) rest

/-- Items on top of settings, one for each field in order; there may be fewer, but not more. -/
def ofItems? (s : Settings) : List Field → List Json → Option Settings
  | _, [] => some s
  | [], _ :: _ => none
  | f :: fs, v :: vs => (number? f v).bind fun n => ofItems? (s.put f n) fs vs

/-- The settings that a JSON value stands for. -/
def ofJson? : Json → Option Settings
  | .object members => ofMembers? {} [] members
  | .array items => ofItems? {} Field.all items
  | _ => none

/-- The settings that the text of a file stands for. -/
def ofText? (text : String) : Option Settings := (Json.read text).bind ofJson?

/-! ### Options on top of a file -/

/-- The settings with a field as the text of an option gives it, if that is a number. -/
def override (s : Settings) (f : Field) (text : String) : Settings :=
  match f.ofText? text with
  | none => s
  | some n => s.put f n

/-- At least one entry is made at a time. -/
def raiseDepth (s : Settings) : Settings := { s with depth := max 1 s.depth }

/-- The settings of a run, from those of its file and the texts of its options. -/
def resolve (file : Settings) (options : List (Field × String)) : Settings :=
  (options.foldl (fun s o => s.override o.1 o.2) file).raiseDepth

/-! ### Written forms -/

/-- The settings as a JSON object. -/
def toJson (s : Settings) : Json := .object (Field.all.map fun f => (f.name, .ofInt (s.get f)))

/-- The settings for a reader of logs. -/
def text (s : Settings) : String :=
  let field := fun (f : Field) => f.name ++ ": " ++ toString (s.get f)
  "Settings \x7b " ++ String.intercalate ", " (Field.all.map field) ++ " \x7d"

/-- Whether the counters of a run are the same under every schedule: nobody gives up, or nobody
competes for the gate. -/
def predictable (s : Settings) : Bool :=
  s.timeout = -1 || s.closers = 0 || s.iterations < 10 || (s.enterers = 0 && s.closers = 1)

end Settings

end ReentrantGate.Stress
