/-
**Finding a call again.**

A call is found again by its label: where it stands in a script, and what is reported of it.  Any
other labels would do as well, which is what relabelling a script means.

Main definitions:

* `Script.called`, `Script.results` — the calls with a label, and what is reported of them;
* `Step.relabel`, `Answer.relabel` — other labels in a script, and in its answers.
-/

import ReentrantGate.Script.Run

set_option relaxedAutoImplicit false
set_option autoImplicit false

namespace ReentrantGate.Script

/-! ### Calls and results -/

namespace Call

mutual

/-- A call with all the calls inside it. -/
def all : Call → List Call
  | single site op => [single site op]
  | scope site hold timeout body panics => scope site hold timeout body panics :: allOf body

/-- Some calls with all the calls inside them. -/
def allOf : List Call → List Call
  | [] => []
  | c :: cs => c.all ++ allOf cs

end

end Call

/-- The calls of a step. -/
def Step.calls : Step → List Call
  | advance _ => []
  | perform _ cs => Call.allOf cs

/-- The calls of a script that have a label, those inside scopes included. -/
def called (label : Nat) (steps : List Step) : List Call :=
  (steps.flatMap Step.calls).filter (·.site.label = label)

/-- The result in a line of the journal about a call with that label. -/
def Entry.result? (label : Nat) : Entry → Option Result
  | record _ => none
  | finished _ l _ result _ _ => if l = label then some result else none

/-- The results of the calls with a label, in the order in which they were reported. -/
def results (label : Nat) (answers : List Answer) : List Result :=
  answers.flatMap fun a => a.journal.filterMap (Entry.result? label)

/-! ### Other labels -/

/-- The site with another label. -/
def Site.relabel (f : Nat → Nat) (s : Site) : Site := { s with label := f s.label }

namespace Call

mutual

/-- The call with other labels, in itself and inside. -/
def relabel (f : Nat → Nat) : Call → Call
  | single site op => single (site.relabel f) op
  | scope site hold timeout body panics =>
      scope (site.relabel f) hold timeout (relabelAll f body) panics

/-- The calls with other labels. -/
def relabelAll (f : Nat → Nat) : List Call → List Call
  | [] => []
  | c :: cs => c.relabel f :: relabelAll f cs

end

theorem relabelAll_eq_map (f : Nat → Nat) (cs : List Call) :
    relabelAll f cs = cs.map (relabel f) := by
  induction cs with
  | nil => rfl
  | cons c cs ih => rw [relabelAll, ih, List.map_cons]

end Call

/-- The step with other labels. -/
def Step.relabel (f : Nat → Nat) : Step → Step
  | advance ns => advance ns
  | perform t cs => perform t (cs.map (Call.relabel f))

/-- The line of the journal with another label. -/
def Entry.relabel (f : Nat → Nat) : Entry → Entry
  | record r => record r
  | finished t label call result inside closing =>
      finished t (f label) call result inside closing

/-- The answer with other labels. -/
def Answer.relabel (f : Nat → Nat) (a : Answer) : Answer :=
  { a with journal := a.journal.map (Entry.relabel f) }

end ReentrantGate.Script
