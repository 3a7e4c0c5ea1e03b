/-
**A reported configuration can be replayed.**

A report shows the settings of its run as an object of numbers.  Used as a settings file, that text
gives the same settings again: every number in the range of its field is printed and read without
loss, each field is named once, and neither raising the depth nor checking the timeout changes
settings that have been through both.  What is read does not depend on the order of the members or
on the blanks between them, and a file that leaves fields out leaves them at their defaults.

The second run comes to the report that the first one came to, if both are interrupted or neither
is, and with bounded settings it comes to a report in any case.

Main definitions:

* `Stress.Settings.members` — the members that give some fields their numbers;
* `Stress.Settings.Writable` — numbers that a settings file can give;
* `Stress.Settings.Valid` — the settings that a run can have;
* `Stress.TakesFile` — a command that takes everything from one file;
* `Stress.Replays` — what such a command does with settings that it is to take from the file.

Main results:

* `Stress.Settings.ofText?_of_lays` — **a settings file gives what is written in it**;
* `Stress.Settings.exists_accepted_iff` — the settings of runs are the valid ones;
* `Stress.exists_reported_of_perform` — a run with bounded settings is reported;
* `Stress.reported_settings_replay` — **the reported settings make the same run again**.
-/

import ReentrantGate.Proofs.Stress.Resolution
import ReentrantGate.Proofs.Stress.Sequential

set_option relaxedAutoImplicit false
set_option autoImplicit false

namespace ReentrantGate.Stress

/-! ### Names as keys -/

namespace Field

theorem plain_name (f : Field) : Json.Plain f.name := by
  cases f <;> decide

theorem unescape_name (f : Field) : Json.unescape f.name.toList = some f.name.toList := by
  cases f <;> rfl

theorem ofName?_name (f : Field) : ofName? f.name = some f :=
  ofName?_eq_some_iff.2 rfl

end Field

namespace Settings

variable {s : Settings} {f g : Field} {n : Int} {given : List (Field × Int)} {text : String}

theorem names_name (f g : Field) : names f.name g = (g == f) := by
  cases f <;> cases g <;> rfl

/-! ### Settings files -/

/-- The members that give these fields these numbers. -/
def members (given : List (Field × Int)) : List (String × Int) :=
  given.map fun g => (g.1.name, g.2)

/-- Numbers that a settings file can give: to no field twice, and each to a field that can hold
it. -/
structure Writable (given : List (Field × Int)) : Prop where
  nodup : (given.map (·.1)).Nodup
  holds : ∀ g ∈ given, g.1.holds g.2 = true

theorem Writable.tail {g : Field × Int} (h : Writable (g :: given)) : Writable given where
  nodup := (List.nodup_cons.1 h.nodup).2
  holds g hg := h.holds g (List.mem_cons_of_mem _ hg)

/-- A number that a field can hold survives being printed. -/
theorem number?_ofInt (h : f.holds n = true) : number? f (.ofInt n) = some n := by
  rw [number?, Json.integer?_ofInt, Option.filter_some, if_pos h]

/-- Members that can be written are accepted, if their fields have not been given before. -/
theorem exists_ofMembers (h : Writable given) {seen : List Field}
    (hnew : ∀ g ∈ given, g.1 ∉ seen) (s : Settings) :
    ∃ r, ofMembers? s seen ((members given).map fun m => (m.1, .ofInt m.2)) = some r := by
  induction given generalizing s seen with
  | nil => exact ⟨s, rfl⟩
  | cons g given ih =>
      obtain ⟨f, n⟩ := g
      have hseen : f ∉ seen := hnew (f, n) List.mem_cons_self
      have hholds : f.holds n = true := h.holds (f, n) List.mem_cons_self
      have hlater : ∀ g ∈ given, g.1 ∉ f :: seen := by
        intro g hg hmem
        have hmap : g.1 ∈ given.map (·.1) := List.mem_map_of_mem hg
        rcases List.mem_cons.1 hmem with hgf | hmem
        · rw [hgf] at hmap
          exact (List.nodup_cons.1 h.nodup).1 hmap
        · exact hnew g (List.mem_cons_of_mem _ hg) hmem
      obtain ⟨r, hr⟩ := ih h.tail hlater (s.put f n)
      refine ⟨r, ?_⟩
      simp only [members, List.map_cons, ofMembers?, Field.unescape_name, String.ofList_toList,
        Field.ofName?_name, if_neg hseen, number?_ofInt hholds, Option.bind_some]
      exact hr

/-- An object of numbers gives a field the number that is written for it. -/
theorem given?_ofNumbers (h : Writable given) (f : Field) :
    given? (.ofNumbers (members given)) f = given.lookup f := by
  induction given with
  | nil => rfl
  | cons g given ih =>
      obtain ⟨g, n⟩ := g
      have hholds : g.holds n = true := h.holds (g, n) List.mem_cons_self
      have htail := ih h.tail
      simp only [Json.ofNumbers, given?, members, List.map_cons, List.find?_cons, names_name,
        List.lookup_cons] at htail ⊢
      by_cases hfg : f = g
      · subst hfg
        simp [number?_ofInt hholds]
      · have hbeq : (f == g) = false := by simpa using hfg
        simp only [hbeq]
        exact htail

/-- **A settings file gives what is written in it**, in any order and layout, and leaves the other
fields at their defaults. -/
theorem ofText?_of_lays (h : Writable given) (hl : Json.LaysObject (members given) text.toList) :
    ∃ s, ofText? text = some s ∧
      ∀ f, s.get f = (given.lookup f).getD (({} : Settings).get f) := by
  have hplain : ∀ m ∈ members given, Json.Plain m.1 := by
    intro m hm
    obtain ⟨g, -, rfl⟩ := List.mem_map.1 hm
    exact g.1.plain_name
  obtain ⟨s, hs⟩ := exists_ofMembers h (fun _ _ => List.not_mem_nil) {}
  have hjson : ofJson? (.ofNumbers (members given)) = some s := hs
  refine ⟨s, ?_, fun f => ?_⟩
  · rw [ofText?, Json.read_of_lays hl hplain, Option.bind_some, hjson]
  · rw [get_ofJson hjson, given?_ofNumbers h]

/-! ### Settings as a file -/

/-- The fields with their numbers. -/
def entries (s : Settings) : List (Field × Int) := Field.all.map fun f => (f, s.get f)

/-- A text lays out the settings: it is an object with their fields and numbers, in their order, and
blanks wherever they may stand. -/
def Lays (s : Settings) (text : String) : Prop := Json.LaysObject (members s.entries) text.toList

theorem toJson_eq (s : Settings) : s.toJson = .ofNumbers (members s.entries) := rfl

theorem lookup_entries (s : Settings) (f : Field) : s.entries.lookup f = some (s.get f) := by
  cases f <;> rfl

/-- Both printed forms lay out the settings. -/
theorem lays_compact (s : Settings) : s.Lays s.toJson.compact := by
  rw [toJson_eq]
  exact Json.lays_compact _

theorem lays_prettyAt (s : Settings) (level : Nat) : s.Lays (s.toJson.prettyAt level) := by
  rw [toJson_eq]
  exact Json.lays_prettyAt level _

/-- **Settings that a run can have**: the fields can hold their numbers, at least one entry is made
at a time, and the timeout is one. -/
structure Valid (s : Settings) : Prop where
  holds : ∀ f : Field, f.holds (s.get f) = true
  depth : 1 ≤ s.depth
  timeout : -1 ≤ s.timeout

namespace Valid

theorem writable (h : s.Valid) : Writable s.entries where
  nodup := Field.nodup_all
  holds g hg := by
    obtain ⟨f, -, rfl⟩ := List.mem_map.1 hg
    exact h.holds f

/-- **Settings that are laid out are read back.** -/
theorem ofText?_of_lays (h : s.Valid) (hl : s.Lays text) : ofText? text = some s := by
  obtain ⟨r, hr, hget⟩ := Settings.ofText?_of_lays h.writable hl
  have hrs : r = s := ext_get fun f => by rw [hget, lookup_entries, Option.getD_some]
  rw [hr, hrs]

/-- Without options, resolving leaves them as they are. -/
theorem resolve_nil (h : s.Valid) : resolve s [] = s := by
  have hdepth : max 1 s.depth = s.depth := Nat.max_eq_right h.depth
  simp only [resolve, List.foldl_nil, raiseDepth, hdepth]

theorem exists_plan (h : s.Valid) : ∃ p, Arena.plan? s = some p :=
  Option.ne_none_iff_exists'.1 fun hno => absurd (plan?_eq_none_iff.1 hno) (Int.not_lt.2 h.timeout)

end Valid

end Settings

/-! ### Commands that take everything from a file -/

/-- The command takes its settings from a file with this text, and nothing from options. -/
def TakesFile (files : String → Option String) (args : List String) (text : String) : Prop :=
  ∃ verbose path, Arguments.split args = .ok ⟨verbose, some path, []⟩ ∧ files path = some text

/-- **A command replays settings** that a file gives it. -/
structure Replays (s : Settings) (interrupted : Bool) (files : String → Option String)
    (args : List String) : Prop where
  /-- It makes a run with them: the file gives them, resolving leaves them as they are, and they
  have a plan. -/
  starts : ∃ a p log, Arguments.split args = .ok a ∧ fileSettings files a = some s ∧
    Settings.resolve s a.options = s ∧ Arena.plan? s = some p ∧
    command files interrupted args = (perform s p interrupted log).filterLog a.verbose
  /-- Its report shows them. -/
  shows : ∀ log r, command files interrupted args = .reported log r → r.settings = s
  /-- It comes to the report that another command came to with them. -/
  repeats : ∀ files₀ args₀ log₀ r, command files₀ interrupted args₀ = .reported log₀ r →
    r.settings = s → ∃ log, command files interrupted args = .reported log r
  /-- It comes to a report if they are bounded. -/
  reports : s.Bounded → ∃ log r, command files interrupted args = .reported log r

section Replay

variable {s : Settings} {files : String → Option String} {args : List String} {text : String}

/-- **The settings of runs are the valid ones**: a file may give any of them. -/
theorem Settings.exists_accepted_iff : (∃ p, s.Accepted p) ↔ s.Valid := by
  constructor
  · rintro ⟨p, h⟩
    exact ⟨h.holds, h.depth_pos, h.timeout_ge⟩
  · intro h
    obtain ⟨p, hp⟩ := h.exists_plan
    exact ⟨p, fun _ => some s.toJson.compact, ["--config", "f"], ⟨false, some "f", []⟩, s, rfl,
      h.ofText?_of_lays s.lays_compact, h.resolve_nil, hp⟩

/-- A report shows the settings of its run. -/
theorem settings_of_report {a : Arena} {r : Report} (h : a.report? s = some r) :
    r.settings = s := by
  unfold Arena.report? at h
  split at h
  · cases h
    rfl
  · cases h

/-- The printed report shows them one level down. -/
theorem Report.exists_pretty_eq (r : Report) :
    ∃ before after, r.toJson.pretty = before ++ r.settings.toJson.prettyAt 1 ++ after :=
  Json.exists_prettyAt_eq 0 List.mem_cons_self

section Perform

variable {p : Plan} {interrupted verbose : Bool} {log log' : List Logged} {r : Report}

/-- What a run reports is what its last moment shows. -/
theorem report_of_perform
    (h : (perform s p interrupted log).filterLog verbose = .reported log' r) :
    (Arena.sequential s p interrupted).report? s = some r := by
  unfold perform at h
  dsimp only at h
  split at h
  · cases h
  · rename_i hr
    cases h
    exact hr

/-- What its last moment shows is reported. -/
theorem exists_reported_of_report (h : (Arena.sequential s p interrupted).report? s = some r)
    (log : List Logged) (verbose : Bool) :
    ∃ log', (perform s p interrupted log).filterLog verbose = .reported log' r := by
  simp only [perform, h, Outcome.filterLog]
  exact ⟨_, rfl⟩

/-- **A run with bounded settings is reported.** -/
theorem exists_reported_of_perform (hp : Arena.plan? s = some p) (hb : s.Bounded)
    (interrupted : Bool) (log : List Logged) (verbose : Bool) :
    ∃ log' r, (perform s p interrupted log).filterLog verbose = .reported log' r := by
  obtain ⟨-, r, hr⟩ := Arena.sequential_reports hp hb interrupted
  obtain ⟨log', hlog⟩ := exists_reported_of_report hr log verbose
  exact ⟨log', r, hlog⟩

/-- **A command that comes to a report made a run** with the settings that the report shows. -/
theorem report_of_command (h : command files interrupted args = .reported log r) :
    ∃ p, Arena.plan? r.settings = some p ∧
      (Arena.sequential r.settings p interrupted).report? r.settings = some r := by
  unfold command at h
  split at h
  · cases h
  · cases h
  · cases h
  · unfold execute at h
    dsimp only at h
    split at h
    · cases h
    · split at h
      · cases h
      · rename_i p hp
        have hr := report_of_perform h
        rw [settings_of_report hr]
        exact ⟨p, hp, hr⟩

end Perform

/-- A command that takes valid settings from a file makes its run with them. -/
theorem command_of_takesFile (h : s.Valid) (hl : s.Lays text) (hf : TakesFile files args text)
    (interrupted : Bool) :
    ∃ a p log, Arguments.split args = .ok a ∧ fileSettings files a = some s ∧
      Settings.resolve s a.options = s ∧ Arena.plan? s = some p ∧
      command files interrupted args = (perform s p interrupted log).filterLog a.verbose := by
  obtain ⟨verbose, path, hsplit, hpath⟩ := hf
  obtain ⟨p, hp⟩ := h.exists_plan
  have hfile : fileSettings files ⟨verbose, some path, []⟩ = some s := by
    simp only [fileSettings, hpath, Option.bind_some, h.ofText?_of_lays hl]
  refine ⟨_, p, [say .debug ("starting (version=" ++ version ++ ")") []], hsplit, hfile,
    h.resolve_nil, hp, ?_⟩
  simp only [command, hsplit, execute, hfile, h.resolve_nil, hp]

/-- **A command that takes valid settings from a file replays them.** -/
theorem replays_of_takesFile (h : s.Valid) (hl : s.Lays text) (hf : TakesFile files args text)
    (interrupted : Bool) : Replays s interrupted files args := by
  obtain ⟨a, p, log, hsplit, hfile, hresolve, hp, hcommand⟩ :=
    command_of_takesFile h hl hf interrupted
  refine ⟨⟨a, p, log, hsplit, hfile, hresolve, hp, hcommand⟩, ?_, ?_, ?_⟩
  · intro log' r hr
    rw [hcommand] at hr
    exact settings_of_report (report_of_perform hr)
  · rintro files₀ args₀ log₀ r hr rfl
    obtain ⟨p', hp', hreport⟩ := report_of_command hr
    obtain rfl : p' = p := Option.some.inj (hp'.symm.trans hp)
    rw [hcommand]
    exact exists_reported_of_report hreport log a.verbose
  · intro hb
    rw [hcommand]
    exact exists_reported_of_perform hp hb interrupted log a.verbose

/-- **A reported configuration can be replayed.**  The settings that commands make runs with are
the valid ones, and every report of a run shows its settings, as an object within the printed text.
That object, in this layout or any other, is a settings file: a command that takes everything from
it gets the same settings, which resolving leaves as they are and which have a plan, so it makes a
run with them.  It comes to the very report that shows them, if that came from a command that was
interrupted as it is, and it comes to a report that shows them whenever they are bounded.  More
generally, a file that gives any of the fields numbers that they can hold, in any order and layout,
gives them exactly these, and the others their defaults. -/
theorem reported_settings_replay (s : Settings) (interrupted : Bool) :
    ((∃ p, s.Accepted p) ↔ s.Valid) ∧
    (∀ a r, Arena.report? s a = some r → r.settings = s ∧
      ∃ before after, r.toJson.pretty = before ++ s.toJson.prettyAt 1 ++ after) ∧
    s.Lays s.toJson.compact ∧ (∀ level, s.Lays (s.toJson.prettyAt level)) ∧
    (s.Valid → ∀ files args text, s.Lays text → TakesFile files args text →
      Replays s interrupted files args) ∧
    ∀ given text, Settings.Writable given → Json.LaysObject (Settings.members given) text.toList →
      ∃ r, Settings.ofText? text = some r ∧
        ∀ f, r.get f = (given.lookup f).getD (({} : Settings).get f) := by
  refine ⟨Settings.exists_accepted_iff, fun a r hr => ?_, s.lays_compact, s.lays_prettyAt,
    fun h files args text hl hf => replays_of_takesFile h hl hf interrupted,
    fun given text hw hl => Settings.ofText?_of_lays hw hl⟩
  have hs := settings_of_report hr
  exact ⟨hs, hs ▸ r.exists_pretty_eq⟩

/-- The largest words that run and the largest timeout, first as a compact file, and then in the
layout of the report of that run; and a file that gives two fields against their order. -/
theorem reported_settings_replay_of_largest :
    let s : Settings :=
      { enterers := maxWord, closers := maxWord, iterations := maxWord, depth := maxHeld,
        timeout := 9223372036854775807, spins := 18446744073709551614 }
    let args := ["--config", "f"]
    let files : String → Option String := fun _ => some s.toJson.compact
    let files' : String → Option String := fun _ => some (s.toJson.prettyAt 1)
    let given : List (Field × Int) := [(.timeout, -1), (.closers, 0)]
    let text := (Json.ofNumbers (Settings.members given)).pretty
    s.Valid ∧ s.Bounded ∧ TakesFile files args s.toJson.compact ∧
      TakesFile files' args (s.toJson.prettyAt 1) ∧
      (∃ log log' r, command files false args = .reported log r ∧ r.settings = s ∧
        command files' false args = .reported log' r) ∧
      text = "\x7b\n  \"timeout\": -1,\n  \"closers\": 0\n\x7d" ∧
      Settings.ofText? text = some { closers := 0, timeout := -1 } := by
  intro s args files files' given text
  have hvalid : s.Valid := ⟨by intro f; cases f <;> decide, by decide, by decide⟩
  have hbounded : s.Bounded := ⟨fun _ _ => by decide, fun _ _ => by decide⟩
  have htakes : TakesFile files args s.toJson.compact := ⟨false, "f", rfl, rfl⟩
  have htakes' : TakesFile files' args (s.toJson.prettyAt 1) := ⟨false, "f", rfl, rfl⟩
  have hgiven : Settings.Writable given := ⟨by decide, by decide⟩
  obtain ⟨-, -, hcompact, hpretty, hreplay, hread⟩ := reported_settings_replay s false
  have hfirst := hreplay hvalid files args _ hcompact htakes
  obtain ⟨log, r, hr⟩ := hfirst.reports hbounded
  have hsettings := hfirst.shows log r hr
  obtain ⟨log', hr'⟩ :=
    (hreplay hvalid files' args _ (hpretty 1) htakes').repeats files args log r hr hsettings
  obtain ⟨r', hread, hget⟩ := hread given text hgiven (Json.lays_prettyAt 0 _)
  have hrs : r' = { closers := 0, timeout := -1 } := by
    refine Settings.ext_get fun f => ?_
    rw [hget]
    cases f <;> rfl
  exact ⟨hvalid, hbounded, htakes, htakes', ⟨log, log', r, hr, hsettings, hr'⟩, by decide +kernel,
    hread.trans (congrArg some hrs)⟩

end Replay

end ReentrantGate.Stress
