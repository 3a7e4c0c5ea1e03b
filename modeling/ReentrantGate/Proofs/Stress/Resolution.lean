/-
**Settings are resolved field by field.**

Three layers may give a field its number: the option, the settings file, and the defaults.  The
option counts if its text is a number that the field can hold; otherwise the next layer is asked,
without a word.  So each field is settled by its own option alone, the order of the options does not
matter, and a number in the file does no harm once an option replaces it.

Main definitions:

* `Stress.Field.Reads` — a text gives a field a number;
* `Stress.Settings.given?`, `Stress.fileNumber?` — the number that a file gives a field;
* `Stress.Settles` — the number of a field by its layers;
* `Stress.Settings.Accepted` — settings that a command makes a run with.

Main results:

* `Stress.Field.ofText?_eq_some_iff` — the texts that are numbers;
* `Stress.Settings.get_ofJson` — a file settles the fields that it names;
* `Stress.Arguments.nodup_of_split` — no option is given twice;
* `Stress.get_resolve` — **each field is settled by its own layers**;
* `Stress.settings_resolve_field_by_field` — what the command does with that;
* `Stress.Settings.Accepted.holds` — the fields of a run can hold their numbers.
-/

import Mathlib.Data.List.Nodup
import ReentrantGate.Proofs.Json.Layout
import ReentrantGate.Stress.Command

set_option relaxedAutoImplicit false
set_option autoImplicit false

namespace ReentrantGate.Stress

/-! ### Numbers in options -/

namespace Field

/-- The signs that may stand before the digits of a number for a field. -/
def signs : Field → List (List Char)
  | timeout => [[], ['+'], ['-']]
  | _ => [[], ['+']]

/-- **A text gives a field a number**: it is a sign that the field knows and one or more digits,
nothing else, and the field can hold their value. -/
def Reads (f : Field) (text : String) (n : Int) : Prop :=
  ∃ sign ∈ f.signs, ∃ digits : List Char, text.toList = sign ++ digits ∧ digits ≠ [] ∧
    (∀ c ∈ digits, c.isDigit = true) ∧
    n = (if sign = ['-'] then -1 else 1) * (Nat.ofDigitChars 10 digits 0 : Int) ∧
    f.holds n = true

variable {f : Field} {text : String} {n : Int}

theorem nil_mem_signs (f : Field) : [] ∈ f.signs := by
  cases f <;> exact List.mem_cons_self

/-- A sign is one character, and no digit. -/
theorem sign_cases {sign : List Char} (h : sign ∈ f.signs) :
    sign = [] ∨ ∃ c, sign = [c] ∧ c.isDigit = false := by
  have hall : sign = [] ∨ sign = ['+'] ∨ sign = ['-'] := by
    cases f <;> simp only [signs, List.mem_cons, List.not_mem_nil, or_false] at h
    all_goals tauto
  rcases hall with rfl | rfl | rfl
  · exact .inl rfl
  · exact .inr ⟨'+', rfl, rfl⟩
  · exact .inr ⟨'-', rfl, rfl⟩

/-- A text that starts with a sign is read from there. -/
theorem reads_of_sign {c : Char} {ds : List Char} (htext : text.toList = c :: ds)
    (hc : [c] ∈ f.signs) : f.Reads text n ↔ f.holds n = true ∧
      ∃ k, Json.decimal? ds = some k ∧ n = (if c = '-' then -1 else 1) * (k : Int) := by
  constructor
  · rintro ⟨sign, hsign, digits, hsplit, hne, hdigits, hn, hholds⟩
    rw [htext] at hsplit
    rcases sign_cases hsign with rfl | ⟨d, rfl, -⟩
    · rw [List.nil_append] at hsplit
      -- the sign is no digit, so it cannot be the first of the digits
      obtain ⟨e, he, hsign⟩ : ∃ e, [c] = [e] ∧ e.isDigit = false :=
        (sign_cases hc).resolve_left (by simp)
      obtain rfl := List.singleton_inj.1 he
      have hdigit := hdigits c (by simp [← hsplit])
      rw [hsign] at hdigit
      cases hdigit
    · obtain ⟨rfl, rfl⟩ := List.cons.inj hsplit
      refine ⟨hholds, _, Json.decimal?_eq_some_iff.2 ⟨hne, hdigits, rfl⟩, ?_⟩
      simpa only [List.cons.injEq, and_true] using hn
  · rintro ⟨hholds, k, hk, hn⟩
    obtain ⟨hne, hdigits, rfl⟩ := Json.decimal?_eq_some_iff.1 hk
    exact ⟨[c], hc, ds, htext, hne, hdigits, by simpa only [List.cons.injEq, and_true] using hn,
      hholds⟩

/-- A text that starts with no sign is read from its front. -/
theorem reads_of_unsigned (h : ∀ c ds, [c] ∈ f.signs → text.toList ≠ c :: ds) :
    f.Reads text n ↔
      f.holds n = true ∧ ∃ k, Json.decimal? text.toList = some k ∧ n = (k : Int) := by
  constructor
  · rintro ⟨sign, hsign, digits, hsplit, hne, hdigits, hn, hholds⟩
    rcases sign_cases hsign with rfl | ⟨c, rfl, -⟩
    · rw [List.nil_append] at hsplit
      rw [hsplit]
      exact ⟨hholds, _, Json.decimal?_eq_some_iff.2 ⟨hne, hdigits, rfl⟩, by simpa using hn⟩
    · exact absurd hsplit (h c digits hsign)
  · rintro ⟨hholds, k, hk, hn⟩
    obtain ⟨hne, hdigits, rfl⟩ := Json.decimal?_eq_some_iff.1 hk
    exact ⟨[], nil_mem_signs f, text.toList, rfl, hne, hdigits, by simpa using hn, hholds⟩

/-- The digits that pass a test on their value. -/
theorem filter_decimal {digits : List Char} {g : Nat → Int} {p : Int → Bool} :
    ((Json.decimal? digits).map g).filter p = some n ↔
      p n = true ∧ ∃ k, Json.decimal? digits = some k ∧ n = g k := by
  rw [Option.filter_eq_some_iff, Option.map_eq_some_iff, and_comm]
  refine and_congr_right fun _ => exists_congr fun k => and_congr_right fun _ => eq_comm

theorem word?_eq_some_iff (hf : f ≠ timeout) : word? text = some n ↔ f.Reads text n := by
  have hholds : f.holds = isWord := by cases f <;> first | rfl | exact absurd rfl hf
  have hsigns : f.signs = [[], ['+']] := by cases f <;> first | rfl | exact absurd rfl hf
  unfold word?
  split
  · rename_i ds htext
    have hplus : ['+'] ∈ f.signs := by simp [hsigns]
    simp only [filter_decimal, reads_of_sign htext hplus, hholds]
    simp
  · rename_i hplus
    have hunsigned : ∀ c ds, [c] ∈ f.signs → text.toList ≠ c :: ds := by
      intro c ds hc htext
      obtain rfl : c = '+' := by simpa [hsigns] using hc
      exact hplus ds htext
    simp only [filter_decimal, reads_of_unsigned hunsigned, hholds]
    rfl

theorem signed?_eq_some_iff : signed? text = some n ↔ timeout.Reads text n := by
  unfold signed?
  split
  · rename_i ds htext
    rw [filter_decimal, reads_of_sign htext (by decide)]
    simp [holds]
  · rename_i ds htext
    rw [filter_decimal, reads_of_sign htext (by decide)]
    simp [holds]
  · rename_i hminus hplus
    rw [filter_decimal, reads_of_unsigned]
    · rfl
    · intro c ds hc htext
      have hsign : c = '+' ∨ c = '-' := by simpa [signs] using hc
      rcases hsign with rfl | rfl
      · exact hplus ds htext
      · exact hminus ds htext

/-- **A text gives a field exactly the number that it reads.** -/
theorem ofText?_eq_some_iff : f.ofText? text = some n ↔ f.Reads text n := by
  by_cases hf : f = timeout
  · rw [hf]
    exact signed?_eq_some_iff
  · have hword : f.ofText? = word? := by cases f <;> first | rfl | exact absurd rfl hf
    rw [hword]
    exact word?_eq_some_iff hf

/-! ### Names -/

theorem ofName?_eq_some_iff {name : String} : ofName? name = some f ↔ f.name = name := by
  constructor
  · intro h
    simpa using List.find?_some h
  · rintro rfl
    cases f <;> decide

theorem mem_all (f : Field) : f ∈ all := by
  cases f <;> decide

theorem nodup_all : all.Nodup := by decide

end Field

/-! ### Settings files -/

namespace Settings

/-- Whether the key of a member is the name of a field. -/
def names (key : String) (f : Field) : Bool :=
  (Json.unescape key.toList).map String.ofList = some f.name

/-- **The number that a settings file gives a field**, if it names it: an object by its keys, an
array by the order of the fields. -/
def given? : Json → Field → Option Int
  | .object members, f => (members.find? fun m => names m.1 f).bind fun m => number? f m.2
  | .array items, f => items[Field.all.idxOf f]?.bind (number? f)
  | _, _ => none

variable {s r : Settings} {f g : Field} {n : Int}

theorem holds_of_number {v : Json} (h : number? f v = some n) : f.holds n = true :=
  (Option.filter_eq_some_iff.1 h).2

/-- Settings are what they have in their fields. -/
theorem ext_get (h : ∀ f, s.get f = r.get f) : s = r := by
  cases s
  cases r
  have h₁ := h .enterers
  have h₂ := h .closers
  have h₃ := h .iterations
  have h₄ := h .depth
  have h₅ := h .timeout
  have h₆ := h .spins
  simp only [get, Int.natCast_inj] at h₁ h₂ h₃ h₄ h₅ h₆
  simp only [h₁, h₂, h₃, h₄, h₅, h₆]

/-- **Members settle the fields that they name**, apart from those that were given before. -/
theorem get_ofMembers {given : List Field} {ms : List (String × Json)}
    (h : ofMembers? s given ms = some r) (g : Field) :
    r.get g = if g ∈ given then s.get g else
      ((ms.find? fun m => names m.1 g).bind fun m => number? g m.2).getD (s.get g) := by
  induction ms generalizing s given with
  | nil =>
      cases h
      simp
  | cons m ms ih =>
      obtain ⟨content, v⟩ := m
      simp only [ofMembers?] at h
      split at h
      · cases h
      · rename_i key hkey
        have hnames : ∀ f, names content f = true ↔ String.ofList key = f.name := by
          intro f
          simp [names, hkey]
        split at h
        · rename_i hno
          -- a key that names no field does not name this one
          have hg : names content g = false := by
            rw [Bool.eq_false_iff, ne_eq, hnames]
            intro heq
            rw [Field.ofName?_eq_some_iff.2 heq.symm] at hno
            cases hno
          rw [ih h, List.find?_cons, hg]
        · rename_i f hf
          rw [Field.ofName?_eq_some_iff] at hf
          split at h
          · cases h
          · rename_i hnew
            obtain ⟨n, hn, h⟩ := Option.bind_eq_some_iff.1 h
            rw [ih h, get_put s (holds_of_number hn), List.find?_cons]
            by_cases hgf : g = f
            · subst hgf
              have hg : names content g = true := (hnames g).2 hf.symm
              simp [hg, hnew, hn]
            · have hg : names content g = false := by
                rw [Bool.eq_false_iff, ne_eq, hnames, ← hf]
                intro heq
                have hfield := Field.ofName?_eq_some_iff.2 heq.symm
                rw [Field.ofName?_eq_some_iff.2 rfl] at hfield
                exact hgf (Option.some.inj hfield).symm
              simp only [List.mem_cons, hgf, false_or, hg, if_false]

/-- **Items settle the fields in their order.** -/
theorem get_ofItems {fs : List Field} {vs : List Json} (hn : fs.Nodup)
    (h : ofItems? s fs vs = some r) (g : Field) :
    r.get g = if g ∈ fs then (vs[fs.idxOf g]?.bind (number? g)).getD (s.get g) else s.get g := by
  induction vs generalizing s fs with
  | nil =>
      cases fs <;>
      · cases h
        simp
  | cons v vs ih =>
      cases fs with
      | nil => cases h
      | cons f fs =>
          obtain ⟨hf, hn⟩ := List.nodup_cons.1 hn
          obtain ⟨n, hnum, h⟩ := Option.bind_eq_some_iff.1 h
          rw [ih hn h, get_put s (holds_of_number hnum)]
          by_cases hgf : g = f
          · subst hgf
            simp [hf, hnum]
          · have hfg : (f == g) = false := by simpa using Ne.symm hgf
            simp [hgf, List.idxOf_cons, hfg]

/-- **A settings file settles the fields that it names**, and leaves the others at their
defaults. -/
theorem get_ofJson {v : Json} (h : ofJson? v = some s) (f : Field) :
    s.get f = (given? v f).getD (({} : Settings).get f) := by
  cases v with
  | object members =>
      rw [get_ofMembers h]
      simp [given?]
  | array items =>
      rw [get_ofItems Field.nodup_all h, if_pos (Field.mem_all f)]
      rfl
  | _ => cases h

/-! ### Options on top of a file -/

theorem get_override (s : Settings) (f : Field) (text : String) (g : Field) :
    (s.override f text).get g = if g = f then (f.ofText? text).getD (s.get g) else s.get g := by
  unfold override
  split
  · rename_i hno
    simp [hno]
  · rename_i n hn
    obtain ⟨-, -, -, -, -, -, -, hholds⟩ := Field.ofText?_eq_some_iff.1 hn
    rw [get_put s hholds, hn, Option.getD_some]

/-- Options that are given once each settle their own fields. -/
theorem get_foldl_override {options : List (Field × String)} (hn : (options.map (·.1)).Nodup)
    (file : Settings) (g : Field) :
    (options.foldl (fun s o => s.override o.1 o.2) file).get g =
      ((options.lookup g).bind g.ofText?).getD (file.get g) := by
  induction options generalizing file with
  | nil => simp
  | cons o options ih =>
      obtain ⟨f, text⟩ := o
      rw [List.map_cons, List.nodup_cons] at hn
      rw [List.foldl_cons, ih hn.2, get_override, List.lookup_cons]
      by_cases hgf : g = f
      · subst hgf
        -- the same option does not come again
        have hnone : options.lookup g = none := by
          refine List.lookup_eq_none_iff.2 fun o ho => ?_
          have hmem : o.1 ∈ options.map (·.1) := List.mem_map_of_mem ho
          have hne : g ≠ o.1 := by
            intro heq
            rw [← heq] at hmem
            exact hn.1 hmem
          simpa using hne
        simp [hnone]
      · have hbeq : (g == f) = false := by simpa using hgf
        simp only [hgf, if_false, hbeq]

/-- What becomes of the number of a field at the end: there is at least one entry at a time. -/
def raised (f : Field) (n : Int) : Int := if f = .depth then max 1 n else n

theorem get_raiseDepth (s : Settings) (f : Field) : s.raiseDepth.get f = raised f (s.get f) := by
  cases f with
  | depth =>
      simp only [raised, raiseDepth, get, if_true]
      omega
  | _ => rfl

end Settings

/-! ### Command lines -/

namespace Arguments

variable {a a' : Arguments}

theorem nodup_of_add (hn : (a.options.map (·.1)).Nodup) {given : Given}
    (h : a.add given = some a') : (a'.options.map (·.1)).Nodup := by
  unfold add at h
  split at h
  · split at h
    · cases h
    · cases h
      exact hn
  · cases h
  · split at h
    · cases h
    · cases h
      exact hn
  · rename_i f text
    split at h
    · cases h
    · rename_i hany
      cases h
      have hnew : f ∉ a.options.map (·.1) := by
        intro hf
        obtain ⟨o, ho, rfl⟩ := List.mem_map.1 hf
        exact hany (List.any_eq_true.2 ⟨o, ho, by simp⟩)
      rw [List.map_append, List.map_singleton]
      exact hn.append (List.nodup_singleton f) (List.disjoint_singleton.2 hnew)

/-- **No field is given twice on a command line.** -/
theorem nodup_of_split {args : List String} (h : split args = .ok a) :
    (a.options.map (·.1)).Nodup := by
  have hfold : ∀ (given : List Given) (a₀ : Arguments), (a₀.options.map (·.1)).Nodup →
      given.foldlM add a₀ = some a → (a.options.map (·.1)).Nodup := by
    intro given
    induction given with
    | nil =>
        intro a₀ hn hfold
        cases hfold
        exact hn
    | cons g given ih =>
        intro a₀ hn hfold
        obtain ⟨a₁, ha, hfold⟩ := Option.bind_eq_some_iff.1 hfold
        exact ih a₁ (nodup_of_add hn ha) hfold
  cases hg : splitAll none args with
  | error stop => simp [split, hg, Bind.bind, Except.bind] at h
  | ok given =>
      cases hf : given.foldlM add {} with
      | none => simp [split, hg, hf, Bind.bind, Except.bind] at h
      | some a₁ =>
          obtain rfl : a₁ = a := by
            simpa [split, hg, hf, Bind.bind, Except.bind, pure, Except.pure] using h
          exact hfold given {} List.nodup_nil hf

/-- The settings file that is named cannot be read, or is none. -/
def Unloadable (files : String → Option String) (a : Arguments) : Prop :=
  ∃ path, a.config = some path ∧ ∀ text, files path = some text → Settings.ofText? text = none

end Arguments

section Layers

variable {files : String → Option String} {a a' : Arguments} {args args' : List String}
  {file : Settings} {f : Field} {n : Int}

theorem fileSettings_eq_none_iff : fileSettings files a = none ↔ a.Unloadable files := by
  unfold fileSettings Arguments.Unloadable
  cases a.config with
  | none => simp
  | some path => simp [Option.bind_eq_none_iff]

/-- The number that the settings file gives a field, if there is a file and it names the field. -/
def fileNumber? (files : String → Option String) (a : Arguments) (f : Field) : Option Int :=
  a.config.bind fun path => (files path).bind fun text =>
    (Json.read text).bind fun v => Settings.given? v f

theorem get_fileSettings (h : fileSettings files a = some file) (f : Field) :
    file.get f = (fileNumber? files a f).getD (({} : Settings).get f) := by
  unfold fileSettings at h
  unfold fileNumber?
  cases hc : a.config with
  | none =>
      rw [hc] at h
      cases h
      rfl
  | some path =>
      rw [hc] at h
      obtain ⟨text, htext, h⟩ := Option.bind_eq_some_iff.1 h
      obtain ⟨v, hv, h⟩ := Option.bind_eq_some_iff.1 h
      simp only [Option.bind_some, htext, hv]
      exact Settings.get_ofJson h f

/-- **The number of a field by its layers**: the option, if its text is a number; otherwise the
file, if it names the field; otherwise the default. -/
inductive Settles (files : String → Option String) (a : Arguments) (f : Field) : Int → Prop
  | option {text : String} {n : Int} : a.options.lookup f = some text → f.Reads text n →
      Settles files a f n
  | file {n : Int} : (∀ text, a.options.lookup f = some text → ∀ k, ¬f.Reads text k) →
      fileNumber? files a f = some n → Settles files a f n
  | default : (∀ text, a.options.lookup f = some text → ∀ k, ¬f.Reads text k) →
      fileNumber? files a f = none → Settles files a f (({} : Settings).get f)

/-- The number that the option of a field gives it, if it is given and its text is a number. -/
def Arguments.number? (a : Arguments) (f : Field) : Option Int :=
  (a.options.lookup f).bind f.ofText?

theorem number?_eq_none_iff : a.number? f = none ↔
    ∀ text, a.options.lookup f = some text → ∀ k, ¬f.Reads text k := by
  unfold Arguments.number?
  cases a.options.lookup f with
  | none => simp
  | some text =>
      simp only [Option.bind_some, Option.some.injEq, forall_eq', ← Field.ofText?_eq_some_iff]
      exact Option.eq_none_iff_forall_ne_some

/-- **The layers settle a field** on one number. -/
theorem settles_iff : Settles files a f n ↔
    n = ((a.number? f).or (fileNumber? files a f)).getD (({} : Settings).get f) := by
  cases hnumber : a.number? f with
  | some k =>
      obtain ⟨text, htext, hk⟩ := Option.bind_eq_some_iff.1 hnumber
      constructor
      · rintro (⟨htext', hreads⟩ | ⟨hno, -⟩ | ⟨hno, -⟩)
        · rw [htext] at htext'
          cases htext'
          rw [Field.ofText?_eq_some_iff.2 hreads] at hk
          exact Option.some.inj hk
        · exact absurd (Field.ofText?_eq_some_iff.1 hk) (hno text htext k)
        · exact absurd (Field.ofText?_eq_some_iff.1 hk) (hno text htext k)
      · rintro rfl
        exact .option htext (Field.ofText?_eq_some_iff.1 hk)
  | none =>
      have hno := number?_eq_none_iff.1 hnumber
      constructor
      · rintro (⟨htext, hreads⟩ | ⟨-, hfile⟩ | ⟨-, hfile⟩)
        · exact absurd hreads (hno _ htext n)
        · simp [hfile]
        · simp [hfile]
      · rintro rfl
        cases hfile : fileNumber? files a f with
        | some k => exact .file hno hfile
        | none => exact .default hno hfile

/-- Some number settles each field. -/
theorem exists_settles (files : String → Option String) (a : Arguments) (f : Field) :
    ∃ n, Settles files a f n :=
  ⟨_, settles_iff.2 rfl⟩

/-- **Each field is settled by its own layers**, and at the end the depth is raised. -/
theorem get_resolve (h : Arguments.split args = .ok a) (hf : fileSettings files a = some file)
    (hs : Settles files a f n) :
    (Settings.resolve file a.options).get f = Settings.raised f n := by
  rw [Settings.resolve, Settings.get_raiseDepth,
    Settings.get_foldl_override (Arguments.nodup_of_split h), get_fileSettings hf, settles_iff.1 hs]
  change Settings.raised f ((a.number? f).getD _) = _
  cases a.number? f <;> rfl

/-- A field that two command lines leave to the same option has the same number in both. -/
theorem get_resolve_congr (h : Arguments.split args = .ok a) (h' : Arguments.split args' = .ok a')
    (hl : a'.options.lookup f = a.options.lookup f) :
    (Settings.resolve file a'.options).get f = (Settings.resolve file a.options).get f := by
  simp only [Settings.resolve, Settings.get_raiseDepth,
    Settings.get_foldl_override (Arguments.nodup_of_split h),
    Settings.get_foldl_override (Arguments.nodup_of_split h'), hl]

/-! ### What the command does -/

/-- There is a plan exactly for the timeouts in the signed convention. -/
theorem plan?_eq_none_iff {s : Settings} : Arena.plan? s = none ↔ s.timeout < -1 := by
  rw [Arena.plan?, Option.map_eq_none_iff, Timeout.ofMillis?]
  split
  · simp
    omega
  · split
    · simp
      omega
    · simp
      omega

/-- A run that is made is no failure before the run. -/
theorem perform_ne_failed (s : Settings) (p : Plan) (interrupted : Bool) (log log' : List Logged)
    (verbose : Bool) :
    ((perform s p interrupted log).filterLog verbose) ≠ .failed log' := by
  unfold perform
  dsimp only
  split <;> simp [Outcome.filterLog]

/-- **Settings are resolved field by field.**  Let a command line be split.  If the settings file
that it names cannot be loaded, the command fails with code one, whatever the options are.
Otherwise each field is settled by its option, the file or the default, in this order, and

* the command fails before its run, with code one, exactly if the timeout is then below `-1`, and
  makes a run with these settings otherwise; so a file with such a timeout does no harm if the
  option of the timeout is a number from `-1` on;
* another command line with the same file that differs in the option of one field resolves the
  other fields to the same numbers, and one that only has its options in another order resolves
  all of them so. -/
theorem settings_resolve_field_by_field (files : String → Option String) (interrupted : Bool)
    (h : Arguments.split args = .ok a) :
    (a.Unloadable files → (∃ log, command files interrupted args = .failed log) ∧
      (command files interrupted args).code? = some 1) ∧
    (¬a.Unloadable files → ∃ file, fileSettings files a = some file ∧
      (∀ f n, Settles files a f n →
        (Settings.resolve file a.options).get f = Settings.raised f n) ∧
      (∀ f, ∃ n, Settles files a f n) ∧
      ((∃ log, command files interrupted args = .failed log) ↔
        (Settings.resolve file a.options).timeout < -1) ∧
      ((Settings.resolve file a.options).timeout < -1 →
        (command files interrupted args).code? = some 1) ∧
      (-1 ≤ (Settings.resolve file a.options).timeout → ∃ p log,
        Arena.plan? (Settings.resolve file a.options) = some p ∧
        command files interrupted args =
          (perform (Settings.resolve file a.options) p interrupted log).filterLog a.verbose) ∧
      (∀ text n, a.options.lookup .timeout = some text → Field.timeout.Reads text n → -1 ≤ n →
        ¬∃ log, command files interrupted args = .failed log) ∧
      (∀ args' a' f, Arguments.split args' = .ok a' →
        (∀ g, g ≠ f → a'.options.lookup g = a.options.lookup g) → ∀ g, g ≠ f →
          (Settings.resolve file a'.options).get g = (Settings.resolve file a.options).get g) ∧
      ∀ args' a', Arguments.split args' = .ok a' →
        (∀ g, a'.options.lookup g = a.options.lookup g) →
          Settings.resolve file a'.options = Settings.resolve file a.options) := by
  have hcommand : command files interrupted args =
      (execute files interrupted a).filterLog a.verbose := by
    rw [command, h]
  refine ⟨fun hun => ?_, fun hload => ?_⟩
  · rw [hcommand, execute, fileSettings_eq_none_iff.2 hun]
    exact ⟨⟨_, rfl⟩, rfl⟩
  · obtain ⟨file, hfile⟩ : ∃ file, fileSettings files a = some file :=
      Option.ne_none_iff_exists'.1 fun hnone => hload (fileSettings_eq_none_iff.1 hnone)
    have hbad : (Settings.resolve file a.options).timeout < -1 →
        (∃ log, command files interrupted args = .failed log) ∧
          (command files interrupted args).code? = some 1 := by
      intro hlt
      rw [hcommand, execute, hfile]
      simp only [plan?_eq_none_iff.2 hlt]
      exact ⟨⟨_, rfl⟩, rfl⟩
    have hgood : -1 ≤ (Settings.resolve file a.options).timeout → ∃ p log,
        Arena.plan? (Settings.resolve file a.options) = some p ∧
        command files interrupted args =
          (perform (Settings.resolve file a.options) p interrupted log).filterLog a.verbose := by
      intro hle
      obtain ⟨p, hp⟩ := Option.ne_none_iff_exists'.1
        fun hnone => absurd (plan?_eq_none_iff.1 hnone) (Int.not_lt.2 hle)
      refine ⟨p, [say .debug ("starting (version=" ++ version ++ ")") []], hp, ?_⟩
      rw [hcommand, execute, hfile]
      simp only [hp]
    have hiff : (∃ log, command files interrupted args = .failed log) ↔
        (Settings.resolve file a.options).timeout < -1 := by
      refine ⟨fun ⟨log, hlog⟩ => ?_, fun hlt => (hbad hlt).1⟩
      by_contra hno
      obtain ⟨p, log', -, hperform⟩ := hgood (by omega)
      exact perform_ne_failed _ _ _ _ _ _ (hperform.symm.trans hlog)
    refine ⟨file, hfile, fun f n hs => get_resolve h hfile hs, fun f => exists_settles files a f,
      hiff, fun hlt => (hbad hlt).2, hgood, fun text n htext hreads hn => ?_, ?_, ?_⟩
    · rw [hiff]
      have htimeout : (Settings.resolve file a.options).timeout = n :=
        get_resolve h hfile (.option htext hreads)
      omega
    · exact fun args' a' f h' hl g hg => get_resolve_congr h h' (hl g hg)
    · exact fun args' a' h' hl => Settings.ext_get fun g => get_resolve_congr h h' (hl g)

/-- The file has a timeout that is none, and a depth of zero; the options give the timeout again, a
depth that is no number, and the enterers with a sign. -/
theorem settings_resolve_field_by_field_over_file :
    let files : String → Option String := fun _ =>
      some "\x7b\"timeout\": -7, \"depth\": 0, \"spins\": 9\x7d"
    let args : List String := ["--config", "f", "-t", "5", "--depth", "x", "-e+7"]
    let a : Arguments :=
      { config := some "f", options := [(.timeout, "5"), (.depth, "x"), (.enterers, "+7")] }
    Arguments.split args = .ok a ∧ ¬a.Unloadable files ∧ ∃ file,
      fileSettings files a = some file ∧ file.timeout = -7 ∧ file.depth = 0 ∧
      Settings.resolve file a.options =
        { enterers := 7, closers := 2, iterations := 10000, depth := 1, timeout := 5, spins := 9 } ∧
      ¬∃ log, command files false args = .failed log := by
  intro files args a
  have hsplit : Arguments.split args = .ok a := by rfl
  have hfile : fileSettings files a = some { timeout := -7, depth := 0, spins := 9 } := by
    decide +kernel
  have hload : ¬a.Unloadable files := by
    rw [← fileSettings_eq_none_iff, hfile]
    simp
  obtain ⟨file, hfile', -, -, hiff, -⟩ :=
    (settings_resolve_field_by_field files false hsplit).2 hload
  rw [hfile] at hfile'
  cases hfile'
  have hresolve : Settings.resolve { timeout := -7, depth := 0, spins := 9 } a.options =
      { enterers := 7, closers := 2, iterations := 10000, depth := 1, timeout := 5,
        spins := 9 } := by
    decide +kernel
  refine ⟨hsplit, hload, _, hfile, rfl, rfl, hresolve, ?_⟩
  rw [hiff, hresolve]
  decide

end Layers

/-! ### Settings of a run -/

namespace Settings

/-- **Settings that a command makes a run with**, and the plan of the run. -/
def Accepted (s : Settings) (p : Plan) : Prop :=
  ∃ files args a file, Arguments.split args = .ok a ∧ fileSettings files a = some file ∧
    resolve file a.options = s ∧ Arena.plan? s = some p

theorem holds_of_given {v : Json} {f : Field} {n : Int} (h : given? v f = some n) :
    f.holds n = true := by
  cases v with
  | object members =>
      obtain ⟨m, -, hm⟩ := Option.bind_eq_some_iff.1 h
      exact holds_of_number hm
  | array items =>
      obtain ⟨v, -, hv⟩ := Option.bind_eq_some_iff.1 h
      exact holds_of_number hv
  | _ => cases h

/-- **Whatever layer a number comes from, its field can hold it.** -/
theorem holds_of_settles {files : String → Option String} {a : Arguments} {f : Field} {n : Int}
    (h : Settles files a f n) : f.holds n = true := by
  cases h with
  | option _ hreads =>
      obtain ⟨-, -, -, -, -, -, -, hholds⟩ := hreads
      exact hholds
  | file _ hfile =>
      obtain ⟨path, -, h⟩ := Option.bind_eq_some_iff.1 hfile
      obtain ⟨text, -, h⟩ := Option.bind_eq_some_iff.1 h
      obtain ⟨v, -, h⟩ := Option.bind_eq_some_iff.1 h
      exact holds_of_given h
  | default _ _ => cases f <;> decide

theorem holds_raised {f : Field} {n : Int} (h : f.holds n = true) :
    f.holds (raised f n) = true := by
  cases f with
  | depth =>
      have hone : isWord 1 = true := by decide
      rcases Int.le_total 1 n with hn | hn
      · rw [raised, if_pos rfl, Int.max_eq_right hn]
        exact h
      · rw [raised, if_pos rfl, Int.max_eq_left hn]
        exact hone
  | _ => exact h

namespace Accepted

variable {s : Settings} {p : Plan}

/-- **The fields of a run can hold their numbers.** -/
theorem holds (h : s.Accepted p) (f : Field) : f.holds (s.get f) = true := by
  obtain ⟨files, args, a, file, hsplit, hfile, rfl, -⟩ := h
  obtain ⟨n, hn⟩ := exists_settles files a f
  rw [get_resolve hsplit hfile hn]
  exact holds_raised (holds_of_settles hn)

theorem depth_pos (h : s.Accepted p) : 1 ≤ s.depth := by
  obtain ⟨files, args, a, file, -, -, rfl, -⟩ := h
  exact Nat.le_max_left 1 _

theorem timeout_ge (h : s.Accepted p) : -1 ≤ s.timeout := by
  obtain ⟨files, args, a, file, -, -, -, hp⟩ := h
  by_contra hno
  rw [plan?_eq_none_iff.2 (by omega)] at hp
  cases hp

theorem plan (h : s.Accepted p) : Arena.plan? s = some p := by
  obtain ⟨files, args, a, file, -, -, -, hp⟩ := h
  exact hp

end Accepted

end Settings

end ReentrantGate.Stress
