/-
**Objects of numbers in any layout.**

A number in decimal is read back as it is printed, however large it is.  The same holds of an
object whose members are numbers, wherever blanks are put between its parts.  The two printed forms,
without blanks and on several lines, are two of these layouts.

Main definitions:

* `Json.Blanks`, `Json.Plain` — runs of blanks, and keys without escapes;
* `Json.LaysMembers`, `Json.LaysObject` — the texts of an object of numbers;
* `Json.ofNumbers` — the object itself.

Main results:

* `Json.decimal?_eq_some_iff` — the value of a run of digits;
* `Json.integer?_ofInt`, `Json.readNumber_toString` — **a printed number is read back**;
* `Json.read_of_lays` — **an object of numbers is read from each of its layouts**;
* `Json.lays_compact`, `Json.lays_prettyAt` — the printed forms are layouts;
* `Json.exists_prettyAt_eq` — the value of a member is part of what is printed.
-/

import Mathlib.Data.List.TakeDrop
import Mathlib.Data.List.TakeWhile
import Mathlib.Tactic.Common
import ReentrantGate.Json.Reader

set_option relaxedAutoImplicit false
set_option autoImplicit false

namespace ReentrantGate.Json

/-! ### Decimal numbers -/

/-- One digit more at the end of a number. -/
def addDigit (value : Option Nat) (c : Char) : Option Nat :=
  value.bind fun v => if c.isDigit then some (v * 10 + (c.toNat - '0'.toNat)) else none

theorem addDigit_some {c : Char} (hc : c.isDigit = true) (v : Nat) :
    addDigit (some v) c = some (10 * v + (c.toNat - '0'.toNat)) := by
  rw [addDigit, Option.bind_some, if_pos hc, Nat.mul_comm]

theorem foldl_addDigit_none (cs : List Char) : cs.foldl addDigit none = none := by
  induction cs with
  | nil => rfl
  | cons c cs ih => exact ih

/-- Digit by digit a run of digits comes to its value, and other characters spoil it. -/
theorem foldl_addDigit {cs : List Char} {v n : Nat} :
    cs.foldl addDigit (some v) = some n ↔
      (∀ c ∈ cs, c.isDigit = true) ∧ Nat.ofDigitChars 10 cs v = n := by
  induction cs generalizing v with
  | nil => simp [Nat.ofDigitChars]
  | cons c cs ih =>
      rw [List.foldl_cons, List.forall_mem_cons]
      by_cases hc : c.isDigit = true
      · rw [addDigit_some hc, ih, Nat.ofDigitChars_cons]
        simp only [hc, true_and]
      · have hnone : addDigit (some v) c = none := by simp [addDigit, hc]
        simp [hnone, foldl_addDigit_none, hc]

/-- **A run of digits has its value to base ten**, and nothing else has a value. -/
theorem decimal?_eq_some_iff {cs : List Char} {n : Nat} :
    decimal? cs = some n ↔
      cs ≠ [] ∧ (∀ c ∈ cs, c.isDigit = true) ∧ Nat.ofDigitChars 10 cs 0 = n := by
  cases cs with
  | nil => simp [decimal?]
  | cons c cs =>
      rw [and_iff_right (List.cons_ne_nil c cs)]
      exact foldl_addDigit

theorem digits_ne_nil (n : Nat) : Nat.toDigits 10 n ≠ [] :=
  Nat.toDigits_ne_nil

theorem isDigit_of_mem_digits {n : Nat} {c : Char} (h : c ∈ Nat.toDigits 10 n) :
    c.isDigit = true :=
  Nat.isDigit_of_mem_toDigits (by decide) (by decide) h

theorem decimal?_digits (n : Nat) : decimal? (Nat.toDigits 10 n) = some n :=
  decimal?_eq_some_iff.2
    ⟨digits_ne_nil n, fun _ => isDigit_of_mem_digits, Nat.ofDigitChars_ten_toDigits⟩

/-- The digits of a positive number do not start with a zero. -/
theorem head_digits {n : Nat} (h : 0 < n) : ∀ cs, Nat.toDigits 10 n ≠ '0' :: cs := by
  induction n using Nat.strongRecOn with
  | ind n ih =>
      intro cs heq
      by_cases hn : n < 10
      · rw [Nat.toDigits_of_lt_base hn] at heq
        have hsmall : ∀ d < 10, 0 < d → d.digitChar ≠ '0' := by decide
        exact hsmall n hn h (List.cons.inj heq).1
      · rw [Nat.toDigits_of_base_le (by decide) (by omega)] at heq
        -- the first digit is that of the number without its last one
        obtain ⟨d, ds, hds⟩ := List.exists_cons_of_ne_nil (digits_ne_nil (n / 10))
        rw [hds, List.cons_append] at heq
        exact ih (n / 10) (by omega) (by omega) ds (by rw [hds, (List.cons.inj heq).1])

/-- An integer is printed as its sign and the digits of its amount. -/
theorem toList_toString (n : Int) :
    (toString n).toList = (if n < 0 then ['-'] else []) ++ Nat.toDigits 10 n.natAbs := by
  cases n with
  | ofNat m =>
      have hpos : ¬(Int.ofNat m < 0) := by simp
      rw [if_neg hpos]
      exact Nat.toList_repr
  | negSucc m =>
      rw [if_pos (Int.negSucc_lt_zero m)]
      show ("-" ++ (m + 1).repr).toList = _
      rw [String.toList_append, Nat.toList_repr]
      rfl

/-- Digits do not start with a sign. -/
theorem ne_minus_of_digits {n : Nat} {d : Char} {ds : List Char}
    (h : Nat.toDigits 10 n = d :: ds) : d ≠ '-' := by
  rintro rfl
  have hminus := isDigit_of_mem_digits (n := n) (c := '-') (by simp [h])
  simp at hminus

/-- **A printed integer has its value.** -/
theorem integer?_ofInt (n : Int) : (ofInt n).integer? = some n := by
  have hdigits := decimal?_digits n.natAbs
  simp only [ofInt, integer?, toList_toString]
  by_cases hn : n < 0
  · have habs : n.natAbs ≠ 0 := by omega
    simp only [hn, if_true, List.singleton_append, hdigits, Option.bind_some, habs, if_false,
      Option.some.injEq]
    omega
  · simp only [hn, if_false, List.nil_append]
    obtain ⟨d, ds, hds⟩ := List.exists_cons_of_ne_nil (digits_ne_nil n.natAbs)
    have hd := ne_minus_of_digits hds
    rw [hds] at hdigits ⊢
    split
    · rename_i heq
      exact absurd (List.cons.inj heq).1 hd
    · have habs : (n.natAbs : Int) = n := by omega
      simp [hdigits, habs]

/-! ### Numbers in a text -/

/-- What may come after a number, so that the number goes no further. -/
def EndsNumber (rest : List Char) : Prop :=
  ∀ c ∈ rest.head?, c.isDigit = false ∧ c ≠ '.' ∧ c ≠ 'e' ∧ c ≠ 'E'

section Numbers

variable {rest : List Char}

theorem span_digits (n : Nat) (h : EndsNumber rest) :
    (Nat.toDigits 10 n ++ rest).span Char.isDigit = (Nat.toDigits 10 n, rest) := by
  have hall : ∀ c ∈ Nat.toDigits 10 n, c.isDigit = true := fun _ => isDigit_of_mem_digits
  rw [List.span_eq_takeWhile_dropWhile, List.takeWhile_append_of_pos hall,
    List.dropWhile_append_of_pos hall]
  cases rest with
  | nil => simp
  | cons c cs =>
      have hc := (h c rfl).1
      simp [hc]

theorem readWhole_digits (n : Nat) (h : EndsNumber rest) :
    readWhole (Nat.toDigits 10 n ++ rest) = some (Nat.toDigits 10 n, rest) := by
  rcases Nat.eq_zero_or_pos n with rfl | hn
  · rfl
  · have hspan := span_digits n h
    obtain ⟨d, ds, hds⟩ := List.exists_cons_of_ne_nil (digits_ne_nil n)
    have hd : d ≠ '0' := by
      rintro rfl
      exact head_digits hn ds hds
    rw [hds, List.cons_append] at hspan ⊢
    unfold readWhole
    split
    · rename_i heq
      exact absurd (List.cons.inj heq).1 hd
    · rw [hspan]

theorem readFraction_of_ends (h : EndsNumber rest) : readFraction rest = some ([], rest) := by
  unfold readFraction
  split
  · exact absurd rfl (h '.' rfl).2.1
  · rfl

theorem readExponent_of_ends (h : EndsNumber rest) : readExponent rest = some ([], rest) := by
  cases rest with
  | nil => rfl
  | cons c cs =>
      obtain ⟨-, -, he, hE⟩ := h c rfl
      simp [readExponent, he, hE]

/-- **A printed integer is read from the front of a text**, sign and all. -/
theorem readNumber_toString (n : Int) (h : EndsNumber rest) :
    readNumber ((toString n).toList ++ rest) = some ((toString n).toList, rest) := by
  have hwhole := readWhole_digits n.natAbs h
  rw [toList_toString]
  by_cases hn : n < 0
  · simp [readNumber, hn, hwhole, readFraction_of_ends h, readExponent_of_ends h]
  · simp only [hn, if_false, List.nil_append]
    obtain ⟨d, ds, hds⟩ := List.exists_cons_of_ne_nil (digits_ne_nil n.natAbs)
    have hd := ne_minus_of_digits hds
    rw [hds, List.cons_append] at hwhole ⊢
    simp [readNumber, hd, hwhole, readFraction_of_ends h, readExponent_of_ends h]

end Numbers

/-! ### Layouts -/

/-- Nothing but blanks. -/
def Blanks (s : List Char) : Prop := ∀ c ∈ s, isBlank c = true

/-- A key that needs no escapes: no quote, no backslash and no control character. -/
def Plain (key : String) : Prop := ∀ c ∈ key.toList, ¬c < ' ' ∧ c ≠ '\\' ∧ c ≠ '"'

instance (key : String) : Decidable (Plain key) :=
  List.decidableBAll (fun c => ¬c < ' ' ∧ c ≠ '\\' ∧ c ≠ '"') key.toList

/-- The object with these numbers as its members. -/
def ofNumbers (ms : List (String × Int)) : Json := .object (ms.map fun m => (m.1, ofInt m.2))

/-- The texts of a member: a key in quotes, a colon and a number, with any blanks around them. -/
def LaysMember (m : String × Int) (s : List Char) : Prop :=
  ∃ b₁ b₂ b₃ b₄, Blanks b₁ ∧ Blanks b₂ ∧ Blanks b₃ ∧ Blanks b₄ ∧
    s = b₁ ++ '"' :: (m.1.toList ++ '"' :: (b₂ ++ ':' :: (b₃ ++ ((toString m.2).toList ++ b₄))))

/-- The texts of one or more members, with commas between them. -/
inductive LaysMembers : List (String × Int) → List Char → Prop
  | one {m : String × Int} {s : List Char} : LaysMember m s → LaysMembers [m] s
  | cons {m : String × Int} {s : List Char} {ms : List (String × Int)} {rest : List Char} :
      LaysMember m s → LaysMembers ms rest → LaysMembers (m :: ms) (s ++ ',' :: rest)

/-- **The texts of an object of numbers**: braces around its members, and blanks wherever they may
stand. -/
inductive LaysObject : List (String × Int) → List Char → Prop
  | nil {b₁ b₂ b₃ : List Char} : Blanks b₁ → Blanks b₂ → Blanks b₃ →
      LaysObject [] (b₁ ++ '\x7b' :: (b₂ ++ '\x7d' :: b₃))
  | members {b₁ b₂ s : List Char} {ms : List (String × Int)} : Blanks b₁ → Blanks b₂ →
      LaysMembers ms s → LaysObject ms (b₁ ++ '\x7b' :: (s ++ '\x7d' :: b₂))

/-! ### Reading a layout -/

section Reading

variable {b s rest : List Char} {m : String × Int} {ms : List (String × Int)} {fuel : Nat}

theorem skipBlanks_append (h : Blanks b) (s : List Char) :
    skipBlanks (b ++ s) = skipBlanks s :=
  List.dropWhile_append_of_pos h

theorem skipBlanks_cons {c : Char} (h : isBlank c = false) (s : List Char) :
    skipBlanks (c :: s) = c :: s := by
  rw [skipBlanks, List.dropWhile_cons, h]
  rfl

/-- Blanks and what follows them end a number. -/
theorem endsNumber_append (h : Blanks b) (hrest : EndsNumber rest) : EndsNumber (b ++ rest) := by
  cases b with
  | nil => exact hrest
  | cons c cs =>
      intro d hd
      obtain rfl : c = d := Option.some.inj hd
      have hc := h c List.mem_cons_self
      simp only [isBlank, Bool.or_eq_true, decide_eq_true_eq, or_assoc] at hc
      rcases hc with rfl | rfl | rfl | rfl <;> decide

theorem readString_plain {key : List Char} (h : ∀ c ∈ key, ¬c < ' ' ∧ c ≠ '\\' ∧ c ≠ '"')
    (rest : List Char) : readString (key ++ '"' :: rest) = some (key, rest) := by
  induction key with
  | nil => rfl
  | cons c cs ih =>
      obtain ⟨hc, hb, hq⟩ := h c List.mem_cons_self
      have hcs := ih fun d hd => h d (List.mem_cons_of_mem c hd)
      rw [List.cons_append]
      unfold readString
      split
      · rename_i heq
        cases heq
      · rename_i heq
        exact absurd (List.cons.inj heq).1 hq
      · rename_i heq
        exact absurd (List.cons.inj heq).1 hb
      · rename_i heq
        exact absurd (List.cons.inj heq).1 hb
      · rename_i heq
        obtain ⟨rfl, rfl⟩ := List.cons.inj heq
        simp [hc, hb, hcs]

/-- A printed number starts with a sign or a digit, and so with nothing else. -/
theorem exists_cons_toString (n : Int) :
    ∃ c cs, (toString n).toList = c :: cs ∧ ∀ d, d ≠ '-' → d.isDigit = false → c ≠ d := by
  rw [toList_toString]
  by_cases hn : n < 0
  · exact ⟨'-', _, by rw [if_pos hn]; rfl, fun d hd _ => hd.symm⟩
  · obtain ⟨c, cs, hcs⟩ := List.exists_cons_of_ne_nil (digits_ne_nil n.natAbs)
    have hc : c.isDigit = true := isDigit_of_mem_digits (n := n.natAbs) (by simp [hcs])
    refine ⟨c, cs, by rw [if_neg hn, hcs]; rfl, fun d _ hd hcd => ?_⟩
    rw [← hcd, hc] at hd
    cases hd

/-- A number is read as a value. -/
theorem readValue_number (fuel : Nat) (hb : Blanks b) (n : Int) (h : EndsNumber rest) :
    readValue (fuel + 1) (b ++ ((toString n).toList ++ rest)) = some (ofInt n, rest) := by
  have hnumber := readNumber_toString n h
  obtain ⟨c, cs, hcs, hc⟩ := exists_cons_toString n
  have hblank : isBlank c = false := by
    simp [isBlank, hc ' ', hc '\t', hc '\n', hc '\r']
  rw [hcs, List.cons_append] at hnumber
  rw [readValue, skipBlanks_append hb, hcs, List.cons_append, skipBlanks_cons hblank]
  -- no other kind of value starts like a number
  split
  case h_7 =>
    rw [hnumber, Option.map_some, ← hcs]
    simp only [String.ofList_toList, ofInt]
  all_goals
    rename_i heq
    exact absurd (List.cons.inj heq).1 (hc _ (by decide) (by decide))

/-- What comes after a member: the end of the object, or another member. -/
theorem endsNumber_cons {c : Char} (hc : c = ',' ∨ c = '\x7d') (rest : List Char) :
    EndsNumber (c :: rest) := by
  intro d hd
  obtain rfl : c = d := Option.some.inj hd
  rcases hc with rfl | rfl <;> decide

/-- **A member is read**, and then it depends on what comes next. -/
theorem readMembers_member (hplain : Plain m.1) (hs : LaysMember m s) {c : Char}
    (hc : c = ',' ∨ c = '\x7d') :
    readMembers (fuel + 2) (s ++ c :: rest) =
      if c = '\x7d' then some ([(m.1, ofInt m.2)], rest)
      else (readMembers (fuel + 1) rest).map fun p => ((m.1, ofInt m.2) :: p.1, p.2) := by
  obtain ⟨b₁, b₂, b₃, b₄, h₁, h₂, h₃, h₄, rfl⟩ := hs
  have hvalue := readValue_number fuel h₃ m.2 (endsNumber_append h₄ (endsNumber_cons hc rest))
  have hblank : isBlank c = false := by rcases hc with rfl | rfl <;> decide
  rw [readMembers]
  simp only [List.append_assoc, List.cons_append, skipBlanks_append h₁,
    skipBlanks_cons (c := '"') (by decide), readString_plain hplain, skipBlanks_append h₂,
    skipBlanks_cons (c := ':') (by decide), hvalue, skipBlanks_append h₄, skipBlanks_cons hblank,
    String.ofList_toList]
  rcases hc with rfl | rfl
  · rfl
  · rfl

/-- **One or more members are read up to the closing brace.** -/
theorem readMembers_lays (h : LaysMembers ms s) (hplain : ∀ m ∈ ms, Plain m.1)
    (hfuel : ms.length < fuel) (rest : List Char) :
    readMembers fuel (s ++ '\x7d' :: rest) =
      some (ms.map fun m => (m.1, ofInt m.2), rest) := by
  induction h generalizing fuel with
  | one hs =>
      rw [List.length_singleton] at hfuel
      obtain ⟨n, rfl⟩ : ∃ n, fuel = n + 2 := ⟨fuel - 2, by omega⟩
      exact readMembers_member (hplain _ List.mem_cons_self) hs (.inr rfl)
  | @cons m s ms rest' hs hms ih =>
      rw [List.length_cons] at hfuel
      obtain ⟨n, rfl⟩ : ∃ n, fuel = n + 2 := ⟨fuel - 2, by omega⟩
      have hrest := ih (fun x hx => hplain x (List.mem_cons_of_mem m hx))
        (show ms.length < n + 1 by omega)
      rw [List.append_assoc, List.cons_append,
        readMembers_member (hplain m List.mem_cons_self) hs (.inl rfl), if_neg (by decide), hrest]
      rfl

theorem LaysMember.exists_eq (h : LaysMember m s) :
    ∃ b r, Blanks b ∧ s = b ++ '"' :: r := by
  obtain ⟨b₁, b₂, b₃, b₄, h₁, -, -, -, rfl⟩ := h
  exact ⟨b₁, _, h₁, rfl⟩

/-- Members start with a quote. -/
theorem LaysMembers.exists_eq (h : LaysMembers ms s) : ∃ b r, Blanks b ∧ s = b ++ '"' :: r := by
  cases h with
  | one hs => exact hs.exists_eq
  | cons hs _ =>
      obtain ⟨b, r, hb, rfl⟩ := hs.exists_eq
      exact ⟨b, _, hb, by rw [List.append_assoc, List.cons_append]⟩

/-- Each member takes room in the text. -/
theorem LaysMembers.length_le (h : LaysMembers ms s) : ms.length ≤ s.length := by
  induction h with
  | one hs =>
      obtain ⟨b, r, -, rfl⟩ := hs.exists_eq
      simp
      omega
  | cons _ _ ih =>
      simp
      omega

/-- An object with members is read up to its closing brace. -/
theorem readValue_members (hb : Blanks b) (hs : LaysMembers ms s) (hplain : ∀ m ∈ ms, Plain m.1)
    (hfuel : ms.length < fuel) :
    readValue (fuel + 1) (b ++ '\x7b' :: (s ++ '\x7d' :: rest)) = some (ofNumbers ms, rest) := by
  have hmembers := readMembers_lays hs hplain hfuel rest
  obtain ⟨b', r, hb', hr⟩ := hs.exists_eq
  -- the first member starts with a quote, so this is no empty object
  have hquote : skipBlanks (s ++ '\x7d' :: rest) = '"' :: (r ++ '\x7d' :: rest) := by
    rw [hr, List.append_assoc, skipBlanks_append hb', List.cons_append,
      skipBlanks_cons (by decide)]
  simp [readValue, skipBlanks_append hb, skipBlanks_cons (c := '\x7b') (by decide), hquote,
    hmembers, ofNumbers]

/-- **An object of numbers is read from each of its layouts.** -/
theorem read_of_lays {text : String} (h : LaysObject ms text.toList)
    (hplain : ∀ m ∈ ms, Plain m.1) : read text = some (ofNumbers ms) := by
  have hend : ∀ b, Blanks b → skipBlanks b = [] := fun b hb => List.dropWhile_eq_nil_iff.2 hb
  rw [read, ← String.length_toList]
  generalize text.toList = cs at h
  cases h with
  | nil h₁ h₂ h₃ =>
      simp [readValue, skipBlanks_append h₁, skipBlanks_cons (c := '\x7b') (by decide),
        skipBlanks_append h₂, skipBlanks_cons (c := '\x7d') (by decide), hend _ h₃, ofNumbers]
  | @members b₁ b₂ s _ h₁ h₂ hs =>
      have hfuel : ms.length < 2 * (b₁ ++ '\x7b' :: (s ++ '\x7d' :: b₂)).length := by
        have := hs.length_le
        simp only [List.length_append, List.length_cons]
        omega
      simp only [readValue_members h₁ hs hplain hfuel, hend _ h₂, if_true]

end Reading

/-! ### Printed forms -/

section Printed

variable {b s : List Char} {m : String × Int} {ms : List (String × Int)}

theorem blanks_nil : Blanks [] := nofun

theorem blanks_newline (level : Nat) : Blanks (newline level).toList := by
  intro c hc
  rw [newline, String.toList_append, List.mem_append] at hc
  rcases hc with hc | hc
  · obtain rfl : c = '\n' := List.mem_singleton.1 hc
    rfl
  · rw [String.toList_ofList] at hc
    obtain rfl := List.eq_of_mem_replicate hc
    rfl

theorem LaysMember.append (h : LaysMember m s) (hb : Blanks b) : LaysMember m (s ++ b) := by
  obtain ⟨b₁, b₂, b₃, b₄, h₁, h₂, h₃, h₄, rfl⟩ := h
  refine ⟨b₁, b₂, b₃, b₄ ++ b, h₁, h₂, h₃, fun c hc => ?_, by simp⟩
  rcases List.mem_append.1 hc with hc | hc
  · exact h₄ c hc
  · exact hb c hc

/-- Blanks may follow the last member. -/
theorem LaysMembers.append (h : LaysMembers ms s) (hb : Blanks b) : LaysMembers ms (s ++ b) := by
  induction h with
  | one hs => exact .one (hs.append hb)
  | cons hs _ ih =>
      rw [List.append_assoc, List.cons_append]
      exact .cons hs ih

/-- Members in a row, each with the same blanks before it and after its colon, are laid out. -/
theorem lays_joined (text : List (String × Json) → String) {b₁ b₃ : List Char} (h₁ : Blanks b₁)
    (h₃ : Blanks b₃)
    (hone : ∀ k n, (text [(k, ofInt n)]).toList =
      b₁ ++ '"' :: (k.toList ++ '"' :: ([] ++ ':' :: (b₃ ++ ((toString n).toList ++ [])))))
    (hcons : ∀ k n m ms, (text ((k, ofInt n) :: m :: ms)).toList =
      (text [(k, ofInt n)]).toList ++ ',' :: (text (m :: ms)).toList) (m : String × Int)
    (ms : List (String × Int)) :
    LaysMembers (m :: ms) (text ((m :: ms).map fun m => (m.1, ofInt m.2))).toList := by
  have hmember : ∀ m : String × Int, LaysMember m (text [(m.1, ofInt m.2)]).toList :=
    fun m => ⟨b₁, [], b₃, [], h₁, blanks_nil, h₃, blanks_nil, hone m.1 m.2⟩
  induction ms generalizing m with
  | nil => exact .one (hmember m)
  | cons m' ms ih =>
      rw [List.map_cons, List.map_cons, hcons]
      exact .cons (hmember m) (ih m')

/-- **The text without blanks is a layout.** -/
theorem lays_compact (ms : List (String × Int)) : LaysObject ms (ofNumbers ms).compact.toList := by
  cases ms with
  | nil => exact .nil blanks_nil blanks_nil blanks_nil
  | cons m ms =>
      have hmembers := lays_joined compactMembers blanks_nil blanks_nil
        (fun k n => by simp [compactMembers, compact, ofInt])
        (fun k n m ms => by simp [compactMembers]) m ms
      have hobject := LaysObject.members blanks_nil blanks_nil hmembers
      simpa [ofNumbers, compact] using hobject

/-- **So is the text on several lines**, at any level of nesting. -/
theorem lays_prettyAt (level : Nat) (ms : List (String × Int)) :
    LaysObject ms ((ofNumbers ms).prettyAt level).toList := by
  cases ms with
  | nil =>
      have hobject := LaysObject.nil blanks_nil blanks_nil blanks_nil
      simpa [ofNumbers, prettyAt] using hobject
  | cons m ms =>
      have hspace : Blanks [' '] := by
        intro c hc
        obtain rfl := List.mem_singleton.1 hc
        rfl
      have hmembers := lays_joined (prettyMembers (level + 1)) (blanks_newline (level + 1))
        hspace (fun k n => by simp [prettyMembers, prettyAt, ofInt])
        (fun k n m ms => by simp [prettyMembers]) m ms
      have hobject := LaysObject.members blanks_nil blanks_nil
        (hmembers.append (blanks_newline level))
      simpa [ofNumbers, prettyAt] using hobject

/-- The value of a member is printed among the members. -/
theorem exists_prettyMembers_eq (level : Nat) {k : String} {v : Json} {ms : List (String × Json)}
    (h : (k, v) ∈ ms) :
    ∃ before after, prettyMembers level ms = before ++ v.prettyAt level ++ after := by
  induction ms with
  | nil => cases h
  | cons m ms ih =>
      rcases List.mem_cons.1 h with rfl | hm
      · cases ms with
        | nil => exact ⟨_, "", by rw [prettyMembers, String.append_empty]⟩
        | cons m' ms =>
            exact ⟨newline level ++ "\"" ++ k ++ "\": ", "," ++ prettyMembers level (m' :: ms),
              by simp only [prettyMembers, String.append_assoc]⟩
      · obtain ⟨before, after, heq⟩ := ih hm
        cases ms with
        | nil => cases hm
        | cons m' ms =>
            refine ⟨newline level ++ "\"" ++ m.1 ++ "\": " ++ m.2.prettyAt level ++ "," ++ before,
              after, ?_⟩
            rw [prettyMembers, heq]
            simp only [String.append_assoc]

/-- **The value of a member is printed one level down.** -/
theorem exists_prettyAt_eq (level : Nat) {k : String} {v : Json} {ms : List (String × Json)}
    (h : (k, v) ∈ ms) :
    ∃ before after, (object ms).prettyAt level = before ++ v.prettyAt (level + 1) ++ after := by
  obtain ⟨before, after, heq⟩ := exists_prettyMembers_eq (level + 1) h
  cases ms with
  | nil => cases h
  | cons m ms =>
      refine ⟨"\x7b" ++ before, after ++ newline level ++ "\x7d", ?_⟩
      rw [prettyAt, heq]
      simp only [String.append_assoc]

end Printed

end ReentrantGate.Json
