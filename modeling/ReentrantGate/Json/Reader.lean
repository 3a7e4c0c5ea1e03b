/-
**Reading JSON.**

The reader takes a text to a value if the text is one value with blanks around it, and gives no
value for anything else.  Blanks are spaces, tabs and line ends.  A number has no leading zero and
no sign but a minus; a string holds no control character, and its escapes are known letters or a
`u` with four hexadecimal digits.

Keys are decoded separately: `unescape` gives the characters that the content of a string stands
for, and fails if half of a surrogate pair stands alone.

Main definitions:

* `Json.readString`, `Json.readNumber`, `Json.readValue` — a piece from the front of a text, with
  what is left of the text;
* `Json.read` — a whole text;
* `Json.unescape` — the characters of a string;
* `Json.integer?` — the value of a number without fraction and exponent.
-/

import ReentrantGate.Json.Basic

set_option relaxedAutoImplicit false
set_option autoImplicit false

namespace ReentrantGate.Json

/-! ### Blanks and digits -/

/-- The characters that may stand between the parts of a value. -/
def isBlank (c : Char) : Bool := c = ' ' || c = '\t' || c = '\n' || c = '\r'

/-- The text after its leading blanks. -/
def skipBlanks (s : List Char) : List Char := s.dropWhile isBlank

/-- The value of a hexadecimal digit. -/
def hexDigit? (c : Char) : Option Nat :=
  if c.isDigit then some (c.toNat - '0'.toNat)
  else if 'a' ≤ c ∧ c ≤ 'f' then some (c.toNat - 'a'.toNat + 10)
  else if 'A' ≤ c ∧ c ≤ 'F' then some (c.toNat - 'A'.toNat + 10)
  else none

/-- The value of four hexadecimal digits. -/
def hexWord? (a b c d : Char) : Option Nat := do
  return (((← hexDigit? a) * 16 + (← hexDigit? b)) * 16 + (← hexDigit? c)) * 16 + (← hexDigit? d)

/-- The value of a run of decimal digits that is not empty. -/
def decimal? : List Char → Option Nat
  | [] => none
  | c :: cs =>
      (c :: cs).foldl (fun value c => value.bind fun v =>
        if c.isDigit then some (v * 10 + (c.toNat - '0'.toNat)) else none) (some 0)

/-! ### Strings -/

/-- The letters that a backslash may precede, with the characters that they stand for. -/
def escapes : List (Char × Char) :=
  [('"', '"'), ('\\', '\\'), ('/', '/'), ('b', '\x08'), ('f', '\x0c'), ('n', '\n'), ('r', '\r'),
    ('t', '\t')]

/-- The content of a string up to its closing quote, and the text after the quote. -/
def readString : List Char → Option (List Char × List Char)
  | [] => none
  | '"' :: rest => some ([], rest)
  | '\\' :: 'u' :: a :: b :: c :: d :: rest =>
      match hexWord? a b c d, readString rest with
      | some _, some (content, rest) => some ('\\' :: 'u' :: a :: b :: c :: d :: content, rest)
      | _, _ => none
  | '\\' :: c :: rest =>
      match escapes.lookup c, readString rest with
      | some _, some (content, rest) => some ('\\' :: c :: content, rest)
      | _, _ => none
  | c :: rest =>
      if c < ' ' || c = '\\' then none
      else (readString rest).map fun (content, rest) => (c :: content, rest)

/-- The characters that the content of a string stands for.  A code point beyond 16 bits is written
as two escapes, a high and a low surrogate. -/
def unescape : List Char → Option (List Char)
  | [] => some []
  | '\\' :: 'u' :: a :: b :: c :: d :: rest =>
      match hexWord? a b c d with
      | none => none
      | some unit =>
          if unit < 0xd800 ∨ 0xe000 ≤ unit then (unescape rest).map (Char.ofNat unit :: ·)
          else if 0xdc00 ≤ unit then none
          else
            match rest with
            | '\\' :: 'u' :: a' :: b' :: c' :: d' :: rest =>
                match hexWord? a' b' c' d' with
                | none => none
                | some low =>
                    if low < 0xdc00 ∨ 0xe000 ≤ low then none
                    else
                      let point := 0x10000 + (unit - 0xd800) * 0x400 + (low - 0xdc00)
                      (unescape rest).map (Char.ofNat point :: ·)
            | _ => none
  | '\\' :: c :: rest =>
      match escapes.lookup c with
      | none => none
      | some e => (unescape rest).map (e :: ·)
  | c :: rest => (unescape rest).map (c :: ·)

/-! ### Numbers -/

/-- The integral part of a number: a single zero, or digits that do not start with one. -/
def readWhole : List Char → Option (List Char × List Char)
  | '0' :: rest => some (['0'], rest)
  | s =>
      match s.span Char.isDigit with
      | ([], _) => none
      | part => some part

/-- Digits after a mark that must be followed by at least one. -/
def readDigits (mark : List Char) (s : List Char) : Option (List Char × List Char) :=
  match s.span Char.isDigit with
  | ([], _) => none
  | (digits, rest) => some (mark ++ digits, rest)

/-- The fraction of a number, if there is one. -/
def readFraction : List Char → Option (List Char × List Char)
  | '.' :: rest => readDigits ['.'] rest
  | s => some ([], s)

/-- The exponent of a number, if there is one. -/
def readExponent : List Char → Option (List Char × List Char)
  | [] => some ([], [])
  | c :: s =>
      if c = 'e' || c = 'E' then
        match s with
        | '+' :: rest => readDigits [c, '+'] rest
        | '-' :: rest => readDigits [c, '-'] rest
        | _ => readDigits [c] s
      else some ([], c :: s)

/-- A number as it is written, and the text after it. -/
def readNumber (s : List Char) : Option (List Char × List Char) := do
  let (sign, s) := match s with
    | '-' :: rest => (['-'], rest)
    | _ => ([], s)
  let (whole, s) ← readWhole s
  let (fraction, s) ← readFraction s
  let (exponent, s) ← readExponent s
  return (sign ++ whole ++ fraction ++ exponent, s)

/-- The value of a number without fraction and exponent; a negative zero is not an integer. -/
def integer? : Json → Option Int
  | number digits =>
      match digits.toList with
      | '-' :: ds => (decimal? ds).bind fun n => if n = 0 then none else some (-(n : Int))
      | ds => (decimal? ds).map fun n => (n : Int)
  | _ => none

/-! ### Values -/

mutual

/-- A value from the front of a text, with the text after it.  The first argument bounds the number
of values that may be begun inside one another or one after another. -/
def readValue : Nat → List Char → Option (Json × List Char)
  | 0, _ => none
  | n + 1, s =>
      match skipBlanks s with
      | 'n' :: 'u' :: 'l' :: 'l' :: rest => some (.null, rest)
      | 't' :: 'r' :: 'u' :: 'e' :: rest => some (.bool true, rest)
      | 'f' :: 'a' :: 'l' :: 's' :: 'e' :: rest => some (.bool false, rest)
      | '"' :: rest => (readString rest).map fun (content, rest) =>
          (.string (String.ofList content), rest)
      | '[' :: rest =>
          match skipBlanks rest with
          | ']' :: rest => some (.array [], rest)
          | _ => (readItems n rest).map fun (items, rest) => (.array items, rest)
      | '\x7b' :: rest =>
          match skipBlanks rest with
          | '\x7d' :: rest => some (.object [], rest)
          | _ => (readMembers n rest).map fun (members, rest) => (.object members, rest)
      | s => (readNumber s).map fun (digits, rest) => (.number (String.ofList digits), rest)

/-- The items of an array up to its closing bracket; there is at least one. -/
def readItems : Nat → List Char → Option (List Json × List Char)
  | 0, _ => none
  | n + 1, s =>
      match readValue n s with
      | none => none
      | some (v, rest) =>
          match skipBlanks rest with
          | ']' :: rest => some ([v], rest)
          | ',' :: rest => (readItems n rest).map fun (vs, rest) => (v :: vs, rest)
          | _ => none

/-- The members of an object up to its closing brace; there is at least one. -/
def readMembers : Nat → List Char → Option (List (String × Json) × List Char)
  | 0, _ => none
  | n + 1, s =>
      match skipBlanks s with
      | '"' :: rest =>
          match readString rest with
          | none => none
          | some (key, rest) =>
              match skipBlanks rest with
              | ':' :: rest =>
                  match readValue n rest with
                  | none => none
                  | some (v, rest) =>
                      match skipBlanks rest with
                      | '\x7d' :: rest => some ([(String.ofList key, v)], rest)
                      | ',' :: rest => (readMembers n rest).map fun (ms, rest) =>
                          ((String.ofList key, v) :: ms, rest)
                      | _ => none
              | _ => none
      | _ => none

end

/-- The value of a whole text.  A value begun inside another one or after another one is at least
two steps further and at least one character on, so twice the length is bound enough. -/
def read (text : String) : Option Json :=
  match readValue (2 * text.length + 1) text.toList with
  | some (v, rest) => if skipBlanks rest = [] then some v else none
  | none => none

end ReentrantGate.Json
