/-
**JSON values and their text.**

A value keeps numbers and strings as they are written: a number is its digits and signs, a string
is what stands between its quotes, escapes included.  So printing a value never changes it, and
reading a text back loses nothing.  Members of an object are kept in order.

Main definitions:

* `ReentrantGate.Json` — values; `Json.ofNat`, `Json.ofInt`, `Json.ofObject` build some of them;
* `Json.compact` — the text without blanks;
* `Json.pretty` — the text with one member or item a line, indented by two blanks a level;
* `Json.keys` — the keys of all objects in the order in which they are printed.
-/

set_option relaxedAutoImplicit false
set_option autoImplicit false

namespace ReentrantGate

/-- A JSON value, with numbers and strings as written. -/
inductive Json
  | null
  | bool (b : Bool)
  | number (digits : String)
  | string (content : String)
  | array (items : List Json)
  | object (members : List (String × Json))

namespace Json

/-- A natural number in decimal. -/
def ofNat (n : Nat) : Json := .number (toString n)

/-- An integer in decimal. -/
def ofInt (n : Int) : Json := .number (toString n)

/-! ### Compact text -/

mutual

/-- The text without blanks. -/
def compact : Json → String
  | null => "null"
  | bool b => toString b
  | number digits => digits
  | string content => "\"" ++ content ++ "\""
  | array items => "[" ++ compactItems items ++ "]"
  | object members => "\x7b" ++ compactMembers members ++ "\x7d"

/-- Items with commas between them. -/
def compactItems : List Json → String
  | [] => ""
  | [v] => v.compact
  | v :: w :: vs => v.compact ++ "," ++ compactItems (w :: vs)

/-- Members with commas between them. -/
def compactMembers : List (String × Json) → String
  | [] => ""
  | [(k, v)] => "\"" ++ k ++ "\":" ++ v.compact
  | (k, v) :: m :: ms => "\"" ++ k ++ "\":" ++ v.compact ++ "," ++ compactMembers (m :: ms)

end

/-! ### Text on several lines -/

/-- A new line at nesting level `level`. -/
def newline (level : Nat) : String := "\n" ++ String.ofList (List.replicate (2 * level) ' ')

mutual

/-- The text of a value that starts at nesting level `level`. -/
def prettyAt (level : Nat) : Json → String
  | null => "null"
  | bool b => toString b
  | number digits => digits
  | string content => "\"" ++ content ++ "\""
  | array [] => "[]"
  | array (v :: vs) => "[" ++ prettyItems (level + 1) (v :: vs) ++ newline level ++ "]"
  | object [] => "\x7b\x7d"
  | object (m :: ms) => "\x7b" ++ prettyMembers (level + 1) (m :: ms) ++ newline level ++ "\x7d"

/-- Items, each on a line of its own. -/
def prettyItems (level : Nat) : List Json → String
  | [] => ""
  | [v] => newline level ++ v.prettyAt level
  | v :: w :: vs => newline level ++ v.prettyAt level ++ "," ++ prettyItems level (w :: vs)

/-- Members, each on a line of its own. -/
def prettyMembers (level : Nat) : List (String × Json) → String
  | [] => ""
  | [(k, v)] => newline level ++ "\"" ++ k ++ "\": " ++ v.prettyAt level
  | (k, v) :: m :: ms =>
      newline level ++ "\"" ++ k ++ "\": " ++ v.prettyAt level ++ "," ++ prettyMembers level (m :: ms)

end

/-- The text on several lines. -/
def pretty (v : Json) : String := v.prettyAt 0

/-! ### Keys -/

mutual

/-- The keys of all objects in a value, in the order of its text. -/
def keys : Json → List String
  | array items => keysOfItems items
  | object members => keysOfMembers members
  | _ => []

/-- The keys in a list of items. -/
def keysOfItems : List Json → List String
  | [] => []
  | v :: vs => v.keys ++ keysOfItems vs

/-- The keys in a list of members. -/
def keysOfMembers : List (String × Json) → List String
  | [] => []
  | (k, v) :: ms => k :: v.keys ++ keysOfMembers ms

end

end Json

end ReentrantGate
