/-
**Numbers on the command line.**

A word is a decimal number below `2 ^ 64` with an optional plus sign; a signed number may have
either sign and fits in 64 bits with its sign.  Anything else, blanks included, is no number.

Main definitions:

* `Stress.isWord`, `Stress.isSigned` — the ranges;
* `Stress.word?`, `Stress.signed?` — the values of texts.
-/

import ReentrantGate.Json.Reader
import ReentrantGate.Timeout

set_option relaxedAutoImplicit false
set_option autoImplicit false

namespace ReentrantGate.Stress

/-- Whether a number is a 64-bit word. -/
def isWord (n : Int) : Bool := 0 ≤ n && n ≤ maxWord

/-- Whether a number fits in 64 bits with a sign. -/
def isSigned (n : Int) : Bool := -9223372036854775808 ≤ n && n < 9223372036854775808

/-- The word that a text stands for. -/
def word? (text : String) : Option Int :=
  let digits := match text.toList with
    | '+' :: ds => ds
    | ds => ds
  ((Json.decimal? digits).map Int.ofNat).filter isWord

/-- The signed number that a text stands for. -/
def signed? (text : String) : Option Int :=
  let value := match text.toList with
    | '-' :: ds => (Json.decimal? ds).map fun n : Nat => -(n : Int)
    | '+' :: ds => (Json.decimal? ds).map Int.ofNat
    | ds => (Json.decimal? ds).map Int.ofNat
  value.filter isSigned

end ReentrantGate.Stress
