/-!
# Unsigned numerals

Settings, options and query fields give numbers in decimal: ASCII digits after at most
one plus sign, leading zeros allowed.

* `digits?`: the value of a nonempty run of digits in a base.
* `unsigned?`: the value of a numeral that stays below a bound.
* `word?`: the value of a numeral as a word of 64 bits.
-/

namespace Ls8.Text

/-- The value of a digit in `base`, where letters of either case follow `9`. -/
def digit? (base : Nat) (c : Char) : Option Nat :=
  let value :=
    if '0' ≤ c ∧ c ≤ '9' then some (c.toNat - '0'.toNat)
    else if 'a' ≤ c ∧ c ≤ 'z' then some (c.toNat - 'a'.toNat + 10)
    else if 'A' ≤ c ∧ c ≤ 'Z' then some (c.toNat - 'A'.toNat + 10)
    else none
  value.filter (· < base)

def digits? (base : Nat) (text : List Char) : Option Nat :=
  if text.isEmpty then none
  else text.foldl (fun total c => do return (← total) * base + (← digit? base c)) (some 0)

/-- A decimal numeral below `bound`, with an optional plus sign. -/
def unsigned? (bound : Nat) (text : List Char) : Option Nat :=
  let unsigned := match text with
    | '+' :: rest => rest
    | _ => text
  (digits? 10 unsigned).filter (· < bound)

/-- One more than the greatest count of 64 bits. -/
def wordBound : Nat := UInt64.size

/-- A decimal numeral of 64 bits. -/
def word? (text : List Char) : Option UInt64 := (unsigned? wordBound text).map .ofNat

def halfWordBound : Nat := UInt32.size

end Ls8.Text
