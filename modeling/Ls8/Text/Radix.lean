/-!
# Numerals of a fixed least width

Addresses, cells and opcodes are shown in hexadecimal or binary, padded with zeros on
the left.

* `Radix.digits base width n`: the digits of `n`, most significant first, at least
  `width` of them.
* `Radix.hex`, `Radix.binary`: the same as text, hexadecimal in capitals.
-/

namespace Ls8.Radix

/-- The digits of `n` in `base`, letters in capitals, padded with zeros to `width`. A
number that needs more digits than `width` gets them all. -/
def digits (base width n : Nat) : List Char :=
  let shown := (Nat.toDigits base n).map Char.toUpper
  List.replicate (width - shown.length) '0' ++ shown

def hex (width n : Nat) : String := String.ofList (digits 16 width n)

def binary (width n : Nat) : String := String.ofList (digits 2 width n)

end Ls8.Radix
