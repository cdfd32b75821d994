/-!
# The console

Where a machine prints: one line per value, its decimal digits and a newline. A console may
be able to take only so many bytes more.

* `Console.line`: the bytes of a printed value.
* `Console.take`: what a console does with bytes, down to the part of them it has room for.
* `Console.print`: prints a value.
-/

namespace Ls8

/-- What has been written, and the number of bytes that can still be, if that is limited. -/
structure Console where
  written : ByteArray := .empty
  room : Option Nat := none

namespace Console

def newline : UInt8 := 10

/-- The decimal digits of `value` and a newline. -/
def line (value : UInt8) : List UInt8 :=
  (Nat.toDigits 10 value.toNat).map (·.toNat.toUInt8) ++ [newline]

def append (written : ByteArray) (bytes : List UInt8) : ByteArray :=
  bytes.foldl ByteArray.push written

/-- Writes `bytes`, or as many of them as there is room for; then the console is full and
the answer is `false`. -/
def take (console : Console) (bytes : List UInt8) : Console × Bool :=
  match console with
  | ⟨written, none⟩ => (⟨append written bytes, none⟩, true)
  | ⟨written, some room⟩ =>
    (⟨append written (bytes.take room), some (room - bytes.length)⟩, bytes.length ≤ room)

def print (console : Console) (value : UInt8) : Console × Bool := console.take (line value)

end Console

end Ls8
