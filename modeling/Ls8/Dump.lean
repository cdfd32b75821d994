/-!
# Memory dumps

A dump writes bytes down with their runs shortened. It is a sequence of tokens: a byte other
than `0xFF` stands for itself, `0xFF 0x00` for one `0xFF`, and `0xFF n b` for `n` copies of `b`.

* `Dump.Token`, `Token.bytes`, `Token.expand`: a token, how it is written, what it stands for.
* `Dump.runs`: the runs of equal bytes, none longer than 255.
* `Dump.compress`: the dump of some bytes. A run of zeros or of more than three bytes becomes
  one token.
* `Dump.tokens`: the tokens of a dump, or the offset of the one that is cut off.
* `Dump.expand`: the bytes that a dump stands for.
-/

namespace Ls8.Dump

/-- The byte that begins a token of several bytes. -/
def escape : UInt8 := 0xFF

inductive Token where
  /-- A byte, other than the escape byte, that stands for itself. -/
  | literal (byte : UInt8)
  /-- One escape byte. -/
  | escaped
  /-- `count` copies of a byte; a count of 0 would be read as `escaped`. -/
  | run (count byte : UInt8)
  deriving DecidableEq, Repr

def Token.bytes : Token → List UInt8
  | .literal byte => [byte]
  | .escaped => [escape, 0]
  | .run count byte => [escape, count, byte]

/-- The bytes that a token stands for. -/
def Token.expand : Token → List UInt8
  | .literal byte => [byte]
  | .escaped => [escape]
  | .run count byte => List.replicate count.toNat byte

/-! ## Writing -/

def longestRun : Nat := 255

/-- A run of `length` copies of `byte` that is followed by the given bytes, and the runs
after it. -/
def runsFrom (length : Nat) (byte : UInt8) : List UInt8 → List (Nat × UInt8)
  | [] => [(length, byte)]
  | next :: rest =>
    if next = byte ∧ length < longestRun then runsFrom (length + 1) byte rest
    else (length, byte) :: runsFrom 1 next rest

def runs : List UInt8 → List (Nat × UInt8)
  | [] => []
  | byte :: rest => runsFrom 1 byte rest

def Token.ofByte (byte : UInt8) : Token := if byte = escape then .escaped else .literal byte

/-- The tokens of a run: one for zeros and for more than three bytes, else one per byte. -/
def tokensOfRun (length : Nat) (byte : UInt8) : List Token :=
  if length > 3 ∨ byte = 0 then [.run length.toUInt8 byte]
  else List.replicate length (.ofByte byte)

def tokenize (bytes : List UInt8) : List Token :=
  (runs bytes).flatMap fun run => tokensOfRun run.1 run.2

def compress (bytes : List UInt8) : List UInt8 := (tokenize bytes).flatMap Token.bytes

/-! ## Reading -/

/-- The tokens of a dump whose first byte has the given offset, or the offset of the token
that the dump ends within. -/
def tokensFrom (offset : Nat) : List UInt8 → Except Nat (List Token)
  | [] => .ok []
  | first :: rest =>
    if first ≠ escape then (.literal first :: ·) <$> tokensFrom (offset + 1) rest
    else
      match rest with
      | [] => .error offset
      | count :: rest =>
        if count = 0 then (.escaped :: ·) <$> tokensFrom (offset + 2) rest
        else
          match rest with
          | [] => .error offset
          | byte :: rest => (.run count byte :: ·) <$> tokensFrom (offset + 3) rest

def tokens (dump : List UInt8) : Except Nat (List Token) := tokensFrom 0 dump

/-- The bytes that a dump stands for. -/
def expand (dump : List UInt8) : Except Nat (List UInt8) :=
  (·.flatMap Token.expand) <$> tokens dump

end Ls8.Dump
