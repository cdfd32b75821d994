import Ls8.Memory
import Ls8.Text.Blank
import Ls8.Text.Unsigned

/-!
# Images

An image is text with one byte per line, written in binary. A line's payload is what stands
before its first `#`, without the blanks around it; a line without payload takes no address.

```text
10000010 # LDI R0,8
00000000
00001000

00000001 # HLT
```

* `Image.lines`, `Image.payload`, `Image.literal?`: the text's lines, what counts of a line,
  and the byte that a payload stands for.
* `Image.parse`: the bytes of an image, at most as many as memory has cells. The first line
  that cannot be taken decides the error.
* `Image.ofFile`: the same for the contents of a file.
-/

namespace Ls8

inductive ReadFailure where
  | isDirectory
  /-- The bytes are not well-formed UTF-8. -/
  | notText
  /-- The system's own words for any other failure. -/
  | system (cause : String)
  deriving DecidableEq, Repr

def ReadFailure.message : ReadFailure → String
  | .isDirectory => "Is a directory (os error 21)"
  | .notText => "stream did not contain valid UTF-8"
  | .system cause => cause

inductive ImageError where
  | notFound (path : String)
  | unreadable (cause : ReadFailure)
  /-- A payload, on a line counted from 1, that is no byte in binary. -/
  | invalidLiteral (line : Nat) (payload : String)
  | tooLarge
  deriving DecidableEq, Repr

def ImageError.message : ImageError → String
  | .notFound path => "file not found: " ++ path
  | .unreadable cause => "failed to read image: " ++ cause.message
  | .invalidLiteral line payload => s!"line {line}: '" ++ payload ++ "' is not an 8-bit binary literal"
  | .tooLarge => s!"image has more than {Memory.size} bytes"

namespace Image

/-! ## Lines -/

/-- The lines of the text, `line` being the characters read of the first one, last first. -/
def linesFrom (line : List Char) : List Char → List (List Char)
  | [] => if line.isEmpty then [] else [line.reverse]
  | c :: rest => if c = '\n' then line.reverse :: linesFrom [] rest else linesFrom (c :: line) rest

/-- The pieces of the text between newlines; an empty piece at the end does not count. -/
def lines (text : List Char) : List (List Char) := linesFrom [] text

/-- What stands before the first `#`, trimmed. -/
def payload (line : List Char) : List Char := Text.trim (line.takeWhile (· != '#'))

/-- The byte that a payload stands for: binary digits, however many, with a value below 256. -/
def literal? (payload : List Char) : Option UInt8 :=
  ((Text.digits? 2 payload).filter (· < 256)).map (·.toUInt8)

/-! ## Reading an image -/

/-- The bytes of the lines, where the first line has the given number and `room` more bytes
fit into memory. -/
def parseFrom (number room : Nat) : List (List Char) → Except ImageError (List UInt8)
  | [] => .ok []
  | line :: rest =>
    let payload := payload line
    if payload.isEmpty then parseFrom (number + 1) room rest
    else
      match literal? payload, room with
      | none, _ => .error (.invalidLiteral number (String.ofList payload))
      | some _, 0 => .error .tooLarge
      | some byte, room + 1 => (byte :: ·) <$> parseFrom (number + 1) room rest

/-- The bytes of an image, for the addresses from 0 on. -/
def parse (source : String) : Except ImageError (List UInt8) :=
  parseFrom 1 Memory.size (lines source.toList)

/-! ## Files -/

inductive Contents where
  | missing
  | directory
  | failed (cause : String)
  | bytes (data : ByteArray)

def ofFile (path : String) (contents : Contents) : Except ImageError (List UInt8) :=
  match contents with
  | .missing => .error (.notFound path)
  | .directory => .error (.unreadable .isDirectory)
  | .failed cause => .error (.unreadable (.system cause))
  | .bytes data =>
    match String.fromUTF8? data with
    | none => .error (.unreadable .notText)
    | some source => parse source

end Image

end Ls8
