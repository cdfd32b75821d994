import Ls8.Json.Basic
import Ls8.Text.Unsigned

/-!
# Reading JSON text

`Json.parse?` reads one value with nothing but white space around it, by the grammar of RFC
8259. The readers take the characters that remain and return those after what they read; a
reader of several parts also takes the parts read so far, last first. Values nest no deeper
than the text is long, which bounds the recursion.
-/

namespace Ls8.Json

def isSpace (c : Char) : Bool := c = ' ' || c = '\n' || c = '\t' || c = '\r'

def skipSpace (text : List Char) : List Char := text.dropWhile isSpace

/-- A value and what follows its name, if the text begins with the name. -/
def word? (name : String) (value : Json) (text : List Char) : Option (Json × List Char) :=
  let length := name.toList.length
  if text.take length = name.toList then some (value, text.drop length) else none

/-! ## Strings -/

def shortEscape? (letter : Char) : Option Char :=
  match letter with
  | '"' => some '"'
  | '\\' => some '\\'
  | '/' => some '/'
  | 'b' => some '\x08'
  | 'f' => some '\x0c'
  | 'n' => some '\n'
  | 'r' => some '\r'
  | 't' => some '\t'
  | _ => none

/-- A unit of a string: a character, or one half of a pair of surrogates. -/
inductive StringUnit where
  | char (c : Char)
  | surrogate (code : Nat)

/-- The unit with a code below 2^16. -/
def StringUnit.ofCode (code : Nat) : StringUnit :=
  if 0xD800 ≤ code ∧ code < 0xE000 then .surrogate code else .char (Char.ofNat code)

/-- The units of a string, last first, up to its closing quote, and what follows the quote.
Control characters have to be escaped. -/
def stringUnits? (read : List StringUnit) : List Char → Option (List StringUnit × List Char)
  | [] => none
  | '"' :: rest => some (read, rest)
  | '\\' :: 'u' :: a :: b :: c :: d :: rest =>
    match Text.digits? 16 [a, b, c, d] with
    | none => none
    | some code => stringUnits? (.ofCode code :: read) rest
  | '\\' :: letter :: rest =>
    match shortEscape? letter with
    | none => none
    | some escaped => stringUnits? (.char escaped :: read) rest
  | c :: rest => if c = '\\' ∨ c.toNat < 0x20 then none else stringUnits? (.char c :: read) rest

/-- The characters of some units, last first, before the given characters. Two surrogates
make one character if the first is below `0xDC00` and the second is not; no other surrogate
is part of a text. -/
def charsOfUnits (chars : List Char) : List StringUnit → Option (List Char)
  | [] => some chars
  | .char c :: rest => charsOfUnits (c :: chars) rest
  | .surrogate low :: .surrogate high :: rest =>
    if high < 0xDC00 ∧ 0xDC00 ≤ low then
      charsOfUnits (.ofNat (0x10000 + (high - 0xD800) * 0x400 + (low - 0xDC00)) :: chars) rest
    else none
  | .surrogate _ :: _ => none

/-- The text that a string holds after its opening quote, or `none` if it holds no text, and
what follows its closing quote. -/
def text? (text : List Char) : Option (Option String × List Char) :=
  (stringUnits? [] text).map fun (units, rest) => ((charsOfUnits [] units).map String.ofList, rest)

/-! ## Numbers -/

def fraction? (text : List Char) : Option (List Char × List Char) :=
  match text with
  | '.' :: rest =>
    let digits := rest.takeWhile Char.isDigit
    if digits.isEmpty then none else some ('.' :: digits, rest.drop digits.length)
  | _ => some ([], text)

def exponentSign (text : List Char) : List Char × List Char :=
  match text with
  | '+' :: rest => (['+'], rest)
  | '-' :: rest => (['-'], rest)
  | _ => ([], text)

def exponent? (text : List Char) : Option (List Char × List Char) :=
  match text with
  | c :: rest =>
    if c = 'e' ∨ c = 'E' then
      let (sign, rest) := exponentSign rest
      let digits := rest.takeWhile Char.isDigit
      if digits.isEmpty then none else some (c :: sign ++ digits, rest.drop digits.length)
    else some ([], text)
  | [] => some ([], [])

/-- The whole part of a number and what follows: a digit, or several of which the first is
not zero. -/
def whole? (text : List Char) : Option (List Char × List Char) :=
  let digits := text.takeWhile Char.isDigit
  match digits with
  | [] | '0' :: _ :: _ => none
  | _ => some (digits, text.drop digits.length)

def number? (text : List Char) : Option (Json × List Char) := do
  let (sign, rest) := match text with
    | '-' :: rest => (['-'], rest)
    | _ => ([], text)
  let (whole, rest) ← whole? rest
  let (fraction, rest) ← fraction? rest
  let (exponent, rest) ← exponent? rest
  if sign.isEmpty && fraction.isEmpty && exponent.isEmpty then
    return (natural (← Text.digits? 10 whole), rest)
  else
    return (number (String.ofList (sign ++ whole ++ fraction ++ exponent)), rest)

/-! ## Values -/

/-- An object with the members read so far, last first, unless one of their keys is no text. -/
def ofMembers (members : List (Option String × Json)) : Json :=
  match members.reverse.mapM fun member => member.1.map (·, member.2) with
  | some members => object members
  | none => illFormed

mutual

/-- A value without white space before it, and what follows. -/
def value? (fuel : Nat) (text : List Char) : Option (Json × List Char) :=
  match fuel, text with
  | 0, _ => none
  | _, [] => none
  | fuel + 1, c :: rest =>
    match c with
    | 'n' => word? "null" null text
    | 't' => word? "true" (bool true) text
    | 'f' => word? "false" (bool false) text
    | '"' =>
      match text? rest with
      | none => none
      | some (none, rest) => some (illFormed, rest)
      | some (some content, rest) => some (string content, rest)
    | '[' =>
      match skipSpace rest with
      | ']' :: rest => some (array [], rest)
      | rest => items? fuel [] rest
    | '{' =>
      match skipSpace rest with
      | '}' :: rest => some (object [], rest)
      | rest => members? fuel [] rest
    | _ => number? text

def items? (fuel : Nat) (read : List Json) (text : List Char) : Option (Json × List Char) :=
  match fuel with
  | 0 => none
  | fuel + 1 =>
    match value? fuel text with
    | none => none
    | some (item, rest) =>
      match skipSpace rest with
      | ',' :: rest => items? fuel (item :: read) (skipSpace rest)
      | ']' :: rest => some (array (item :: read).reverse, rest)
      | _ => none

def members? (fuel : Nat) (read : List (Option String × Json)) (text : List Char) :
    Option (Json × List Char) :=
  match fuel, text with
  | fuel + 1, '"' :: rest =>
    match text? rest with
    | none => none
    | some (key, rest) =>
      match skipSpace rest with
      | ':' :: rest =>
        match value? fuel (skipSpace rest) with
        | none => none
        | some (value, rest) =>
          match skipSpace rest with
          | ',' :: rest => members? fuel ((key, value) :: read) (skipSpace rest)
          | '}' :: rest => some (ofMembers ((key, value) :: read), rest)
          | _ => none
      | _ => none
  | _, _ => none

end

def parse? (text : String) : Option Json :=
  let chars := skipSpace text.toList
  match value? (2 * chars.length + 2) chars with
  | some (value, rest) => if (skipSpace rest).isEmpty then some value else none
  | none => none

end Ls8.Json
