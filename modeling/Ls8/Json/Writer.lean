import Ls8.Json.Basic
import Ls8.Text.Radix

/-!
# JSON text of a value

* `Json.compact`: on one line, without blanks.
* `Json.pretty`: one item or member per line, two blanks deeper for each level.
-/

namespace Ls8.Json

/-- A character inside a string: quotes, backslashes and control characters are escaped. -/
def escape (c : Char) : String :=
  match c with
  | '"' => "\\\""
  | '\\' => "\\\\"
  | '\n' => "\\n"
  | '\r' => "\\r"
  | '\t' => "\\t"
  | '\x08' => "\\b"
  | '\x0c' => "\\f"
  | c => if c.toNat < 0x20 then "\\u" ++ (Radix.hex 4 c.toNat).map Char.toLower else c.toString

def quote (text : String) : String :=
  text.foldl (fun shown c => shown ++ escape c) "\"" ++ "\""

/-- The text of a value that has no parts. A string that is no text shows the replacement
character. -/
def scalar : Json → String
  | bool true => "true"
  | bool false => "false"
  | natural value => toString value
  | number literal => literal
  | string value => quote value
  | illFormed => quote "\ufffd"
  | _ => "null"

mutual

def compact : Json → String
  | array items => "[" ++ ",".intercalate (compactItems items) ++ "]"
  | object members => "\x7b" ++ ",".intercalate (compactMembers members) ++ "\x7d"
  | value => scalar value

def compactItems : List Json → List String
  | [] => []
  | item :: rest => compact item :: compactItems rest

def compactMembers : List (String × Json) → List String
  | [] => []
  | (key, value) :: rest => (quote key ++ ":" ++ compact value) :: compactMembers rest

end

/-- Parts on lines of their own between two brackets, or the bare brackets. -/
def block (indent opening closing : String) (parts : List String) : String :=
  if parts.isEmpty then opening ++ closing
  else
    opening ++ "\n" ++ ",\n".intercalate (parts.map (indent ++ "  " ++ ·)) ++ "\n" ++ indent
      ++ closing

mutual

/-- The value over several lines, all but the first after `indent`. -/
def prettyAt (indent : String) : Json → String
  | array items => block indent "[" "]" (prettyItems (indent ++ "  ") items)
  | object members => block indent "\x7b" "\x7d" (prettyMembers (indent ++ "  ") members)
  | value => scalar value

def prettyItems (indent : String) : List Json → List String
  | [] => []
  | item :: rest => prettyAt indent item :: prettyItems indent rest

def prettyMembers (indent : String) : List (String × Json) → List String
  | [] => []
  | (key, value) :: rest =>
    (quote key ++ ": " ++ prettyAt indent value) :: prettyMembers indent rest

end

def pretty (value : Json) : String := prettyAt "" value

end Ls8.Json
