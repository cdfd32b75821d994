import Ls8.Text.Unsigned

/-!
# Query strings

The pairs of a form: `&` stands between pairs and `=` between a name and its value, `+` for a
blank, and `%` and two hexadecimal digits for a byte.

* `Http.Query.decode`: the bytes of a name or value.
* `Http.Query.fields`: the named values; a part that is no UTF-8 has no text.
* `Http.Query.field?`: the value of a name, refused if it is given twice.
-/

namespace Ls8.Http.Query

/-- Undoes the escapes: a percent sign without two digits after it stands for itself. -/
def unescape : List UInt8 → List UInt8
  | [] => []
  | 37 :: high :: low :: rest =>
    match Text.digits? 16 [.ofNat high.toNat, .ofNat low.toNat] with
    | some code => code.toUInt8 :: unescape rest
    | none => 37 :: unescape (high :: low :: rest)
  | byte :: rest => (if byte = 43 then 32 else byte) :: unescape rest

def decode (part : List Char) : Option String :=
  String.fromUTF8? ⟨(unescape (String.ofList part).toUTF8.data.toList).toArray⟩

/-- The pieces between ampersands, `piece` being the characters read of the first one, last
first. -/
def piecesFrom (piece : List Char) : List Char → List (List Char)
  | [] => [piece.reverse]
  | c :: rest =>
    if c = '&' then piece.reverse :: piecesFrom [] rest else piecesFrom (c :: piece) rest

/-- The name and value of a pair; a pair without `=` has an empty value. -/
def pair (piece : List Char) : Option String × Option String :=
  let name := piece.takeWhile (· != '=')
  (decode name, decode (piece.drop (name.length + 1)))

/-- The pairs of a query. Empty pieces are none. -/
def fields (query : String) : List (Option String × Option String) :=
  ((piecesFrom [] query.toList).filter (!·.isEmpty)).map pair

/-- The value of a name: `none` if it is given twice or its value has no text, `some none` if
it is not given. -/
def field? (query : List (Option String × Option String)) (name : String) :
    Option (Option String) :=
  match query.filter fun field => field.1 == some name with
  | [] => some none
  | [(_, some value)] => some (some value)
  | _ => none

end Ls8.Http.Query
