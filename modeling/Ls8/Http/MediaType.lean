import Ls8.Text.Radix

/-!
# Media types

`MediaType.parse?` reads the value of a content-type header: a type and a subtype, then
parameters, whose form has to be right though their values are not kept.
-/

namespace Ls8.Http

/-- A type and a subtype in small letters, the latter without a structured suffix. -/
structure MediaType where
  type : String
  subtype : String
  deriving DecidableEq, Repr

namespace MediaType

def isToken (c : Char) : Bool := c.isAlphanum || "!#$%&'*+-.^_`|~".toList.contains c

def isQuotable (c : Char) : Bool := 31 < c.toNat && c.toNat < 127

/-- What follows a value in quotes, after its opening quote. The value is not empty: a quote
right at its start belongs to it. -/
def afterQuoted? (text : List Char) : Option (List Char) :=
  match text with
  | [] => none
  | first :: rest =>
    let content := rest.takeWhile (· != '"')
    if isQuotable first && content.all isQuotable then
      match rest.drop content.length with
      | _ :: after => some (after.dropWhile (· == ' '))
      | [] => none
    else none

/-- What follows the value of a parameter. A value without quotes is empty only at the end. -/
def afterValue? (text : List Char) : Option (List Char) :=
  match text with
  | '"' :: rest => afterQuoted? rest
  | _ =>
    let value := text.takeWhile isToken
    let rest := text.drop value.length
    if value.isEmpty && !rest.isEmpty then none else some rest

/-- Whether the text after a semicolon is a list of parameters, of at most `fuel` of them. -/
def areParameters (fuel : Nat) (text : List Char) : Bool :=
  match fuel with
  | 0 => false
  | fuel + 1 =>
    let text := text.dropWhile (· == ' ')
    if text.isEmpty then true
    else
      let name := text.takeWhile isToken
      match name, text.drop name.length with
      | _ :: _, '=' :: value =>
        match afterValue? value with
        | some [] => true
        | some (';' :: rest) => areParameters fuel rest
        | _ => false
      | _, _ => false

/-- The text before its last `+`, if it has one that is not its first character. -/
def dropSuffix (subtype : List Char) : List Char :=
  match (subtype.drop 1).reverse.dropWhile (· != '+') with
  | [] => subtype
  | _ :: before => subtype.take 1 ++ before.reverse

def lower (text : List Char) : String := String.ofList (text.map Char.toLower)

def parse? (value : String) : Option MediaType :=
  let text := value.toList
  let type := text.takeWhile isToken
  match type, text.drop type.length with
  | _ :: _, '/' :: rest =>
    let subtype := rest.takeWhile isToken
    let parsed : MediaType := { type := lower type, subtype := lower (dropSuffix subtype) }
    match rest.drop subtype.length with
    | [] => some parsed
    | ';' :: parameters =>
      if !subtype.isEmpty && areParameters (parameters.length + 1) parameters then some parsed
      else none
    | _ => none
  | _, _ => none

def json : MediaType := { type := "application", subtype := "json" }

end MediaType

end Ls8.Http
