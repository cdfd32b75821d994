import Ls8.Json.Basic

/-!
# HTTP requests and responses

* `Http.Request.ofTarget`: a request from its method, target, headers and body. The target is
  a path, with or without the address of a host before it, a host alone, or `*`.
* `Http.Request.header?`: the value of a header.
* `Http.Request.segments`: the segments of its path; one slash at the end does not count.
* `Http.Response`: status, headers and a body of JSON or text.
-/

namespace Ls8.Http

/-- A request. The path is kept as it was sent, escapes and all. -/
structure Request where
  method : String
  path : String
  query : Option String := none
  headers : List (String × String) := []
  body : String := ""
  deriving DecidableEq

namespace Request

def isSchemeChar (c : Char) : Bool := c.isAlphanum || "+-.~".toList.contains c

def afterScheme? (target : List Char) : Option (List Char) :=
  match target.dropWhile isSchemeChar with
  | ':' :: '/' :: '/' :: rest => some rest
  | _ => none

/-- A target without the host that it may name. A full address has the path `/` if it names
none, and a host alone has the empty path, which is none of the service's. -/
def withoutHost (target : List Char) : List Char :=
  match target with
  | '/' :: _ | ['*'] => target
  | _ =>
    match afterScheme? target with
    | none => []
    | some rest =>
      match rest.dropWhile fun c => !"/?#".toList.contains c with
      | '/' :: path => '/' :: path
      | query => '/' :: query

/-- Splits a target into path and query. A fragment belongs to neither. -/
def splitTarget (target : List Char) : List Char × Option (List Char) :=
  let sent := (withoutHost target).takeWhile (· != '#')
  let path := sent.takeWhile (· != '?')
  match sent.drop path.length with
  | [] => (path, none)
  | _ :: query => (path, some query)

def ofTarget (method target : String) (headers : List (String × String)) (body : String) :
    Request :=
  let (path, query) := splitTarget target.toList
  { method, path := String.ofList path, query := query.map String.ofList, headers, body }

/-- The value of a header, by its name in any case. Of several the last one counts. -/
def header? (request : Request) (name : String) : Option String :=
  (request.headers.reverse.find? fun header => header.1.map Char.toLower == name).map (·.2)

/-- The pieces of a text between slashes, `piece` being the characters read of the first one,
last first. -/
def piecesFrom (piece : List Char) : List Char → List String
  | [] => [String.ofList piece.reverse]
  | c :: rest =>
    if c = '/' then String.ofList piece.reverse :: piecesFrom [] rest
    else piecesFrom (c :: piece) rest

/-- The pieces without an empty one at the end, if there is another. -/
def dropTrailingEmpty (pieces : List String) : List String :=
  match pieces.reverse with
  | "" :: before :: rest => (before :: rest).reverse
  | _ => pieces

def segments (request : Request) : List String :=
  match request.path.toList with
  | '/' :: rest => dropTrailingEmpty (piecesFrom [] rest)
  | path => dropTrailingEmpty (piecesFrom [] path)

end Request

inductive Body where
  | json (value : Json)
  | text (content : String)

structure Response where
  status : Nat
  headers : List (String × String) := []
  body : Body

def contentType : String := "content-type"

def Response.ofJson (status : Nat) (value : Json) : Response where
  status := status
  headers := [(contentType, "application/json")]
  body := .json value

def Response.ofText (status : Nat) (type content : String) : Response where
  status := status
  headers := [(contentType, type)]
  body := .text content

end Ls8.Http
