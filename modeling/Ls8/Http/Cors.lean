import Ls8.Http.Rejection

/-!
# Requests from other origins

A browser names the origin of the page that sends a request. All origins are served; a
preflight, an `OPTIONS` request with an origin, is answered with what is allowed, or refused.

* `Cors.check`: what a request is, or why it is refused.
* `Cors.preflight`, `Cors.expose`: the answer to a preflight, and an answer marked for the
  origin that asked.
-/

namespace Ls8.Http.Cors

structure Policy where
  methods : List String
  headers : List String

inductive Kind where
  /-- No origin is named. -/
  | sameOrigin
  | simple (origin : String)
  | preflight (origin : String)
  deriving DecidableEq

/-- The pieces of a header value between commas, `piece` being the characters read of the
first one, last first. -/
def piecesFrom (piece : List Char) : List Char → List (List Char)
  | [] => [piece.reverse]
  | c :: rest =>
    if c = ',' then piece.reverse :: piecesFrom [] rest else piecesFrom (c :: piece) rest

def isListSpace (c : Char) : Bool := c = ' ' || c = '\t'

def headerName (piece : List Char) : String :=
  let start := piece.dropWhile isListSpace
  String.ofList ((start.reverse.dropWhile isListSpace).reverse.map Char.toLower)

def headerNames (value : String) : List String := (piecesFrom [] value.toList).map headerName

/-- What a preflight asks for: its method has to be allowed, then every header that it
names. -/
def checkPreflight (policy : Policy) (request : Request) : Except Forbidden Unit := do
  let method := request.header? "access-control-request-method"
  unless method.any policy.methods.contains do throw .method
  let headers := request.header? "access-control-request-headers"
  unless headers.all fun value => (headerNames value).all policy.headers.contains do throw .header

def check (policy : Policy) (request : Request) : Except Forbidden Kind :=
  match request.header? "origin" with
  | none => .ok .sameOrigin
  | some origin =>
    if request.method = "OPTIONS" then do
      checkPreflight policy request
      return .preflight origin
    else .ok (.simple origin)

def allowOrigin : String := "access-control-allow-origin"

def preflight (policy : Policy) (origin : String) : Response where
  status := 200
  headers := [
    ("access-control-allow-headers", ", ".intercalate policy.headers),
    ("access-control-allow-methods", ", ".intercalate policy.methods),
    (allowOrigin, origin)]
  body := .text ""

/-- The answer with the mark that lets `origin` see it. -/
def expose (origin : String) (response : Response) : Response :=
  { response with headers := response.headers ++ [(allowOrigin, origin)] }

end Ls8.Http.Cors
