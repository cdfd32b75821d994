import Ls8.Http.Message

/-!
# Rejections

Why a request reaches no handler. Each route has its own reason; `Rejection.prefer` chooses
between two of them, and `Rejection.response` tells the client.
-/

namespace Ls8.Http

/-- What a request from another origin asked for that it may not have. -/
inductive Forbidden where
  | method
  | header
  deriving DecidableEq, Repr

inductive Rejection where
  | notFound
  | methodNotAllowed
  | unsupportedMediaType
  | invalidQuery
  | invalidBody
  | forbidden (what : Forbidden)
  deriving DecidableEq, Repr

namespace Rejection

def status : Rejection → Nat
  | notFound => 404
  | methodNotAllowed => 405
  | unsupportedMediaType => 415
  | invalidQuery => 400
  | invalidBody => 400
  | forbidden _ => 403

/-- How much a rejection says: a route that the path or the method misses says least, of the
others the one with the higher status says more. -/
def weight : Rejection → Nat
  | notFound => 0
  | methodNotAllowed => 1
  | other => other.status

/-- The rejection that says more; the first of two that say the same. -/
def prefer (first second : Rejection) : Rejection :=
  if first.weight < second.weight then second else first

def message : Rejection → String
  | notFound => ""
  | methodNotAllowed => "HTTP method not allowed"
  | unsupportedMediaType => "The request's content-type is not supported"
  | invalidQuery => "Invalid query string"
  | invalidBody => "Request body deserialize error"
  | forbidden .method => "CORS request forbidden: request-method not allowed"
  | forbidden .header => "CORS request forbidden: header not allowed"

def response (rejection : Rejection) : Response :=
  match rejection with
  | notFound => { status := 404, body := .text "" }
  | other => .ofText other.status "text/plain; charset=utf-8" other.message

end Rejection

end Ls8.Http
