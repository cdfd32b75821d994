import Ls8.Http.MediaType
import Ls8.Http.Rejection
import Ls8.Json.Reader
import Ls8.Service.Requests

/-!
# Routes

A route is a method, a pattern of path segments and what it reads from the request.

* `Route.bind?`: the id in a path that has the route's pattern.
* `Route.accept`: the call that a request makes, or why it is none of this route. The path is
  looked at first, then the method, then body or query.
* `Route.dispatch`: the call by the first route that accepts; if none does, the rejection that
  says most.
-/

namespace Ls8.Service

inductive Route where
  | run
  | create
  | inspect
  | step
  | execute
  | readMemory
  | snapshot
  | restore
  | list
  | delete
  | metrics
  deriving DecidableEq, Repr

/-- A request that has reached its handler. -/
inductive Call where
  | run (request : RunRequest)
  | create (request : CreateRequest)
  | inspect (id : String)
  | step (id : String)
  | execute (id : String) (request : ExecuteRequest)
  | readMemory (id : String) (window : MemoryWindow)
  | snapshot (id : String)
  | restore (id : String) (request : RestoreRequest)
  | list
  | delete (id : String)
  | metrics
  deriving DecidableEq, Repr

def Call.route : Call → Route
  | .run _ => .run
  | .create _ => .create
  | .inspect _ => .inspect
  | .step _ => .step
  | .execute _ _ => .execute
  | .readMemory _ _ => .readMemory
  | .snapshot _ => .snapshot
  | .restore _ _ => .restore
  | .list => .list
  | .delete _ => .delete
  | .metrics => .metrics

/-- A segment of a pattern: a fixed word, or a place for an id. -/
inductive Segment where
  | word (text : String)
  | id
  deriving DecidableEq, Repr

namespace Route

/-- All routes, in the order in which they are tried. -/
def all : List Route :=
  [run, create, inspect, step, execute, readMemory, snapshot, restore, list, delete, metrics]

def method : Route → String
  | run | create | step | execute | snapshot | restore => "POST"
  | inspect | readMemory | list | metrics => "GET"
  | delete => "DELETE"

def pattern : Route → List Segment
  | run => [.word "run"]
  | create => [.word "machine"]
  | inspect | delete => [.word "machine", .id]
  | step => [.word "machine", .id, .word "step"]
  | execute => [.word "machine", .id, .word "execute"]
  | readMemory => [.word "machine", .id, .word "memory"]
  | snapshot => [.word "machine", .id, .word "snapshot"]
  | restore => [.word "machine", .id, .word "restore"]
  | list => [.word "machines"]
  | metrics => [.word "metrics"]

/-- A pattern as the metrics show it. -/
def endpoint (route : Route) : String :=
  route.pattern.foldl (fun shown segment => shown ++ "/" ++ match segment with
    | .word text => text
    | .id => ":id") ""

/-- The id in segments that have a pattern: the last one if there are several, empty if there
is none. An id is not empty. -/
def bindSegments? (bound : String) : List Segment → List String → Option String
  | [], [] => some bound
  | .word text :: pattern, segment :: segments =>
    if segment = text then bindSegments? bound pattern segments else none
  | .id :: pattern, segment :: segments =>
    if segment = "" then none else bindSegments? segment pattern segments
  | _, _ => none

/-- The id in a request's path, if the path is one of the route's. -/
def bind? (route : Route) (request : Http.Request) : Option String :=
  bindSegments? "" route.pattern request.segments

/-- Reads a JSON body. A request that names no content type is taken to send JSON. -/
def readBody {α : Type} (request : Http.Request) (read : Json → Option α) :
    Except Http.Rejection α :=
  let isJson := (request.header? Http.contentType).all fun value =>
    Http.MediaType.parse? value == some Http.MediaType.json
  if isJson then
    match (Json.parse? request.body).bind read with
    | some value => .ok value
    | none => .error .invalidBody
  else .error .unsupportedMediaType

/-- Reads a query; a request without one has the empty query. -/
def readQuery {α : Type} (request : Http.Request) (read : String → Option α) :
    Except Http.Rejection α :=
  match read (request.query.getD "") with
  | some value => .ok value
  | none => .error .invalidQuery

def call (route : Route) (id : String) (request : Http.Request) : Except Http.Rejection Call :=
  match route with
  | run => .run <$> readBody request RunRequest.ofJson?
  | create => .create <$> readBody request CreateRequest.ofJson?
  | inspect => .ok (.inspect id)
  | step => .ok (.step id)
  | execute => .execute id <$> readBody request ExecuteRequest.ofJson?
  | readMemory => .readMemory id <$> readQuery request MemoryWindow.ofQuery?
  | snapshot => .ok (.snapshot id)
  | restore => .restore id <$> readBody request RestoreRequest.ofJson?
  | list => .ok .list
  | delete => .ok (.delete id)
  | metrics => .ok .metrics

def accept (route : Route) (request : Http.Request) : Except Http.Rejection Call :=
  match route.bind? request with
  | none => .error .notFound
  | some id =>
    if request.method = route.method then route.call id request
    else .error .methodNotAllowed

/-- The call by the first of some routes that accepts the request; else the rejection that
says most, `rejection` among them. -/
def dispatch (request : Http.Request) (rejection : Http.Rejection) :
    List Route → Except Http.Rejection Call
  | [] => .error rejection
  | route :: rest =>
    match route.accept request with
    | .ok call => .ok call
    | .error other => dispatch request (rejection.prefer other) rest

end Route

end Ls8.Service
