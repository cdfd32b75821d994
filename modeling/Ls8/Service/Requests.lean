import Ls8.Http.Query
import Ls8.Snapshot.Document

/-!
# What requests ask for

The records that the bodies and queries of requests hold, and how they are read.
-/

namespace Ls8.Service

structure RunRequest where
  image : String
  corrected : Option Bool
  maxSteps : Option UInt64
  deriving DecidableEq, Repr

structure CreateRequest where
  image : String
  corrected : Option Bool
  deriving DecidableEq, Repr

structure ExecuteRequest where
  steps : Nat
  deriving DecidableEq, Repr

structure RestoreRequest where
  snapshotId : String
  deriving DecidableEq, Repr

/-- Consecutive cells; one cell if no length is given. -/
structure MemoryWindow where
  address : Nat
  length : Option Nat
  deriving DecidableEq, Repr

def RunRequest.ofJson? (body : Json) : Option RunRequest := do
  guard (body.isRecord ["image", "corrected", "max_steps"])
  let image ← body.required 0 "image" Json.string?
  let corrected ← body.optional 1 "corrected" Json.bool?
  let maxSteps ← body.optional 2 "max_steps" wordOfJson?
  return { image, corrected, maxSteps }

def CreateRequest.ofJson? (body : Json) : Option CreateRequest := do
  guard (body.isRecord ["image", "corrected"])
  let image ← body.required 0 "image" Json.string?
  let corrected ← body.optional 1 "corrected" Json.bool?
  return { image, corrected }

/-- One more than the greatest number of instructions that can be asked for at once. -/
def stepsBound : Nat := UInt32.size

def ExecuteRequest.ofJson? (body : Json) : Option ExecuteRequest := do
  guard (body.isRecord ["steps"])
  let steps ← body.required 0 "steps" (Json.natural? stepsBound)
  return { steps }

def RestoreRequest.ofJson? (body : Json) : Option RestoreRequest := do
  guard (body.isRecord ["snapshot_id"])
  let snapshotId ← body.required 0 "snapshot_id" Json.string?
  return { snapshotId }

def countOfText? (text : String) : Option Nat := Text.unsigned? countBound text.toList

def MemoryWindow.ofQuery? (query : String) : Option MemoryWindow := do
  let fields := Http.Query.fields query
  let address ← countOfText? (← ← Http.Query.field? fields "address")
  let length ← match ← Http.Query.field? fields "length" with
    | none => some none
    | some text => (countOfText? text).map some
  return { address, length }

end Ls8.Service
