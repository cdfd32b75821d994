/-!
# The text of a metrics page

A page lists families of samples. A family has a name, a help text and a kind; a sample has
labels and a count. Samples stand in the order of their label values, and a family without
samples is left out.
-/

namespace Ls8.Metrics

inductive Kind where
  | counter
  | gauge
  /-- Observations, of which the page shows the number. -/
  | histogram
  deriving DecidableEq, Repr

def Kind.name : Kind → String
  | counter => "counter"
  | gauge => "gauge"
  | histogram => "histogram"

/-- A count under labels, which stand in the order of their names. -/
structure Sample where
  labels : List (String × String) := []
  count : Nat
  deriving DecidableEq, Repr

structure Family where
  name : String
  help : String
  kind : Kind
  samples : List Sample
  deriving DecidableEq, Repr

def labelText (labels : List (String × String)) : String :=
  if labels.isEmpty then ""
  else
    let shown := labels.map fun label => label.1 ++ "=\"" ++ label.2 ++ "\""
    "\x7b" ++ ",".intercalate shown ++ "\x7d"

def sampleLine (name : String) (labels : List (String × String)) (count : Nat) : String :=
  name ++ labelText labels ++ " " ++ toString count

/-- The lines of a sample. A histogram shows the number of its observations twice: in the
bucket without bound, and as their count. -/
def Sample.lines (name : String) (kind : Kind) (sample : Sample) : List String :=
  match kind with
  | .counter | .gauge => [sampleLine name sample.labels sample.count]
  | .histogram =>
    [sampleLine (name ++ "_bucket") (sample.labels ++ [("le", "+Inf")]) sample.count,
     sampleLine (name ++ "_count") sample.labels sample.count]

/-- Whether a text stands before another one, in the order of their code points. -/
def textBefore (first second : String) : Bool :=
  first.toList.lex second.toList fun a b => a.toNat < b.toNat

/-- Whether a sample stands before another one or has the same label values. -/
def Sample.before (first second : Sample) : Bool :=
  !(second.labels.map Prod.snd).lex (first.labels.map Prod.snd) textBefore

def Family.lines (family : Family) : List String :=
  if family.samples.isEmpty then []
  else
    ["# HELP " ++ family.name ++ " " ++ family.help,
     "# TYPE " ++ family.name ++ " " ++ family.kind.name]
      ++ (family.samples.mergeSort Sample.before).flatMap (Sample.lines family.name family.kind)

def page (families : List Family) : String :=
  String.join ((families.flatMap Family.lines).map (· ++ "\n"))

end Ls8.Metrics
