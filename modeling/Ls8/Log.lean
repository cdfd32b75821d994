/-!
# The log

Records of five levels. A log has a threshold, and a record above it is not even worded. The
text of a log shows a record per line, with the name of its level in colour if that is wanted.
-/

namespace Ls8

inductive LogLevel where
  | error
  | warn
  | info
  | debug
  | trace
  deriving DecidableEq, Repr

namespace LogLevel

def rank : LogLevel → Nat
  | error => 1
  | warn => 2
  | info => 3
  | debug => 4
  | trace => 5

def name : LogLevel → String
  | error => "ERROR"
  | warn => "WARN"
  | info => "INFO"
  | debug => "DEBUG"
  | trace => "TRACE"

/-- The number of the colour that a terminal shows the level in; the last level has none. -/
def colour? : LogLevel → Option Nat
  | error => some 31
  | warn => some 33
  | info => some 36
  | debug => some 35
  | trace => none

/-- The name, five characters wide, between the sequences that set and reset the colour if
colours are wanted. -/
def label (coloured : Bool) (level : LogLevel) : String :=
  let name := level.name.pushn ' ' (5 - level.name.length)
  match level.colour? with
  | some number =>
    if coloured then "\x1b[" ++ toString number ++ "m" ++ name ++ "\x1b[0m" else name
  | none => name

end LogLevel

/-- Which records a log keeps: none, or those at least as important as a level. -/
inductive LogFilter where
  | off
  | upTo (level : LogLevel)
  deriving DecidableEq, Repr

namespace LogFilter

def admits (filter : LogFilter) (level : LogLevel) : Bool :=
  match filter with
  | off => false
  | upTo least => level.rank ≤ least.rank

/-- All filters, with the names they are asked for by. -/
def named : List (String × LogFilter) :=
  [("OFF", off), ("ERROR", upTo .error), ("WARN", upTo .warn), ("INFO", upTo .info),
   ("DEBUG", upTo .debug), ("TRACE", upTo .trace)]

def ofName? (name : String) : Option LogFilter :=
  named.lookup (String.ofList (name.toList.map Char.toUpper))

end LogFilter

inductive LogSource where
  | machine
  | service
  | emulatorCommand
  | serviceCommand
  deriving DecidableEq, Repr

def LogSource.name : LogSource → String
  | .machine => "ls8_emulator::cpu"
  | .service => "ls8_emulator::server"
  | .emulatorCommand => "ls8"
  | .serviceCommand => "ls8_server"

structure LogRecord where
  level : LogLevel
  source : LogSource
  message : String
  deriving DecidableEq, Repr

def LogRecord.line (coloured : Bool) (entry : LogRecord) : String :=
  entry.level.label coloured ++ " [" ++ entry.source.name ++ "] " ++ entry.message ++ "\n"

/-- The records kept so far, oldest first. -/
structure Log where
  filter : LogFilter := .off
  records : Array LogRecord := #[]
  deriving DecidableEq

def Log.write (log : Log) (level : LogLevel) (source : LogSource) (message : Unit → String) :
    Log :=
  if log.filter.admits level then
    { log with records := log.records.push { level, source, message := message () } }
  else log

def Log.text (coloured : Bool) (log : Log) : String :=
  String.join (log.records.toList.map (LogRecord.line coloured))

end Ls8
