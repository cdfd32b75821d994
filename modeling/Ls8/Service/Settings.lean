import Ls8.Net.SocketAddress

/-!
# Settings of the service

`Settings.read` takes the settings from named values such as environment variables: first
`LS8_BIND_ADDR`, then `LS8_MAX_STEPS`, each with a default. The first that cannot be
understood is the error.
-/

namespace Ls8.Service

/-- Where the service listens, and the most instructions that one request may execute. -/
structure Settings where
  bindAddress : Net.SocketAddress := .v4 ⟨#v[127, 0, 0, 1]⟩ 3030
  maxSteps : UInt64 := 1000000
  deriving DecidableEq

/-- A value that is no setting of its name. -/
structure SettingError where
  key : String
  value : String
  deriving DecidableEq, Repr

def SettingError.message (error : SettingError) : String :=
  "invalid value '" ++ error.value ++ "' for " ++ error.key

namespace Settings

def bindAddressKey : String := "LS8_BIND_ADDR"

def maxStepsKey : String := "LS8_MAX_STEPS"

def maxSteps? (value : String) : Option UInt64 := (Text.word? value.toList).filter (0 < ·)

/-- The value under `key` as `read` understands it, else the default. -/
def setting {α : Type} (lookup : String → Option String) (key : String)
    (read : String → Option α) (default : α) : Except SettingError α :=
  match lookup key with
  | none => .ok default
  | some value =>
    match read value with
    | some setting => .ok setting
    | none => .error { key, value }

def read (lookup : String → Option String) : Except SettingError Settings := do
  let standard : Settings := {}
  let bindAddress ←
    setting lookup bindAddressKey Net.SocketAddress.parse? standard.bindAddress
  let maxSteps ← setting lookup maxStepsKey maxSteps? standard.maxSteps
  return { bindAddress, maxSteps }

end Settings

end Ls8.Service
