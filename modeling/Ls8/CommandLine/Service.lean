import Ls8.CommandLine.Emulator
import Ls8.Service.Settings

/-!
# The service's command

`ServiceCommand.start` reads the settings of the service. Settings that cannot be understood
are logged, and the command ends.
-/

namespace Ls8.CommandLine.ServiceCommand

def start (environment : String → Option String) : Except Exit Service.Settings :=
  match Service.Settings.read environment with
  | .ok settings => .ok settings
  | .error error =>
    let log : Log := { filter := logFilter environment (.upTo .info) }
    let log := log.write .error .serviceCommand fun _ => error.message
    .error { code := 1, errors := log.text (wantsColour environment) }

end Ls8.CommandLine.ServiceCommand
