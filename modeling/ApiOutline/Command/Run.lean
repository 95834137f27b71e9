import ApiOutline.Command.Perform
import ApiOutline.Show.Streams

/-!
# Running the program

A run takes the words of a command line to texts on two streams, changed files and an exit code.
The exit code is a function of how the run has ended. An error that the user can do something about
is told in one message; any other leaves a report among the program's data.
-/

namespace ApiOutline.Command

/-- How a run has ended. -/
inductive Ending where
  /-- The request was performed. -/
  | done
  /-- The request was refused with a message. -/
  | refused
  /-- There was no request. -/
  | halted (reason : Halt)
  /-- An error was reported. -/
  | failed (e : Failure) (report : Report)
  /-- Something unforeseen happened. -/
  | broken (e : Failure)

def Halt.exitCode : Halt → Nat
  | .version | .help => ExitCode.success
  | .misused _ => ExitCode.usage

namespace Ending

def exitCode : Ending → Nat
  | .done => ExitCode.success
  | .refused => ExitCode.usage
  | .halted reason => reason.exitCode
  | .failed _ report => report.kind.exitCode
  | .broken _ => ExitCode.failure

/-- Whether all that was shown is about how the program is used. -/
def isUsage : Ending → Bool
  | .halted .help | .halted (.misused _) => true
  | _ => false

end Ending

/-- The version of the program. -/
def versionText : String := "apitree 0.3.0\n"

/-- How the program is used. -/
def usageText : String :=
  "\n".intercalate
    ["Usage: apitree [OPTIONS] COMMAND [ARGS]...",
     "",
     "Options:",
     "  --version            Show the version.",
     "  -c, --config FILE    Use this settings file.",
     "  --json               Show data as JSON.",
     "  --plain              Show data as plain lines.",
     "  --no-color           Use no colours.",
     "  -q, --quiet          Show no more than necessary.",
     "  -v, --verbose        Show details of the work.",
     "  -o, --output FILE    Write data to this file.",
     "  --help               Show this text.",
     "",
     "Commands:",
     "  parse SPEC           Show models and paths as JSON.",
     "  paths SPEC           Show the path tree (--no-bridges leaves bridges out).",
     "  models SPEC          Show the models.",
     "  config show          Show the settings.",
     "  config init          Write the default settings (--force overwrites).",
     ""]

/-- What is wrong with a command line, in one line. -/
def Misuse.message : Misuse → String
  | .unknownOption word => "No such option: " ++ word
  | .noValue word => "Option requires an argument: " ++ word
  | .uselessValue word => "Option does not take a value: " ++ word
  | .unknownCommand word => "No such command: " ++ word
  | .noCommand => "Missing command."
  | .noArgument => "Missing argument SPEC."
  | .extraArgument word => "Got unexpected extra argument: " ++ word

/-- Ends a run that has no request. -/
def halt (reason : Halt) : Action Ending := do
  match reason with
  | .version => Action.data versionText
  | .help => Action.data usageText
  | .misused e => Action.message (usageText ++ "\nError: " ++ e.message ++ "\n")
  return .halted reason

/-- Keeps a report of something unforeseen, and returns its path. -/
def keepReport (e : Failure) : Action Path := do
  let directory := (← SettingsFile.dataDirectory).child "logs"
  Host.ensure directory
  let path := directory.child ("crash-" ++ (← Action.host).clock ++ ".log")
  let content := Text.encodeUtf8 (reprStr e ++ "\n")
  Action.change fun h => h.files.write h.directory path content
  return path

/-- Ends a run in which something went wrong. -/
def stop (e : Failure) : Action Ending :=
  match e.report with
  | some report => do
      Action.message ("Error: " ++ report.message ++ "\n")
      return .failed e report
  | none => do
      let path ← keepReport e
      Action.message ("Error: Unexpected error. Debug log: " ++ path.text ++ "\n")
      return .broken e

/-- Follows a command line whose options are known. -/
def follow (o : Opening) : Action Ending := do
  match ← Action.attempt o.options.prepare with
  | .error e => stop e
  | .ok setting =>
      match Request.read o.name o.rest with
      | .error reason => halt reason
      | .ok request =>
          match ← Action.attempt (setting.perform request) with
          | .error e => stop e
          | .ok true => return .done
          | .ok false => return .refused

/-- What a run has come to. -/
structure Run where
  /-- The host after the run. -/
  host : Host
  streams : Show.Streams
  ending : Ending

namespace Run

def exitCode (r : Run) : Nat := r.ending.exitCode

/-- The run that an action makes. -/
def ofAction (isDetailed : Bool) (x : Action Ending) (h : Host) : Except Failure Run :=
  let acted := x h
  acted.result.map fun ending => ⟨acted.host, .ofEvents isDetailed acted.events, ending⟩

/-- Runs the program on a host. A run fails only if it cannot keep a report. -/
def ofWords (h : Host) (args : List String) : Except Failure Run :=
  match Opening.read args with
  | .error reason => ofAction false (halt reason) h
  | .ok opening => ofAction (opening.options.isDetailed h) (follow opening) h

end Run

end ApiOutline.Command
