import ApiOutline.Command.Switch

/-!
# The command line

A command line names one command. Before its name stand the options that hold for every command;
behind it stand its own options and its arguments, which are read only when the settings have been
found. Asking for the version or for help comes before everything else that a line asks for, but
only a line whose options are well formed can ask.
-/

namespace ApiOutline.Command

/-- An option before the command. -/
inductive GeneralOption where
  | version
  | settings
  | json
  | plain
  | noColor
  | quiet
  | verbose
  | output
  | help
  deriving Repr, DecidableEq

/-- The options before the command. -/
def generalSwitches : Switches GeneralOption where
  all :=
    [⟨.version, ["--version"], false⟩, ⟨.settings, ["--config", "-c"], true⟩,
     ⟨.json, ["--json"], false⟩, ⟨.plain, ["--plain"], false⟩,
     ⟨.noColor, ["--no-color"], false⟩, ⟨.quiet, ["--quiet", "-q"], false⟩,
     ⟨.verbose, ["--verbose", "-v"], false⟩, ⟨.output, ["-o", "--output"], true⟩,
     ⟨.help, ["--help"], false⟩]
  areMixed := false

/-- An option behind the name of a command. -/
inductive OwnOption where
  | bridges
  | noBridges
  | force
  | help
  deriving Repr, DecidableEq

def helpSwitch : Switch OwnOption := ⟨.help, ["--help"], false⟩

/-- What the options before the command ask for. -/
structure Options where
  /-- The settings file to be used. -/
  settings : Option String
  json : Bool
  plain : Bool
  noColor : Bool
  isQuiet : Bool
  isVerbose : Bool
  /-- The file that data go to. -/
  file : Option String
  deriving Repr, DecidableEq

/-- What the program is asked to do. -/
inductive Request where
  | parse (source : String)
  | paths (source : String) (withBridges : Bool)
  | models (source : String)
  | showSettings
  | initSettings (force : Bool)
  deriving Repr, DecidableEq

/-- The names of commands. -/
inductive Name where
  | parse
  | paths
  | models
  | config
  deriving Repr, DecidableEq

/-- Why a line leads to no command. -/
inductive Halt where
  | version
  | help
  | misused (e : Misuse)
  deriving Repr, DecidableEq

/-- A line up to the name of its command. -/
structure Opening where
  options : Options
  name : Name
  rest : List String
  deriving Repr, DecidableEq

namespace Options

def ofWords (w : Words GeneralOption) : Options where
  settings := w.value? .settings
  json := w.has .json
  plain := w.has .plain
  noColor := w.has .noColor
  isQuiet := w.has .quiet
  isVerbose := w.has .verbose
  file := w.value? .output

end Options

namespace Name

/-- The command with a name. -/
def ofWord? : String → Option Name
  | "parse" => some .parse
  | "paths" => some .paths
  | "models" => some .models
  | "config" => some .config
  | _ => none

end Name

/-- What a line of well-formed options asks for before anything else. -/
def generalHalt? (w : Words GeneralOption) : Option Halt :=
  (w.first? [.version, .help]).map fun o => if o = .version then .version else .help

/-- Reads options, and stops at what comes before everything else. -/
def readGeneral (args : List String) : Except Halt (Words GeneralOption) :=
  match generalSwitches.read args with
  | .error e => .error (.misused e)
  | .ok w =>
      match generalHalt? w with
      | some halt => .error halt
      | none => .ok w

/-- Reads a line up to the name of its command. A word that names no command is taken for options
once more. -/
def Opening.read (args : List String) : Except Halt Opening := do
  let w ← readGeneral args
  match w.arguments with
  | [] => .error (.misused .noCommand)
  | word :: rest =>
      match Name.ofWord? word with
      | some name => return ⟨.ofWords w, name, rest⟩
      | none => do
          let _ ← readGeneral (word :: rest)
          .error (.misused (.unknownCommand word))

namespace Request

/-- Reads the options and arguments of a command, and stops where help is asked for. -/
def readOwn (own : List (Switch OwnOption)) (areMixed : Bool) (args : List String) :
    Except Halt (Words OwnOption) :=
  match (Switches.mk (own ++ [helpSwitch]) areMixed).read args with
  | .error e => .error (.misused e)
  | .ok w => if w.has .help then .error .help else .ok w

/-- The one argument of a command. -/
def onlyArgument (w : Words OwnOption) : Except Halt String :=
  match w.arguments with
  | [] => .error (.misused .noArgument)
  | [source] => .ok source
  | _ :: word :: _ => .error (.misused (.extraArgument word))

/-- A command without arguments has to have none. -/
def noArguments (w : Words OwnOption) : Except Halt Unit :=
  match w.arguments with
  | [] => .ok ()
  | word :: _ => .error (.misused (.extraArgument word))

def bridgeSwitches : List (Switch OwnOption) :=
  [⟨.bridges, ["--bridges"], false⟩, ⟨.noBridges, ["--no-bridges"], false⟩]

def forceSwitch : Switch OwnOption := ⟨.force, ["--force", "-f"], false⟩

/-- Reads a line behind the word `config`. -/
def readSettings (args : List String) : Except Halt Request := do
  let w ← readOwn [] false args
  match w.arguments with
  | [] => .error (.misused .noCommand)
  | "show" :: rest => do
      noArguments (← readOwn [] true rest)
      return .showSettings
  | "init" :: rest => do
      let w ← readOwn [forceSwitch] true rest
      noArguments w
      return .initSettings (w.has .force)
  | word :: rest => do
      let _ ← readOwn [] false (word :: rest)
      .error (.misused (.unknownCommand word))

/-- Reads a line behind the name of its command. Of the options that include and leave out
bridges the last one counts. -/
def read (name : Name) (args : List String) : Except Halt Request := do
  match name with
  | .parse => return .parse (← onlyArgument (← readOwn [] true args))
  | .models => return .models (← onlyArgument (← readOwn [] true args))
  | .paths => do
      let w ← readOwn bridgeSwitches true args
      return .paths (← onlyArgument w) (w.last? [.bridges, .noBridges] != some .noBridges)
  | .config => readSettings args

end Request

end ApiOutline.Command
