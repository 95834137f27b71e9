import ApiOutline.Command.Run

/-!
# The program

The program looks at the files that its command line leads to, runs on what it has found, and
writes down what the run has changed and shown. Documents on servers are out of its reach.
-/

namespace ApiOutline.Console

/-- The variables that the program asks for. -/
def variableNames : List String :=
  ["HOME", "XDG_CONFIG_HOME", "XDG_DATA_HOME", "NO_COLOR", "TERM", "APITREE_CONFIG",
   "APITREE_DEBUG"]

/-- The text of a place. -/
def placeText (p : Place) : String := (Path.mk "/" p).text

/-- What stands at a place. -/
def look (p : Place) : IO (Option Entry) := do
  try
    return some (.file (← IO.FS.readBinFile (placeText p)).toList)
  catch
    | .noFileOrDirectory .. => return none
    | _ => return some .directory

/-- Adds to some files what stands on the way of a path. -/
def survey (directory : Place) (fs : Files) (p : Path) : IO Files := do
  let mut found := fs
  let mut place : Place := if p.isAbsolute then [] else directory
  for part in p.parts do
    place := if part == ".." then place.dropLast else place ++ [part]
    match ← look place with
    | none => return found
    | some e => found := found.put place e
  return found

/-- All bytes of the input. -/
partial def readAll (input : IO.FS.Stream) (before : ByteArray) : IO (List UInt8) := do
  let more ← input.read 65536
  if more.isEmpty then return before.toList else readAll input (before ++ more)

/-- A user that the system knows. -/
structure User where
  name : String
  id : String
  home : String

/-- The users that the system's list names, one in each line. -/
def usersOf (text : String) : List User :=
  (text.splitOn "\n").filterMap fun line =>
    match line.splitOn ":" with
    | [name, _, id, _, _, home, _] => some ⟨name, id, home⟩
    | _ => none

/-- The id of the user who runs the program, as its status tells it. -/
def ownIdOf? (status : String) : Option String :=
  (status.splitOn "\n").findSome? fun line =>
    match line.splitOn "\t" with
    | "Uid:" :: id :: _ => some id
    | _ => none

/-- The text of a file, empty where it cannot be read. -/
def textOf (file : String) : IO String := do
  try IO.FS.readFile file catch _ => return ""

/-- The paths that a command line leads to. -/
def pathsOf (h : Host) (o : Command.Opening) : List Path :=
  let named := o.options.settings.toList ++ (h.setting? "APITREE_CONFIG").toList
  let settings := named.filterMap fun s => (SettingsFile.expandHome h (.ofText s)).toOption
  [h.settingsPath, h.projectPath, h.dataDirectory.child "logs"] ++ settings ++
    (o.options.file.toList ++ o.rest).map Path.ofText

/-- The host that the program runs on, as far as a command line asks about it. -/
def host (args : List String) : IO Host := do
  let directory := (Path.ofText (← IO.currentDir).toString).parts
  let environment ← variableNames.filterMapM fun name => do
    return (← IO.getEnv name).map fun value => (name, value)
  let users := usersOf (← textOf "/etc/passwd")
  let ownId := ownIdOf? (← textOf "/proc/self/status")
  let bare : Host :=
    { files := .empty
      directory := directory
      environment := environment
      homes := users.map fun u => (u.name, u.home)
      ownHome := (users.find? fun u => some u.id == ownId).map User.home
      system := "Linux"
      input := []
      reply := .failed "no network access"
      clock := toString (← IO.monoMsNow)
      isTerminal := ← (← IO.getStdout).isTty }
  match Command.Opening.read args with
  | .error _ => return bare
  | .ok opening => do
      let here ← survey directory .empty ⟨"/", directory⟩
      let files ← (pathsOf bare opening).foldlM (survey directory) here
      let input ← if opening.rest.contains "-" then readAll (← IO.getStdin) .empty else pure []
      return { bare with files := files, input := input }

/-- Writes down what has changed: directories first, then files as a whole. -/
def keep (before after : Files) : IO Unit := do
  let changes := after.entries.filter fun x => before.get? x.1 != some x.2
  for (place, e) in changes do
    if e == .directory then IO.FS.createDirAll (placeText place)
  for (place, e) in changes do
    match e with
    | .directory => pure ()
    | .file content => do
        let draft := placeText (place.dropLast ++ ["." ++ (place.getLast?.getD "") ++ ".tmp"])
        IO.FS.writeBinFile draft ⟨content.toArray⟩
        IO.FS.rename draft (placeText place)

/-- Runs the program on a command line, and returns its exit code. -/
def run (args : List String) : IO UInt32 := do
  let h ← host args
  match Command.Run.ofWords h args with
  | .error _ => return ExitCode.failure.toUInt32
  | .ok r => do
      keep h.files r.host.files
      let messages ← IO.getStderr
      messages.putStr r.streams.messages
      let output ← IO.getStdout
      output.putStr r.streams.output
      output.flush
      return r.exitCode.toUInt32

end ApiOutline.Console

def main (args : List String) : IO UInt32 := ApiOutline.Console.run args
