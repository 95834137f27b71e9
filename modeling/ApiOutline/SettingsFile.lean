import ApiOutline.Action
import ApiOutline.Json.Reader
import ApiOutline.Json.Writer
import ApiOutline.Settings

/-!
# Where settings are kept

The settings of a user stand in one file in a directory that the operating system's customs
decide; a project may have a file of its own. Exactly one source counts: what the command line
names, else what a variable names, else the file of the project, else that of the user, else the
defaults. Files are not merged.
-/

namespace ApiOutline

namespace Host

/-- Whether the system keeps settings and data in directories of their own. -/
def usesBaseDirectories (h : Host) : Bool :=
  h.system == "Linux" || h.system.toList.drop (h.system.length - 3) == "BSD".toList

/-- The text of the home of a user, without slashes at its end. No name is that of the user who runs
the command, whose home a variable may name. -/
def homeText? (h : Host) (user : String) : Option String :=
  let found := if user.isEmpty then (h.named? "HOME").orElse fun _ => h.ownHome
    else h.homes.lookup user
  found.map fun text =>
    let cs := (text.toList.reverse.dropWhile (· == '/')).reverse
    if cs.isEmpty then "/" else String.ofList cs

/-- The home of a user, if it is known. What begins with a tilde is none. -/
def homeOf? (h : Host) (user : String) : Option Path :=
  ((h.homeText? user).filter fun text => text.toList.head? != some '~').map .ofText

/-- The home of the user who runs the command. -/
def home? (h : Host) : Option Path := h.homeOf? ""

/-- The user's home, or the root where that is not known. -/
def home (h : Host) : Path := h.home?.getD ⟨"/", []⟩

/-- A path below another. -/
def below (p : Path) (parts : List String) : Path := { p with parts := p.parts ++ parts }

/-- The directory that a variable names, or one below the user's home. -/
def baseDirectory (h : Host) (name : String) (otherwise : List String) : Path :=
  match h.setting? name with
  | some text => .ofText text
  | none => below h.home otherwise

/-- Whether a directory has its place without regard to an unknown home. -/
def knowsDirectory (h : Host) (name : String) : Bool :=
  h.home?.isSome || (h.usesBaseDirectories && (h.setting? name).isSome)

/-- The directory of the user's settings. -/
def settingsDirectory (h : Host) : Path :=
  if h.usesBaseDirectories then (h.baseDirectory "XDG_CONFIG_HOME" [".config"]).child "apitree"
  else h.home.child ".apitree"

/-- The directory of what the program leaves behind. -/
def dataDirectory (h : Host) : Path :=
  if h.usesBaseDirectories then
    (h.baseDirectory "XDG_DATA_HOME" [".local", "share"]).child "apitree"
  else (h.home.child ".apitree").child "logs"

/-- The file of the user's settings. -/
def settingsPath (h : Host) : Path := h.settingsDirectory.child "config.json"

/-- The place where a project keeps its settings. -/
def projectPath (h : Host) : Path := ⟨"/", h.directory ++ ["apitree.json"]⟩

/-- Makes a directory and those above it. -/
def ensure (p : Path) : Action Unit :=
  Action.change fun h => h.files.ensureDirectories h.directory p

/-- The file that a path leads to. -/
def fileAt? (h : Host) (p : Path) : Except Failure (Option (List UInt8)) :=
  (h.files.fileAt? h.directory p).mapError Failure.file

end Host

namespace SettingsFile

/-- A directory that a variable names or that is in the user's home. It is made if it is not
there. -/
def provide (name : String) (p : Host → Path) : Action Path := do
  let h ← Action.host
  if h.knowsDirectory name then
    Host.ensure (p h)
    return p h
  else Action.fail .noHome

/-- The directory of the user's settings. -/
def directory : Action Path := provide "XDG_CONFIG_HOME" Host.settingsDirectory

/-- The directory of what the program leaves behind. -/
def dataDirectory : Action Path := provide "XDG_DATA_HOME" Host.dataDirectory

/-- The path of the user's settings. Asking for it makes their directory. -/
def userPath : Action Path := do
  return (← directory).child "config.json"

/-- The settings that the bytes of a file hold. -/
def ofBytes (path : String) (content : List UInt8) : Except Failure Settings :=
  match Text.decodeUtf8? content with
  | none => .error (.settings (.notUnicode path))
  | some s =>
      let text := String.ofList (Text.unifyLineEnds s.toList)
      match Json.parse text with
      | .error (.malformed e) => .error (.settings (.invalidJson path e text))
      | .error (.tooManyDigits n) => .error (.settings (.tooManyDigits path n))
      | .error .tooDeep => .error .exhausted
      | .ok v =>
          match Settings.read v with
          | .accepted s => .ok s
          | .refused faults => .error (.settings (.invalid path faults))

/-- The settings in the file at a path. -/
def load (h : Host) (p : Path) : Except Failure Settings :=
  match h.fileAt? p with
  | .error e => .error e
  | .ok none => .error (.settings (.notFound p.text))
  | .ok (some content) => ofBytes p.text content

/-- The user's settings, or the defaults where there are none. -/
def loadUser : Action Settings := do
  let p ← userPath
  let h ← Action.host
  match ← Action.ofExcept (h.fileAt? p) with
  | none => return .default
  | some _ => Action.ofExcept (load h p)

/-- The project's settings file, if there is one. -/
def projectPath (h : Host) : Except Failure (Option Path) :=
  match h.fileAt? h.projectPath with
  | .error e => .error e
  | .ok found => .ok (found.map fun _ => h.projectPath)

/-- A path in which a tilde stands for the home of the user it names, or of the one who runs the
command. -/
def expandHome (h : Host) (p : Path) : Except Failure Path :=
  match p.isAbsolute, p.parts with
  | false, part :: rest =>
      match part.toList with
      | '~' :: user =>
          match h.homeOf? (String.ofList user) with
          | some home => .ok (Host.below home rest)
          | none => .error .noHome
      | _ => .ok p
  | _, _ => .ok p

/-- The settings from the source that counts. -/
def effective (named : Option String) : Action Settings := do
  let h ← Action.host
  match (named.filter fun s => !s.isEmpty).orElse fun _ => h.setting? "APITREE_CONFIG" with
  | some explicit => do
      Action.note (.usingSettings explicit)
      let p ← Action.ofExcept (expandHome h (.ofText explicit))
      Action.ofExcept (load h p)
  | none =>
      match ← Action.ofExcept (projectPath h) with
      | some p => do
          Action.note (.usingProjectSettings p.text)
          Action.ofExcept (load h p)
      | none => loadUser

/-- The settings from the source that counts, with the output format that the command line asks
for. -/
def resolve (named format : Option String) : Action Settings := do
  let s ← effective named
  match format with
  | none => return s
  | some f => return { s with output := { s.output with format := f } }

/-- The text of a settings file. -/
def text (s : Settings) : String :=
  Json.render ⟨some 2, true⟩ (s.write .complete) ++ "\n"

/-- Writes a file as a whole. -/
def write (p : Path) (content : String) : Action Unit :=
  Action.change fun h => h.files.writeAtomically h.directory p (Text.encodeUtf8 content)

/-- Keeps settings as those of the user. -/
def save (s : Settings) : Action Path := do
  let p ← userPath
  write p (text s)
  return p

end SettingsFile

end ApiOutline
