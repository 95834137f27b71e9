import ApiOutline.Command.Line
import ApiOutline.Describe
import ApiOutline.Show.Output
import ApiOutline.Source

/-!
# Commands

What the commands do, given the settings and the output that hold for them. A command computes all
it has to show before it shows the first piece of it.
-/

namespace ApiOutline.Command

open Show (Format Output Wishes Table)

/-- The settings and the output that the options before a command lead to. -/
structure Setting where
  settings : Settings
  output : Output

namespace Options

/-- The name of the output format that the options ask for. -/
def formatName? (o : Options) : Option String :=
  if o.json then some Format.json.name else if o.plain then some Format.plain.name else none

/-- Finds the settings and decides how output is shown. -/
def prepare (o : Options) : Action Setting := do
  let settings ← SettingsFile.resolve o.settings o.formatName?
  let format ← Action.ofExcept (Format.ofSetting settings.output.format)
  let wishes : Wishes :=
    ⟨format, o.noColor, o.isQuiet, o.isVerbose, o.file, some settings.output.indent⟩
  return ⟨settings, Output.make (← Action.host) wishes⟩

/-- Whether notes about details are shown. -/
def isDetailed (o : Options) (h : Host) : Bool :=
  o.isVerbose || Text.lower ((h.named? "APITREE_DEBUG").getD "") == "true"

end Options

/-! ## Reading a document -/

/-- The number of members or elements of a value; a value that is as good as none has none. -/
def countOf (v : Value) : Except Failure Nat :=
  if v.isTruthy then
    match v with
    | .map _ ms => .ok ms.length
    | .list items | .set items => .ok items.length
    | .str s => .ok s.length
    | .bytes bs => .ok bs.length
    | _ => .error .wrongKind
  else .ok 0

/-- The outline of the document that a source holds. -/
def Setting.outlineOf (s : Setting) (source : String) : Action Outline := do
  let document ← Action.ofLogged (Source.load (← Action.host) source)
  let version ← Action.ofExcept (Document.version document)
  let members ← Action.ofExcept document.members
  let count ← Action.ofExcept (countOf (Members.find members "paths"))
  s.output.debug ("OpenAPI " ++ version ++ ", " ++ toString count ++ " endpoints")
  Action.ofLogged (Outline.ofDocument s.settings.parser document)

/-! ## Showing an outline -/

/-- An optional text in a table. -/
def cell (s : Option String) : String :=
  match s with
  | none => "-"
  | some s => if s.isEmpty then "-" else s

/-- The row of a node. -/
def nodeRow (n : Node) : List String :=
  let roles := ", ".intercalate (n.operations.map (·.role))
  [n.path, cell n.parameter, cell n.defaultParameter, if roles.isEmpty then "(bridge)" else roles]

/-- The table of a path tree. -/
def nodeTable (nodes : List Node) : Table where
  heads := ["Path", "Parameter", "Default", "Operations"]
  rows := nodes.map nodeRow
  title := some ("Path tree (" ++ toString nodes.length ++ " nodes)")

/-- The row of a model, with the first line of its description. -/
def modelRow (m : Model) : List String :=
  [m.name, toString m.fields.length, Text.firstLine (cell m.description)]

/-- The table of models. -/
def modelTable (models : List Model) : Table where
  heads := ["Model", "Fields", "Description"]
  rows := models.map modelRow
  title := some ("Models (" ++ toString models.length ++ ")")

/-- Shows records as a table, or as JSON where that is asked for or a file is written. -/
def present {α : Type} (o : Output) (publish : α → Except Failure Value) (table : List α → Table)
    (xs : List α) : Action Unit :=
  if o.format = .json ∨ o.file.isSome then do
    o.json (.list (← xs.mapM fun x => Action.ofExcept (publish x)))
  else o.table (table xs)

/-- Shows a whole outline. -/
def presentOutline (o : Output) (outline : Outline) : Action Unit := do
  o.json (← Action.ofExcept (outline.publish depthLimit))
  match o.file with
  | none => return
  | some path =>
      o.success
        ("Wrote " ++ toString outline.models.length ++ " models and " ++
          toString outline.nodes.length ++ " paths to " ++ path)

/-! ## Commands -/

/-- Shows the settings and where they are kept. -/
def Setting.showSettings (s : Setting) : Action Unit := do
  s.output.info ("Config directory: " ++ (← SettingsFile.directory).text)
  s.output.json (s.settings.write .complete)

/-- Writes the default settings, unless there are some that are not to be overwritten. Tells
whether it has written them. -/
def Setting.initSettings (s : Setting) (force : Bool) : Action Bool := do
  let path ← SettingsFile.userPath
  let found ← Action.ofExcept ((← Action.host).fileAt? path)
  if found.isSome && !force then do
    s.output.error (path.text ++ " already exists (use --force to overwrite)")
    return false
  else do
    let path ← SettingsFile.save .default
    s.output.success ("Wrote " ++ path.text)
    return true

/-- Performs a request. Tells whether it was granted. -/
def Setting.perform (s : Setting) : Request → Action Bool
  | .parse source => do
      presentOutline s.output (← s.outlineOf source)
      return true
  | .paths source withBridges => do
      let nodes := (← s.outlineOf source).nodes.filter fun n => withBridges || !n.isBridge
      present s.output (Node.publish depthLimit) nodeTable nodes
      return true
  | .models source => do
      present s.output (Model.publish depthLimit) modelTable (← s.outlineOf source).models
      return true
  | .showSettings => do
      s.showSettings
      return true
  | .initSettings force => s.initSettings force

end ApiOutline.Command
