import ApiOutline.Action
import ApiOutline.Json.Writer
import ApiOutline.Settings
import ApiOutline.SettingsFile
import ApiOutline.Show.Table

/-!
# What goes where

Data go to the standard output or into a file, and nothing else does. Messages go beside it.
Whether data are drawn, written as JSON or as plain lines is a matter of the format, which may be
left to what the output is connected to.
-/

namespace ApiOutline.Show

/-- The formats that can be asked for. -/
inductive Format where
  | auto
  | json
  | plain
  | rich
  deriving Repr, DecidableEq

namespace Format

def name : Format → String
  | .auto => "auto"
  | .json => "json"
  | .plain => "plain"
  | .rich => "rich"

def all : List Format := [.auto, .json, .plain, .rich]

/-- The format with a name. -/
def ofName? (s : String) : Option Format := all.find? fun f => f.name == s

/-- The format with a name that settings give. -/
def ofSetting (s : String) : Except Failure Format :=
  match ofName? s with
  | some f => .ok f
  | none => .error (.unknownFormat s)

end Format

/-- Whether the surroundings ask for output without colours. -/
def avoidsColor (h : Host) : Bool :=
  (h.named? "NO_COLOR").isSome || h.named? "TERM" == some "dumb"

/-- Whether the terminal shows no emphasis either. -/
def avoidsStyle (h : Host) : Bool :=
  ["dumb", "unknown"].contains (Text.lower ((h.named? "TERM").getD ""))

/-- What the command line says about output. -/
structure Wishes where
  format : Format
  noColor : Bool
  isQuiet : Bool
  isVerbose : Bool
  file : Option String
  /-- The indentation of JSON; without one everything stands on one line. -/
  indent : Option Int
  deriving Repr, DecidableEq

def Wishes.default : Wishes := ⟨.auto, false, false, false, none, some 2⟩

/-- How output is shown. -/
structure Output where
  /-- The format, which is never left open. -/
  format : Format
  isQuiet : Bool
  isVerbose : Bool
  file : Option String
  indent : Option Int
  isStyled : Bool
  deriving Repr, DecidableEq

namespace Output

/-- The number of cells in a row. -/
def lineWidth : Nat := 80

/-- The format, decided by the surroundings where it is left to them. -/
def settled (h : Host) (w : Wishes) : Format :=
  match w.format with
  | .auto => if h.isTerminal && !(w.noColor || avoidsColor h) then .rich else .plain
  | f => f

def make (h : Host) (w : Wishes) : Output where
  format := settled h w
  isQuiet := w.isQuiet
  isVerbose := w.isVerbose
  file := w.file.filter fun s => !s.isEmpty
  indent := w.indent
  isStyled := !avoidsStyle h

/-! ## Data -/

/-- Whether an indentation is a number of 64 bits. Wider ones are refused. -/
def isIndent (n : Int) : Bool := decide (-0x8000000000000000 ≤ n ∧ n < 0x8000000000000000)

/-- The text of a value as JSON. An indentation below zero puts every member at the beginning of
its line. A text has nothing to indent, so for it the indentation does not matter. -/
def jsonText (o : Output) (v : Value) : Except Failure String :=
  if v.isText || o.indent.all isIndent then
    .ok (Json.render ⟨o.indent.map Int.toNat, false⟩ v)
  else .error .tooLarge

/-- A JSON text as it is drawn: every line filled up, longer ones broken. -/
def drawn (text : String) : String :=
  let lines := wrapped true lineWidth text.toList
  String.ofList (lines.flatMap fun l => padded lineWidth l ++ ['\n'])

/-- Shows a value as JSON, or writes it into the file. -/
def json (o : Output) (v : Value) : Action Unit := do
  let text ← Action.ofExcept (o.jsonText v)
  match o.file with
  | some path => SettingsFile.write (.ofText path) (text ++ "\n")
  | none => Action.data (if o.format = .rich then drawn text else text ++ "\n")

/-- A row of a table as a mapping. -/
def rowValue (heads row : List String) : Value :=
  .ofMembers (Members.ofList ((heads.zip row).map fun (h, c) => (.str h, .str c)))

/-- A table as plain lines. -/
def plainLines (t : Table) : String :=
  "".intercalate ((t.heads :: t.rows).map fun row => "\t".intercalate row ++ "\n")

/-- Shows a table. -/
def table (o : Output) (t : Table) : Action Unit :=
  match o.format with
  | .json => o.json (.list (t.rows.map (rowValue t.heads)))
  | .rich => Action.data (t.render lineWidth o.isStyled)
  | _ => Action.data (plainLines t)

/-! ## Messages -/

def line (text : String) : Action Unit := Action.message (text ++ "\n")

def info (o : Output) (text : String) : Action Unit :=
  if o.isQuiet then pure () else line text

def success (o : Output) (text : String) : Action Unit := o.info text

def warning (_ : Output) (text : String) : Action Unit := line ("Warning: " ++ text)

def error (_ : Output) (text : String) : Action Unit := line ("Error: " ++ text)

def debug (o : Output) (text : String) : Action Unit :=
  if o.isVerbose then line ("[debug] " ++ text) else pure ()

end Output

end ApiOutline.Show
