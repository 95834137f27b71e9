import ApiOutline.Json.Error
import ApiOutline.Pattern.Parse
import ApiOutline.Record.Fault
import ApiOutline.Text.Case

/-!
# What can go wrong

A failure is a cause, not a message. Three groups of causes are reported to the user as errors of
the document, the settings or the command line, each with an exit code of its own; their wording is
in `message`. The remaining causes mean that a document has a shape that no rule foresees, or that
the file system refuses something; a command that meets one stops with a general exit code.
-/

namespace ApiOutline

/-- Why a source yields no usable document. -/
inductive SpecError where
  | notFound (path : String)
  | empty (source : String)
  | status (code : Nat) (url : String)
  | unreachable (url reason : String)
  | invalidJson (e : Json.SyntaxError) (text : String)
  | unreadable (reason : String)
  | notMapping (kind : String)
  | oldFormat (version : String)
  | noVersion
  | unsupportedVersion (version : String)
  | missingResponse (endpoint method : String)
  deriving Repr, DecidableEq

/-- Why a settings file cannot be used. -/
inductive SettingsError where
  | notFound (path : String)
  | invalidJson (path : String) (e : Json.SyntaxError) (text : String)
  | tooManyDigits (path : String) (count : Nat)
  | notUnicode (path : String)
  | invalid (path : String) (faults : List Record.Fault)
  deriving Repr, DecidableEq

/-- What the file system refuses. -/
inductive FileError where
  | isDirectory
  | notDirectory
  | exists
  | notFound
  | badName
  | refused
  deriving Repr, DecidableEq

/-- A cause of failure. -/
inductive Failure where
  | spec (e : SpecError)
  | settings (e : SettingsError)
  | unknownFormat (name : String)
  | invalid (record : Record.Kind) (faults : List Record.Fault)
  | noMembers
  | wrongKind
  | missingMember
  | missingElement
  | outOfRange
  | tooLarge
  | endless
  | exhausted
  | noHome
  | notUnicode
  | undecodable
  | unwritable
  | tooDeep
  | pattern (e : Pattern.PatternError)
  | file (e : FileError)
  deriving Repr, DecidableEq

namespace ExitCode

def success : Nat := 0

def failure : Nat := 1

def usage : Nat := 2

def document : Nat := 7

def interrupted : Nat := 130

end ExitCode

def SpecError.message : SpecError → String
  | .notFound path => "Spec file not found: " ++ path
  | .empty source => "Spec is empty: " ++ source
  | .status code url => "HTTP " ++ toString code ++ " fetching spec from " ++ url
  | .unreachable url reason => "Failed to fetch spec from " ++ url ++ ": " ++ reason
  | .invalidJson e text => "Invalid JSON: " ++ e.message text
  | .unreadable reason => "Failed to parse spec as JSON or YAML: " ++ reason
  | .notMapping kind => "Spec must be a JSON/YAML object (got " ++ kind ++ ")"
  | .oldFormat version =>
      "Swagger " ++ version ++ " is not supported. Only OpenAPI 3.x documents can be parsed."
  | .noVersion => "Missing 'openapi' field. Is this an OpenAPI 3.x document?"
  | .unsupportedVersion version => "Unsupported OpenAPI version: " ++ version
  | .missingResponse endpoint method =>
      Text.upper method ++ " " ++ endpoint ++
        " declares no 200, 201, 202, 204, 205, 302, 501 or default response"

/-- A fault in a few words: the way to its place and what is wrong there. -/
def faultText (f : Record.Fault) : String :=
  let step : Record.Step → String
    | .member name => name
    | .element index => toString index
  ".".intercalate (f.path.map step) ++ " " ++ f.kind.text

def SettingsError.message : SettingsError → String
  | .notFound path => "Config file not found: " ++ path
  | .invalidJson path e text => "Invalid config at " ++ path ++ ": " ++ e.message text
  | .tooManyDigits path count =>
      "Invalid config at " ++ path ++ ": Exceeds the limit (4300 digits) for integer string " ++
        "conversion: value has " ++ toString count ++
        " digits; use sys.set_int_max_str_digits() to increase the limit"
  | .notUnicode path => "Invalid config at " ++ path ++ ": not UTF-8"
  | .invalid path faults =>
      "Invalid config at " ++ path ++ ": " ++ ", ".intercalate (faults.map faultText)

/-- The kinds of errors that are reported to the user as such. -/
inductive ReportKind where
  | general
  | usage
  | document
  | missingResponse
  | settings
  deriving Repr, DecidableEq

namespace ReportKind

/-- The exit code of a command that an error of a kind stops. -/
def exitCode : ReportKind → Nat
  | .usage => ExitCode.usage
  | .document | .missingResponse => ExitCode.document
  | .general | .settings => ExitCode.failure

/-- A kind and the kinds it belongs to, from special to general. -/
def lineage : ReportKind → List ReportKind
  | .general => [.general]
  | .missingResponse => [.missingResponse, .document, .general]
  | k => [k, .general]

end ReportKind

/-- An error as the user is told of it. -/
structure Report where
  kind : ReportKind
  message : String
  deriving Repr, DecidableEq

namespace Failure

/-- The report of a failure that the user is told of. Other failures are unexpected. -/
def report : Failure → Option Report
  | .spec (.missingResponse endpoint method) =>
      some ⟨.missingResponse, (SpecError.missingResponse endpoint method).message⟩
  | .spec e => some ⟨.document, e.message⟩
  | .settings e => some ⟨.settings, e.message⟩
  | .unknownFormat name =>
      some ⟨.usage, "Unknown output format: " ++ name ++ " (expected auto, json, plain or rich)"⟩
  | _ => none

end Failure

/-- Turns the outcome of a reading into that of a step that fails as a whole. -/
def checked {α : Type} (record : Record.Kind) : Record.Checked α → Except Failure α
  | .accepted a => .ok a
  | .refused faults => .error (.invalid record faults)

end ApiOutline
