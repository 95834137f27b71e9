import ApiOutline.Record.Form

/-!
# Settings

The conventions of an API decide how its templates are read: rules that turn versioned prefixes
into placeholders, the values that parameters have when none is given, and the methods that make
operations. Beside them stand the preferences about the output. Both are read from one file.

The defaults are those of one large telephony API. A table that a file mentions replaces the
default table as a whole.
-/

namespace ApiOutline

/-- What takes the place of the first match of a pattern in a template. -/
structure Rule where
  pattern : String
  replacement : String
  deriving Repr, DecidableEq

/-- How the templates of an API are read. -/
structure Conventions where
  rules : List Rule
  parameterDefaults : List (String × String)
  versionDefaults : List (String × String)
  methods : List String
  deriving Repr, DecidableEq

/-- Preferences about the output. -/
structure OutputSettings where
  format : String
  indent : Int
  deriving Repr, DecidableEq

/-- All settings. -/
structure Settings where
  parser : Conventions
  output : OutputSettings
  deriving Repr, DecidableEq

open Record (Checked Form Entry)

namespace Rule

def read : Value → Checked Rule
  | .map _ ms =>
      Rule.mk <$> Record.required ms "pattern" [] Record.text
        <*> Record.required ms "replacement" [] Record.text
  | _ => .fault .notRecord

def write (form : Form) (r : Rule) : Value :=
  form.write
    [.same "pattern" (some (.str r.pattern)), .same "replacement" (some (.str r.replacement))]

/-- The rules that apply when none are set, in order. -/
def defaults : List Rule :=
  [⟨"/restapi/v1\\.0/", "/restapi/\x7bapiVersion\x7d/"⟩,
   ⟨"/scim/v2", "/scim/\x7bversion\x7d"⟩,
   ⟨"/team-messaging/v1", "/team-messaging/\x7bversion\x7d"⟩,
   ⟨"/analytics/calls/v1", "/analytics/calls/\x7bversion\x7d"⟩,
   ⟨"/rcvideo/v1", "/rcvideo/\x7bversion\x7d"⟩,
   ⟨"/\\.search", "/dotSearch"⟩]

end Rule

namespace Conventions

/-- The value that a parameter has by default, by the segment before it. -/
def defaultParameters : List (String × String) :=
  [("account", "~"), ("extension", "~"), ("restapi", "v1.0")]

/-- The version that a prefix stands for by default, by the segment before it. -/
def defaultVersions : List (String × String) :=
  [("scim", "v2"), ("rcvideo", "v1"), ("team-messaging", "v1"), ("calls", "v1")]

/-- The methods that make operations by default, in order. -/
def defaultMethods : List String :=
  ["get", "post", "put", "delete", "patch"]

def default : Conventions :=
  ⟨Rule.defaults, defaultParameters, defaultVersions, defaultMethods⟩

instance : Inhabited Conventions := ⟨default⟩

def read : Value → Checked Conventions
  | .map _ ms =>
      Conventions.mk
        <$> Record.optional ms "prefix_rules" [] Rule.defaults (Record.listOf Rule.read)
        <*> Record.optional ms "parameter_defaults" [] defaultParameters
              (Record.mappingOf Record.text)
        <*> Record.optional ms "version_defaults" [] defaultVersions
              (Record.mappingOf Record.text)
        <*> Record.optional ms "methods" [] defaultMethods (Record.listOf Record.text)
  | _ => .fault .notRecord

def write (form : Form) (c : Conventions) : Value :=
  form.write
    [.same "prefix_rules" (some (.list (c.rules.map (Rule.write form)))),
     .same "parameter_defaults" (some (Record.textMembers c.parameterDefaults)),
     .same "version_defaults" (some (Record.textMembers c.versionDefaults)),
     .same "methods" (some (Record.texts c.methods))]

end Conventions

namespace OutputSettings

def default : OutputSettings := ⟨"auto", 2⟩

instance : Inhabited OutputSettings := ⟨default⟩

def read : Value → Checked OutputSettings
  | .map _ ms =>
      OutputSettings.mk <$> Record.optional ms "format" [] "auto" Record.text
        <*> Record.optional ms "indent" [] 2 Record.integer
  | _ => .fault .notRecord

def write (form : Form) (o : OutputSettings) : Value :=
  form.write [.same "format" (some (.str o.format)), .same "indent" (some (.int o.indent))]

end OutputSettings

namespace Settings

def default : Settings := ⟨.default, .default⟩

instance : Inhabited Settings := ⟨default⟩

def read : Value → Checked Settings
  | .map _ ms =>
      Settings.mk <$> Record.optional ms "parser" [] .default Conventions.read
        <*> Record.optional ms "output" [] .default OutputSettings.read
  | _ => .fault .notRecord

def write (form : Form) (s : Settings) : Value :=
  form.write
    [.same "parser" (some (s.parser.write form)), .same "output" (some (s.output.write form))]

end Settings

end ApiOutline
