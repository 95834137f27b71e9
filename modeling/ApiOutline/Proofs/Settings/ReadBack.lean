import ApiOutline.Proofs.Json.Written
import ApiOutline.Proofs.Record.Form
import ApiOutline.Settings

/-!
# Settings read back

Settings have no field that may be unset, and each field has one name. So there
is one way to write them, and each part is found again under its name
(`read_write`). A table is read back if it says one thing about each name. If
the indentation is not too long a number as well, what is written of settings is
all that its text says (`isExact_write`).
-/

namespace ApiOutline

open Record (Checked Form published find?_published write_eq_published optional_of_find?_some
  elements_readBack texts_readBack textMembers_readBack requiredText_readBack)

/-- A record is all that its text says if its parts are. -/
theorem Value.isExact_published {entries : List Record.Entry} (names : List String)
    (hnames : entries.map Record.Entry.published = names) (hdistinct : names.Nodup)
    (h : ∀ e ∈ entries, ∀ v, e.value = some v → v.IsExact) :
    (Value.ofMembers (published entries)).IsExact := by
  refine .map (Record.named_published names hnames hdistinct) fun m hm => ?_
  obtain ⟨e, he, hvalue⟩ := Record.mem_published hm
  exact h e he _ hvalue

theorem Value.isExact_texts (ss : List String) : (Record.texts ss).IsExact := by
  refine .list fun v hv => ?_
  obtain ⟨s, -, rfl⟩ := List.mem_map.1 hv
  exact .str s

theorem Value.isExact_textMembers {ms : List (String × String)} (h : (ms.map Prod.fst).Nodup) :
    (Record.textMembers ms).IsExact := by
  have hnamed := Record.named_textMembers h
  rw [Record.textMembers, hnamed.ofList]
  refine .map hnamed fun m hm => ?_
  obtain ⟨_, -, rfl⟩ := List.mem_map.1 hm
  exact .str _

namespace Rule

/-- What a rule is written with. -/
def entries (r : Rule) : List Record.Entry :=
  [.same "pattern" (some (.str r.pattern)), .same "replacement" (some (.str r.replacement))]

def names : List String := ["pattern", "replacement"]

theorem write_eq (form : Form) (r : Rule) : r.write form = .ofMembers (published r.entries) :=
  write_eq_published form (by simp [Record.Entry.same])

theorem read_write (form : Form) (r : Rule) : read (r.write form) = .accepted r := by
  have hfind := find?_published r.entries names rfl (by decide)
  rw [write_eq]
  generalize published r.entries = ms at hfind ⊢
  simp only [entries, Record.Entry.same, List.forall_mem_cons] at hfind
  obtain ⟨hpattern, hreplacement, -⟩ := hfind
  have h1 := Checked.map_accepted_of Rule.mk (requiredText_readBack [] hpattern)
  exact Checked.both_accepted h1 (requiredText_readBack [] hreplacement)

theorem isExact_write (form : Form) (r : Rule) : (r.write form).IsExact := by
  rw [write_eq]
  refine Value.isExact_published names rfl (by decide) ?_
  simp only [entries, Record.Entry.same, List.forall_mem_cons, Option.some.injEq, forall_eq']
  exact ⟨.str _, .str _, by simp⟩

end Rule

namespace Conventions

variable {c : Conventions}

/-- What conventions are written with, their rules written before. -/
def entries (form : Form) (c : Conventions) : List Record.Entry :=
  [.same "prefix_rules" (some (.list (c.rules.map (Rule.write form)))),
    .same "parameter_defaults" (some (Record.textMembers c.parameterDefaults)),
    .same "version_defaults" (some (Record.textMembers c.versionDefaults)),
    .same "methods" (some (Record.texts c.methods))]

def names : List String := ["prefix_rules", "parameter_defaults", "version_defaults", "methods"]

theorem write_eq (form : Form) (c : Conventions) :
    c.write form = .ofMembers (published (c.entries form)) :=
  write_eq_published form (by simp [Record.Entry.same])

/-- Whether the tables say one thing about each name. -/
structure IsSound (c : Conventions) : Prop where
  parameters : (c.parameterDefaults.map Prod.fst).Nodup
  versions : (c.versionDefaults.map Prod.fst).Nodup

theorem read_write (form : Form) (h : c.IsSound) : read (c.write form) = .accepted c := by
  have hfind := find?_published (c.entries form) names rfl (by decide)
  rw [write_eq]
  generalize published (c.entries form) = ms at hfind ⊢
  simp only [entries, Record.Entry.same, List.forall_mem_cons] at hfind
  obtain ⟨hrules, hparameters, hversions, hmethods, -⟩ := hfind
  have h1 := Checked.map_accepted_of Conventions.mk
    (optional_of_find?_some (Record.listOf Rule.read) [] Rule.defaults hrules
      (elements_readBack Rule.read (Rule.write form) 0 fun r _ => r.read_write form))
  have h2 := Checked.both_accepted h1
    (optional_of_find?_some _ [] defaultParameters hparameters
      (textMembers_readBack h.parameters))
  have h3 := Checked.both_accepted h2
    (optional_of_find?_some _ [] defaultVersions hversions (textMembers_readBack h.versions))
  exact Checked.both_accepted h3
    (optional_of_find?_some _ [] defaultMethods hmethods (texts_readBack c.methods))

theorem isExact_write (form : Form) (h : c.IsSound) : (c.write form).IsExact := by
  have hrules : (Value.list (c.rules.map (Rule.write form))).IsExact := by
    refine .list fun v hv => ?_
    obtain ⟨r, -, rfl⟩ := List.mem_map.1 hv
    exact r.isExact_write form
  rw [write_eq]
  refine Value.isExact_published names rfl (by decide) ?_
  simp only [entries, Record.Entry.same, List.forall_mem_cons, Option.some.injEq, forall_eq']
  exact ⟨hrules, Value.isExact_textMembers h.parameters, Value.isExact_textMembers h.versions,
    Value.isExact_texts _, by simp⟩

end Conventions

namespace OutputSettings

variable {o : OutputSettings}

/-- What preferences about the output are written with. -/
def entries (o : OutputSettings) : List Record.Entry :=
  [.same "format" (some (.str o.format)), .same "indent" (some (.int o.indent))]

def names : List String := ["format", "indent"]

theorem write_eq (form : Form) (o : OutputSettings) :
    o.write form = .ofMembers (published o.entries) :=
  write_eq_published form (by simp [Record.Entry.same])

theorem read_write (form : Form) (o : OutputSettings) : read (o.write form) = .accepted o := by
  have hfind := find?_published o.entries names rfl (by decide)
  rw [write_eq]
  generalize published o.entries = ms at hfind ⊢
  simp only [entries, Record.Entry.same, List.forall_mem_cons] at hfind
  obtain ⟨hformat, hindent, -⟩ := hfind
  have h1 := Checked.map_accepted_of OutputSettings.mk
    (optional_of_find?_some Record.text [] "auto" hformat rfl)
  exact Checked.both_accepted h1 (optional_of_find?_some Record.integer [] 2 hindent rfl)

/-- Whether the indentation is a number that is read when it is written. -/
def IsSound (o : OutputSettings) : Prop :=
  (Nat.toDigits 10 o.indent.natAbs).length ≤ Decimal.digitLimit

theorem isExact_write (form : Form) (h : o.IsSound) : (o.write form).IsExact := by
  rw [write_eq]
  refine Value.isExact_published names rfl (by decide) ?_
  simp only [entries, Record.Entry.same, List.forall_mem_cons, Option.some.injEq, forall_eq']
  exact ⟨.str _, .int h, by simp⟩

end OutputSettings

namespace Settings

variable {s : Settings}

/-- What settings are written with, their parts written before. -/
def entries (form : Form) (s : Settings) : List Record.Entry :=
  [.same "parser" (some (s.parser.write form)), .same "output" (some (s.output.write form))]

def names : List String := ["parser", "output"]

theorem write_eq (form : Form) (s : Settings) :
    s.write form = .ofMembers (published (s.entries form)) :=
  write_eq_published form (by simp [Record.Entry.same])

/-- Whether settings can be written down: the tables say one thing about each name, and the
indentation is not too long a number. -/
structure IsSound (s : Settings) : Prop where
  parser : s.parser.IsSound
  output : s.output.IsSound

theorem read_write (form : Form) (h : s.IsSound) : read (s.write form) = .accepted s := by
  have hfind := find?_published (s.entries form) names rfl (by decide)
  rw [write_eq]
  generalize published (s.entries form) = ms at hfind ⊢
  simp only [entries, Record.Entry.same, List.forall_mem_cons] at hfind
  obtain ⟨hparser, houtput, -⟩ := hfind
  have h1 := Checked.map_accepted_of Settings.mk
    (optional_of_find?_some Conventions.read [] .default hparser
      (Conventions.read_write form h.parser))
  exact Checked.both_accepted h1
    (optional_of_find?_some OutputSettings.read [] .default houtput
      (OutputSettings.read_write form s.output))

theorem isExact_write (form : Form) (h : s.IsSound) : (s.write form).IsExact := by
  rw [write_eq]
  refine Value.isExact_published names rfl (by decide) ?_
  simp only [entries, Record.Entry.same, List.forall_mem_cons, Option.some.injEq, forall_eq']
  exact ⟨Conventions.isExact_write form h.parser, OutputSettings.isExact_write form h.output,
    by simp⟩

end Settings

end ApiOutline
