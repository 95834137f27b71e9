import ApiOutline.Proofs.Files.Names
import ApiOutline.Proofs.Json.Limit
import ApiOutline.Proofs.Settings.Kept

/-!
# The source of settings that counts

There are five sources of settings, and the first one there is counts
(`Counts`): the file that the command line names, the file that a variable
names, the project's file, the user's file, the defaults. What counts is known
by its path and its bytes, and nothing else has a say in the settings that come
out (`result_effective`): no file is merged with another, and no other source is
tried where the first is missing or invalid.

One thing can go wrong before a source is known. A path that is named may be one
that cannot even be asked for: it may begin with the home of a user that nobody
knows, have a name in it that is too long, or be too long itself.
-/

namespace ApiOutline

namespace SettingsFile

variable {named format : Option String} {h h' : Host}

/-- What counts: a file with its bytes, if there is such a file, or the defaults. -/
inductive Origin where
  | file (p : Path) (content : Option (List UInt8))
  | defaults

/-- The settings of what counts. -/
def Origin.settings : Origin → Except Failure Settings
  | .file p none => .error (.settings (.notFound p.text))
  | .file p (some content) => ofBytes p.text content
  | .defaults => .ok .default

/-- Settings with the output format that the command line asks for. -/
def withFormat (format : Option String) (s : Settings) : Settings :=
  match format with
  | none => s
  | some f => { s with output := { s.output with format := f } }

/-- Whether the command line names no settings file. -/
def IsUnnamed (named : Option String) : Prop := named = none ∨ named = some ""

/-- What counts on a host, given what the command line names. Whether the user has a file is asked
when the directory for it has been made. -/
inductive Counts (named : Option String) (h : Host) : Origin → Prop
  | argument {text : String} {p : Path} {content : Option (List UInt8)}
      (given : named = some text) (notEmpty : text ≠ "")
      (expanded : expandHome h (.ofText text) = .ok p) (found : h.fileAt? p = .ok content) :
      Counts named h (.file p content)
  | environment {text : String} {p : Path} {content : Option (List UInt8)}
      (unnamed : IsUnnamed named) (given : h.setting? "APITREE_CONFIG" = some text)
      (expanded : expandHome h (.ofText text) = .ok p) (found : h.fileAt? p = .ok content) :
      Counts named h (.file p content)
  | project {content : List UInt8}
      (unnamed : IsUnnamed named) (unset : h.setting? "APITREE_CONFIG" = none)
      (found : h.fileAt? h.projectPath = .ok (some content)) :
      Counts named h (.file h.projectPath (some content))
  | user {content : List UInt8}
      (unnamed : IsUnnamed named) (unset : h.setting? "APITREE_CONFIG" = none)
      (absent : h.fileAt? h.projectPath = .ok none)
      (found : (prepared h).fileAt? h.settingsPath = .ok (some content)) :
      Counts named h (.file h.settingsPath (some content))
  | defaults
      (unnamed : IsUnnamed named) (unset : h.setting? "APITREE_CONFIG" = none)
      (absent : h.fileAt? h.projectPath = .ok none)
      (missing : (prepared h).fileAt? h.settingsPath = .ok none) :
      Counts named h .defaults

/-- No two sources count at once. -/
theorem Counts.unique {origin origin' : Origin} (hcounts : Counts named h origin)
    (hcounts' : Counts named h origin') : origin = origin' := by
  cases hcounts <;> cases hcounts' <;> simp_all [IsUnnamed]

/-! ## Each source in its turn -/

theorem namedText?_of_notEmpty {text : String} (h : text ≠ "") (host : Host) :
    namedText? (some text) host = some text := by
  simp [namedText?, h]

theorem namedText?_of_isUnnamed (hnamed : IsUnnamed named) (h : Host) :
    namedText? named h = h.setting? "APITREE_CONFIG" := by
  rcases hnamed with rfl | rfl
  · rfl
  · rfl

theorem load_eq {p : Path} {content : Option (List UInt8)} (hfile : h.fileAt? p = .ok content) :
    load h p = Origin.settings (.file p content) := by
  rw [load, hfile]
  cases content <;> rfl

/-- Where a file is named, nothing but this file is asked for. -/
theorem result_effective_of_named {text : String} {p : Path}
    (htext : namedText? named h = some text) (hexpanded : expandHome h (.ofText text) = .ok p) :
    (effective named h).result = load h p := by
  unfold effective
  rw [Action.host_bind_apply]
  rw [namedText?] at htext
  simp only [htext]
  rw [Action.bind_apply_of_ok (v := ()) rfl]
  show ((Action.ofExcept (expandHome h (.ofText text)) >>= fun p => Action.ofExcept (load h p))
    h).result = _
  rw [Action.bind_apply_of_eq (a := p) (by rw [hexpanded]; rfl)]
  rfl

theorem result_effective_of_project {content : List UInt8} (htext : namedText? named h = none)
    (hfound : h.fileAt? h.projectPath = .ok (some content)) :
    (effective named h).result = Origin.settings (.file h.projectPath (some content)) := by
  have hproject : projectPath h = .ok (some h.projectPath) := by
    rw [projectPath, hfound]
    rfl
  unfold effective
  rw [Action.host_bind_apply]
  rw [namedText?] at htext
  simp only [htext]
  rw [Action.bind_apply_of_eq (a := some h.projectPath) (by rw [hproject]; rfl)]
  simp only []
  rw [Action.bind_apply_of_ok (v := ()) rfl, load_eq hfound]
  rfl

theorem effective_of_absent (htext : namedText? named h = none)
    (habsent : h.fileAt? h.projectPath = .ok none) : effective named h = loadUser h := by
  refine effective_of_user named htext ?_
  rw [projectPath, habsent]
  rfl

/-! ## The first source there is -/

/-- The settings are those of what counts, whatever else there is. -/
theorem result_effective {origin : Origin} (hmade : (made h).error = none)
    (hcounts : Counts named h origin) : (effective named h).result = origin.settings := by
  cases hcounts with
  | argument given notEmpty expanded found =>
      rw [given]
      rw [result_effective_of_named (namedText?_of_notEmpty notEmpty h) expanded, load_eq found]
  | environment unnamed given expanded found =>
      rw [← namedText?_of_isUnnamed unnamed h] at given
      rw [result_effective_of_named given expanded, load_eq found]
  | project unnamed unset found =>
      rw [← namedText?_of_isUnnamed unnamed h] at unset
      exact result_effective_of_project unset found
  | user unnamed unset absent found =>
      rw [← namedText?_of_isUnnamed unnamed h] at unset
      rw [effective_of_absent unset absent, result_loadUser hmade, found]
      rfl
  | defaults unnamed unset absent missing =>
      rw [← namedText?_of_isUnnamed unnamed h] at unset
      rw [effective_of_absent unset absent, result_loadUser hmade, missing]
      rfl

theorem result_resolve (format : Option String) {origin : Origin} (hmade : (made h).error = none)
    (hcounts : Counts named h origin) :
    (resolve named format h).result = origin.settings.map (withFormat format) := by
  have heffective := result_effective hmade hcounts
  unfold resolve
  cases hsettings : origin.settings with
  | error e =>
      rw [hsettings] at heffective
      rw [Action.bind_apply_of_error heffective]
      rfl
  | ok s =>
      rw [hsettings] at heffective
      rw [Action.bind_apply_of_ok heffective]
      cases format <;> rfl

/-- What counts yields settings, or an error of the settings. -/
theorem Origin.settings_error {origin : Origin} {e : Failure} (h : origin.settings = .error e) :
    ∃ reason, e = .settings reason := by
  unfold Origin.settings at h
  split at h
  · cases h
    exact ⟨_, rfl⟩
  · unfold ofBytes at h
    split at h
    · cases h
      exact ⟨_, rfl⟩
    · simp only [] at h
      split at h
      · cases h
        exact ⟨_, rfl⟩
      · cases h
        exact ⟨_, rfl⟩
      · next hdeep => exact absurd hdeep (Json.parse_ne_tooDeep _)
      · split at h
        · cases h
        · cases h
          exact ⟨_, rfl⟩
  · cases h

/-- Whether a path that is named can be asked for: it is in no unknown home, and the file system
does not refuse it. -/
def CanAsk (h : Host) (text : String) : Prop :=
  ∃ p content, expandHome h (.ofText text) = .ok p ∧ h.fileAt? p = .ok content

theorem fileAt?_of_fits (h : Host) {p : Path} (hfits : Files.Fits p) :
    ∃ content, h.fileAt? p = .ok content := by
  obtain ⟨content, hcontent⟩ := h.files.fileAt?_of_fits h.directory hfits
  exact ⟨content, by rw [Host.fileAt?, hcontent]; rfl⟩

/-- The user's file can be asked for when its directory has been made. -/
theorem exists_fileAt?_settingsPath (hmade : (made h).error = none)
    (huser : Files.space h.settingsPath ≤ Files.spaceLimit) :
    ∃ content, (prepared h).fileAt? h.settingsPath = .ok content := by
  obtain ⟨place, hplace⟩ := Files.ensureDirectories_leads (error_made_iff.1 hmade).2
  have hlocate := hplace.locate_child "config.json" (by decide) (by decide) huser
  have hfile : ∃ content, (prepared h).files.fileAt? h.directory h.settingsPath = .ok content := by
    unfold Files.fileAt? Files.entryAt
    rw [Host.settingsPath, prepared, hlocate]
    simp only []
    split
    · exact ⟨_, rfl⟩
    · next heq => cases heq
    · exact ⟨_, rfl⟩
  obtain ⟨content, hcontent⟩ := hfile
  exact ⟨content, congrArg (Except.mapError Failure.file) hcontent⟩

theorem exists_counts (hmade : (made h).error = none) (hproject : Files.Fits h.projectPath)
    (huser : Files.space h.settingsPath ≤ Files.spaceLimit)
    (hcan : ∀ text, namedText? named h = some text → CanAsk h text) :
    ∃ origin, Counts named h origin := by
  by_cases hnamed : IsUnnamed named
  · rw [namedText?_of_isUnnamed hnamed] at hcan
    cases hset : h.setting? "APITREE_CONFIG" with
    | some text =>
        obtain ⟨p, content, hexpanded, hfound⟩ := hcan text hset
        exact ⟨_, .environment hnamed hset hexpanded hfound⟩
    | none =>
        obtain ⟨project, hproject⟩ := fileAt?_of_fits h hproject
        obtain ⟨user, huser⟩ := exists_fileAt?_settingsPath hmade huser
        cases project with
        | some content => exact ⟨_, .project hnamed hset hproject⟩
        | none =>
            cases user with
            | some content => exact ⟨_, .user hnamed hset hproject huser⟩
            | none => exact ⟨_, .defaults hnamed hset hproject huser⟩
  · cases named with
    | none => exact absurd (.inl rfl) hnamed
    | some text =>
        have hne : text ≠ "" := fun heq => hnamed (.inr (by rw [heq]))
        obtain ⟨p, content, hexpanded, hfound⟩ := hcan text (namedText?_of_notEmpty hne h)
        exact ⟨_, .argument rfl hne hexpanded hfound⟩

/-- The settings that come out are those of the first source there is, with the format that the
command line asks for, or an error of these settings. What else a host has makes no difference: any
host on which the same counts gives the same. -/
theorem only_first_source_counts (named format : Option String) {h : Host}
    (hmade : (made h).error = none) (hproject : Files.Fits h.projectPath)
    (huser : Files.space h.settingsPath ≤ Files.spaceLimit)
    (hcan : ∀ text, namedText? named h = some text → CanAsk h text) :
    ∃ origin, Counts named h origin ∧
      (resolve named format h).result = origin.settings.map (withFormat format) ∧
      (∀ e, (resolve named format h).result = .error e → ∃ reason, e = .settings reason) ∧
      ∀ h', (made h').error = none → Counts named h' origin →
        (resolve named format h').result = (resolve named format h).result := by
  obtain ⟨origin, hcounts⟩ := exists_counts hmade hproject huser hcan
  have hresult := result_resolve format hmade hcounts
  refine ⟨origin, hcounts, hresult, fun e he => ?_, fun h' hmade' hcounts' => ?_⟩
  · rw [hresult] at he
    cases hsettings : origin.settings with
    | error e' =>
        rw [hsettings] at he
        cases he
        exact Origin.settings_error hsettings
    | ok s =>
        rw [hsettings] at he
        cases he
  · rw [hresult, result_resolve format hmade' hcounts']

/-- A host on which a variable names a file with some settings, beside other files. -/
def namingHost (others : List (Place × Entry)) : Host :=
  { freshHost with
    files := ⟨[(["home"], .directory), (["work"], .directory),
      (["home", "own.json"], .file (Text.encodeUtf8 (text unusualSettings)))] ++ others⟩
    environment := [("HOME", "/home"), ("APITREE_CONFIG", "~/own.json")] }

/-- A host with a broken file of the project. -/
def brokenHost : Host := namingHost [(["work", "apitree.json"], .file [0xff])]

theorem only_first_source_counts_of_variable :
    (resolve (some "") (some "json") (namingHost [])).result =
        .ok { unusualSettings with output := ⟨"json", -12⟩ } ∧
      (resolve (some "") (some "json") brokenHost).result =
        .ok { unusualSettings with output := ⟨"json", -12⟩ } := by
  let own : Origin :=
    .file ⟨"/", ["home", "own.json"]⟩ (some (Text.encodeUtf8 (text unusualSettings)))
  have hbare : Counts (some "") (namingHost []) own := .environment (.inr rfl) rfl rfl rfl
  have hbroken : Counts (some "") brokenHost own := .environment (.inr rfl) rfl rfl rfl
  have hcan : ∀ text, namedText? (some "") (namingHost []) = some text →
      CanAsk (namingHost []) text := by
    rintro _ ⟨⟩
    exact ⟨_, _, rfl, rfl⟩
  obtain ⟨origin, hcounts, hresult, -, hsame⟩ :=
    only_first_source_counts (some "") (some "json") rfl
      ⟨by decide, by decide⟩ (by decide +kernel) hcan
  obtain rfl := hcounts.unique hbare
  rw [Origin.settings, ofBytes_text _ isSound_unusualSettings] at hresult
  exact ⟨hresult, (hsame _ rfl hbroken).trans hresult⟩

/-- A file cannot be asked for by a name that is too long, on any host. -/
theorem result_resolve_of_long (h : Host) (format : Option String) {cs : List Char}
    (hslash : '/' ∉ cs) (hnull : '\x00' ∉ cs) (htilde : cs.head? ≠ some '~')
    (hlong : Files.nameLimit < cs.length) :
    (resolve (some (String.ofList cs)) format h).result = .error (.file .refused) := by
  have hne : ∀ s : String, s.length ≤ Files.nameLimit → String.ofList cs ≠ s := by
    rintro s hs rfl
    rw [String.length_ofList] at hs
    exact absurd hlong (Nat.not_lt.2 hs)
  have hpart : Path.isPart cs = true := by
    cases cs with
    | nil => exact absurd hlong (by decide)
    | cons c rest =>
        cases rest with
        | nil => exact absurd hlong (by simp [Files.nameLimit])
        | cons d rest => simp [Path.isPart]
  have hsize : Files.nameLimit < Files.nameSize (String.ofList cs) :=
    Nat.lt_of_lt_of_le hlong (Files.length_le_nameSize cs)
  have hexpanded : expandHome h (.ofText (String.ofList cs)) = .ok ⟨"", [String.ofList cs]⟩ := by
    have hrelative : Path.isAbsolute ⟨"", [String.ofList cs]⟩ = false := rfl
    rw [Path.ofText_name hslash hpart, expandHome]
    simp only [hrelative, String.toList_ofList]
    split
    · exact absurd rfl htilde
    · rfl
  have hfile : h.fileAt? ⟨"", [String.ofList cs]⟩ = .error (.file .refused) := by
    have hlocate : h.files.locate h.directory ⟨"", [String.ofList cs]⟩ = .error .refused := by
      simp [Files.locate, Files.isSpelled, hnull, Files.follow, Files.step, hsize,
        hne ".." (by decide)]
    rw [Host.fileAt?, Files.fileAt?, Files.entryAt, hlocate]
    rfl
  have heffective : (effective (some (String.ofList cs)) h).result = .error (.file .refused) := by
    rw [result_effective_of_named (namedText?_of_notEmpty (hne "" (by decide)) h) hexpanded, load,
      hfile]
  rw [resolve, Action.bind_apply_of_error heffective]

/-- A name of 256 letters. -/
def longName : String := String.ofList (List.replicate 256 'a')

/-- A name that is too long is refused by the file system, which is no error of settings. -/
theorem too_long_name_is_refused :
    (resolve (some longName) none freshHost).result = .error (.file .refused) ∧
      ¬ ∃ reason, (resolve (some longName) none freshHost).result = .error (.settings reason) := by
  have hrefused : (resolve (some longName) none freshHost).result = .error (.file .refused) :=
    result_resolve_of_long freshHost none (by decide) (by decide) (by decide)
      (by rw [List.length_replicate]; decide)
  rw [hrefused]
  exact ⟨rfl, by simp⟩

end SettingsFile

end ApiOutline
