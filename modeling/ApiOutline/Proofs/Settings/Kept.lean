import ApiOutline.Proofs.Action
import ApiOutline.Proofs.Files.Atomic
import ApiOutline.Proofs.Settings.ReadBack
import ApiOutline.Proofs.Text
import ApiOutline.SettingsFile

/-!
# Settings that are kept

Settings are kept as the text of their complete form, and what is read from the
bytes of that text are the same settings (`ofBytes_text`). So those who ask for
the user's settings after some have been saved get these: the file has been
written as a whole, and asking makes no directory any more, since it is there.
-/

namespace ApiOutline.SettingsFile

variable {h : Host} {s : Settings}

/-! ## The text of a settings file -/

theorem notMem_text (h : s.IsSound) : '\r' ∉ (text s).toList :=
  Json.notMem_renderLine ⟨some 2, true⟩ (s.isExact_write .complete h)

theorem parse_text (h : s.IsSound) : Json.parse (text s) = .ok (s.write .complete) :=
  Json.parse_renderLine ⟨some 2, true⟩ (s.isExact_write .complete h)

/-- What is written of settings is read as these settings. -/
theorem ofBytes_text (path : String) (h : s.IsSound) :
    ofBytes path (Text.encodeUtf8 (text s)) = .ok s := by
  unfold ofBytes
  rw [Text.decodeUtf8?_encodeUtf8]
  simp only [Text.ofList_unifyLineEnds (notMem_text h), parse_text h,
    Settings.read_write .complete h]

/-! ## The directory of the user's settings -/

/-- What asking for the directory of the user's settings comes to. -/
def made (h : Host) : Acted Path := directory h

/-- The host after the directory of the user's settings has been made. -/
def prepared (h : Host) : Host :=
  { h with files := (h.files.ensureDirectories h.directory h.settingsDirectory).files }

/-- The directory is made where its place is known and its path can be made. -/
theorem error_made_iff : (made h).error = none ↔ h.knowsDirectory "XDG_CONFIG_HOME" = true ∧
    (h.files.ensureDirectories h.directory h.settingsDirectory).error = none := by
  rw [made, directory, provide, Action.host_bind_apply]
  by_cases hknows : h.knowsDirectory "XDG_CONFIG_HOME" = true
  · rw [if_pos hknows]
    cases hensure : (h.files.ensureDirectories h.directory h.settingsDirectory).error with
    | none =>
        have hchange : Host.ensure h.settingsDirectory h = ⟨prepared h, [], .ok ()⟩ :=
          Action.change_of_ok hensure
        simp only [Bind.bind, Action.bind, hchange]
        exact ⟨fun _ => ⟨hknows, trivial⟩, fun _ => rfl⟩
    | some e =>
        have hfail : (Host.ensure h.settingsDirectory h).result = .error (.file e) := by
          simp only [Host.ensure, Action.change, hensure]
        rw [Action.bind_apply_of_error hfail]
        constructor
        · intro hnone
          cases hnone
        · rintro ⟨-, hnone⟩
          cases hnone
  · rw [if_neg hknows]
    constructor
    · intro hnone
      cases hnone
    · rintro ⟨hdirectory, -⟩
      exact absurd hdirectory hknows

theorem made_eq (hmade : (made h).error = none) :
    made h = ⟨prepared h, [], .ok h.settingsDirectory⟩ := by
  obtain ⟨hknows, hensure⟩ := error_made_iff.1 hmade
  have hchange : Host.ensure h.settingsDirectory h = ⟨prepared h, [], .ok ()⟩ :=
    Action.change_of_ok hensure
  rw [made, directory, provide, Action.host_bind_apply, if_pos hknows]
  simp only [Bind.bind, Action.bind, hchange]
  rfl

theorem userPath_apply (hmade : (made h).error = none) :
    userPath h = ⟨prepared h, [], .ok h.settingsPath⟩ := by
  have hdirectory : directory h = ⟨prepared h, [], .ok h.settingsDirectory⟩ := made_eq hmade
  unfold userPath
  simp only [Bind.bind, Action.bind, hdirectory]
  rfl

theorem load_of_fileAt? {p : Path} {content : List UInt8}
    (hfile : h.fileAt? p = .ok (some content)) : load h p = ofBytes p.text content := by
  rw [load, hfile]

/-- The user's settings are those of their file, or the defaults. -/
theorem result_loadUser (hmade : (made h).error = none) : (loadUser h).result =
    match (prepared h).fileAt? h.settingsPath with
    | .error e => .error e
    | .ok none => .ok .default
    | .ok (some content) => ofBytes h.settingsPath.text content := by
  unfold loadUser
  rw [Action.bind_apply_of_ok (v := h.settingsPath) (by rw [userPath_apply hmade])]
  simp only [userPath_apply hmade, Bind.bind, Action.bind, Action.host, Action.ofExcept]
  cases hfile : (prepared h).fileAt? h.settingsPath with
  | error e => rfl
  | ok found =>
      cases found with
      | none => rfl
      | some content =>
          simp only [load_of_fileAt? hfile]
          rfl

/-! ## Keeping settings -/

/-- Whether a user's settings can be kept: their directory can be made, and a file be written in
it. -/
structure CanKeep (h : Host) : Prop where
  directory : (made h).error = none
  file : ∃ content,
    ((prepared h).files.writeAtomically h.directory h.settingsPath content).error = none

/-- The files after settings have been kept. -/
def kept (h : Host) (s : Settings) : Files.Outcome :=
  (prepared h).files.writeAtomically h.directory h.settingsPath (Text.encodeUtf8 (text s))

theorem CanKeep.kept (hcan : CanKeep h) (s : Settings) : (kept h s).error = none := by
  obtain ⟨content, hcontent⟩ := hcan.file
  rw [← hcontent]
  exact Files.error_writeAtomically _ _ _ _ _

theorem save_apply (hcan : CanKeep h) :
    save s h = ⟨{ h with files := (kept h s).files }, [], .ok h.settingsPath⟩ := by
  have hwrite : write h.settingsPath (text s) (prepared h) =
      ⟨{ h with files := (kept h s).files }, [], .ok ()⟩ :=
    Action.change_of_ok (hcan.kept s)
  unfold save
  simp only [Bind.bind, Action.bind, userPath_apply hcan.directory, hwrite]
  rfl

/-- The text that names a settings file, if there is one. -/
def namedText? (named : Option String) (h : Host) : Option String :=
  (named.filter fun s => !s.isEmpty).orElse fun _ => h.setting? "APITREE_CONFIG"

/-- Where no file is named and the project has none, the settings of the user count. -/
theorem effective_of_user (named : Option String) (htext : namedText? named h = none)
    (hproject : projectPath h = .ok none) : effective named h = loadUser h := by
  unfold effective
  rw [Action.host_bind_apply]
  rw [namedText?] at htext
  simp only [htext]
  rw [Action.bind_apply_of_eq (a := none) (by rw [hproject]; rfl)]

/-- The user's settings are the last ones kept. -/
theorem result_loadUser_save (hsound : s.IsSound) (hcan : CanKeep h) :
    (loadUser (save s h).host).result = .ok s := by
  have hkept := hcan.kept s
  have hfile := Files.fileAt?_writeAtomically hkept
  obtain ⟨place, hplace⟩ := Files.leadsTo_parent_writeAtomically hkept
  rw [show h.settingsPath.parent = h.settingsDirectory from Path.parent_child _ _] at hplace
  have hensure : (kept h s).files.ensureDirectories h.directory h.settingsDirectory =
      ⟨(kept h s).files, none⟩ := Files.ensureDirectories_of_leadsTo hplace
  have hmade : (made { h with files := (kept h s).files }).error = none :=
    error_made_iff.2 ⟨(error_made_iff.1 hcan.directory).1, congrArg Files.Outcome.error hensure⟩
  have hread : (prepared { h with files := (kept h s).files }).fileAt? h.settingsPath =
      .ok (some (Text.encodeUtf8 (text s))) := by
    have hprepared : prepared { h with files := (kept h s).files } =
        { h with files := (kept h s).files } :=
      congrArg (fun o : Files.Outcome => { h with files := o.files }) hensure
    rw [hprepared, Host.fileAt?]
    exact congrArg (Except.mapError Failure.file) hfile
  rw [save_apply hcan, result_loadUser hmade]
  simp only [show Host.settingsPath { h with files := (kept h s).files } = h.settingsPath from rfl,
    hread, ofBytes_text _ hsound]

/-- Settings that have been saved are the user's settings from then on, and where no other source
names any they are the settings that count. -/
theorem saved_settings_are_read_back (hsound : s.IsSound) (hcan : CanKeep h) :
    (save s h).result = .ok h.settingsPath ∧
      (loadUser (save s h).host).result = .ok s ∧
      ((save s h).host.setting? "APITREE_CONFIG" = none →
        projectPath (save s h).host = .ok none →
        (resolve none none (save s h).host).result = .ok s) := by
  have hload := result_loadUser_save hsound hcan
  refine ⟨by rw [save_apply hcan], hload, fun hunset hproject => ?_⟩
  rw [← effective_of_user none hunset hproject] at hload
  unfold resolve
  rw [Action.bind_apply_of_ok hload]
  rfl

/-- A host on which nothing has been kept yet. -/
def freshHost : Host where
  files := ⟨[(["home"], .directory), (["work"], .directory)]⟩
  directory := ["work"]
  environment := [("HOME", "/home")]
  system := "Linux"
  input := []
  reply := .failed ""
  clock := ""
  isTerminal := false

/-- Settings with signs that are escaped, a table out of order and a number below zero. -/
def unusualSettings : Settings :=
  ⟨⟨[⟨"\"\\\n\r", "😀"⟩], [("b", "1"), ("a", "")], [], ["get", "get"]⟩, ⟨"rich", -12⟩⟩

theorem isSound_unusualSettings : unusualSettings.IsSound :=
  ⟨⟨by decide, by decide⟩, by unfold OutputSettings.IsSound; decide⟩

theorem saved_settings_are_read_back_of_unusual :
    (loadUser (save unusualSettings freshHost).host).result = .ok unusualSettings ∧
      (resolve none none (save unusualSettings freshHost).host).result = .ok unusualSettings := by
  have hcan : CanKeep freshHost := ⟨by decide +kernel, [], by decide +kernel⟩
  obtain ⟨-, hload, hresolve⟩ := saved_settings_are_read_back isSound_unusualSettings hcan
  exact ⟨hload, hresolve rfl rfl⟩

end ApiOutline.SettingsFile
