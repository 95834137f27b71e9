import ApiOutline.Command.Run
import ApiOutline.Proofs.Command.Perform
import ApiOutline.Proofs.Record.Checked
import ApiOutline.Proofs.Settings.Kept

/-!
# Runs that leave everything or nothing

A run for an outline fails before it shows or writes anything, so all that a
failure adds is what `stop` does: a message, and where something unforeseen has
happened a report at a place of its own (`Spares`). A run that succeeds has its
data where they were asked for. Both are put together in
`output_is_all_or_nothing`.
-/

namespace ApiOutline.Command

open ApiOutline.Action (IsCalm FailsCalmly Calm isCalm_ofExcept isCalm_host isCalm_message
  isCalm_pure)

variable {α β : Type} {x : Action α} {f : α → Action β} {h : Host} {a : α} {p : Path}

/-! ## Exit codes -/

/-- The exit code of a run. A run that cannot keep its report has failed as well. -/
def exitCodeOf (r : Acted Ending) : Nat :=
  match r.result with
  | .ok ending => ending.exitCode
  | .error _ => ExitCode.failure

/-- Whether a run has ended without a request: the line was misused, or asked for the version or for
help. -/
def isHalted (r : Acted Ending) : Bool :=
  match r.result with
  | .ok (.halted _) => true
  | _ => false

/-- What a run has shown on the output. -/
def outputOf (r : Acted Ending) : String := (Show.Streams.ofEvents false r.events).output

theorem exitCode_ne_success (k : ReportKind) : k.exitCode ≠ ExitCode.success := by
  cases k <;> decide

/-- A run that has been stopped has failed. -/
theorem exitCodeOf_stop (e : Failure) (h : Host) : exitCodeOf (stop e h) ≠ ExitCode.success := by
  unfold stop
  cases e.report with
  | some report => exact exitCode_ne_success report.kind
  | none =>
      unfold exitCodeOf
      split
      · next ending hresult =>
          obtain ⟨_, _, hrest⟩ := Action.result_bind_eq_ok.1 hresult
          cases hrest
          exact exitCode_ne_success .general
      · exact exitCode_ne_success .general

theorem join_eq_empty {ss : List String} (h : ∀ s ∈ ss, s = "") : String.join ss = "" := by
  induction ss with
  | nil => rfl
  | cons s rest ih =>
      obtain ⟨hs, hrest⟩ := List.forall_mem_cons.1 h
      rw [String.join_cons, hs, ih hrest]
      rfl

theorem output_eq_empty {events : List Event} (h : ∀ text, Event.data text ∉ events) :
    (Show.Streams.ofEvents false events).output = "" := by
  refine join_eq_empty fun s hs => ?_
  obtain ⟨e, he, rfl⟩ := List.mem_map.1 hs
  cases e with
  | data text => exact absurd he (h text)
  | note n => rfl
  | message text => rfl

theorem outputOf_eq_empty {r : Acted Ending} (hr : ∀ text, Event.data text ∉ r.events) :
    outputOf r = "" :=
  output_eq_empty hr

/-! ## Reports -/

/-- Whether no data have been shown, and every place is as it was, but for directories that were
made and the place that one path leads to. -/
structure Spares (h : Host) (p : Path) (r : Acted α) : Prop where
  silent : ∀ text, Event.data text ∉ r.events
  files : ∀ q, r.host.files.locate h.directory p ≠ .ok q →
    r.host.files.get? q = h.files.get? q ∨
      (h.files.get? q = none ∧ r.host.files.get? q = some .directory)

theorem Spares.of_calm {r : Acted α} (hr : Calm h r) (p : Path) : Spares h p r :=
  ⟨hr.silent, fun q _ => hr.grows q⟩

theorem Spares.bind_of_calm (hx : Calm h (x h)) (hresult : (x h).result = .ok a)
    (hf : Spares (x h).host p (f a (x h).host)) : Spares h p ((x >>= f) h) := by
  rw [Action.bind_apply_of_ok hresult]
  refine ⟨fun text hmem => (List.mem_append.1 hmem).elim (hx.silent text) (hf.silent text),
    fun q hq => ?_⟩
  have hdirectory : (x h).host.directory = h.directory := by rw [hx.host]
  have hlast := hf.files q (by rw [hdirectory]; exact hq)
  rcases hx.grows q with heq | ⟨hnone, hnew⟩
  · rwa [heq] at hlast
  · rcases hlast with hsame | ⟨hmissing, -⟩
    · exact .inr ⟨hnone, hsame.trans hnew⟩
    · rw [hnew] at hmissing
      cases hmissing

/-- Nothing is changed by what leaves the host alone and shows no data. -/
theorem Spares.bind_still (hx : Spares h p (x h))
    (hf : ∀ a h, (f a h).host = h ∧ ∀ text, Event.data text ∉ (f a h).events) :
    Spares h p ((x >>= f) h) := by
  cases hresult : (x h).result with
  | error e =>
      rw [Action.bind_apply_of_error hresult]
      exact ⟨hx.silent, hx.files⟩
  | ok a =>
      obtain ⟨hhost, hsilent⟩ := hf a (x h).host
      rw [Action.bind_apply_of_ok hresult]
      refine ⟨fun text hmem => (List.mem_append.1 hmem).elim (hx.silent text) (hsilent text), ?_⟩
      simp only [hhost]
      exact hx.files

/-- A file that is written changes the place that its path leads to. -/
theorem spares_write (h : Host) (p : Path) (content : List UInt8) :
    Spares h p (Action.change (fun h => h.files.write h.directory p content) h) := by
  refine ⟨by simp [Action.change], fun q hq => .inl ?_⟩
  simp only [Action.change, Files.write] at hq ⊢
  cases hlocate : h.files.locate h.directory p with
  | error e => rfl
  | ok place =>
      rw [hlocate] at hq
      simp only [] at hq ⊢
      split at hq
      · next hdirectory => rw [if_pos hdirectory]
      · next hdirectory =>
          rw [if_neg hdirectory]
          have hne : q ≠ place := by
            rintro rfl
            exact hq ((Files.keepsDirectories_put hdirectory _).locate hlocate)
          exact Files.get?_put_of_ne h.files hne _

/-- The path of the report of a run. -/
def reportPath (h : Host) : Path :=
  (h.dataDirectory.child "logs").child ("crash-" ++ h.clock ++ ".log")

theorem spares_keepReport (e : Failure) (h : Host) :
    Spares h (reportPath h) (keepReport e h) := by
  have hfirst : IsCalm SettingsFile.dataDirectory := SettingsFile.isCalm_provide _ _
  unfold keepReport
  cases hdata : (SettingsFile.dataDirectory h).result with
  | error e' => exact .of_calm (Calm.of_bind_error hdata (hfirst h)) _
  | ok directory =>
      obtain rfl := SettingsFile.eq_of_provide hdata
      refine .bind_of_calm (hfirst h) hdata ?_
      rw [(hfirst h).host]
      generalize hk : ({ h with files := (SettingsFile.dataDirectory h).host.files } : Host) = k
      have hlogs := Host.isCalm_ensure (h.dataDirectory.child "logs") k
      cases hmade : (Host.ensure (h.dataDirectory.child "logs") k).result with
      | error e' => exact .of_calm (Calm.of_bind_error hmade hlogs) _
      | ok _ =>
          refine .bind_of_calm hlogs hmade ?_
          rw [Action.host_bind_apply, hlogs.host, ← hk]
          exact (spares_write _ (reportPath h) _).bind_still fun _ _ =>
            ⟨rfl, (isCalm_pure _ _).silent⟩

theorem spares_stop (e : Failure) (h : Host) : Spares h (reportPath h) (stop e h) := by
  unfold stop
  cases e.report with
  | some report => exact .of_calm ((isCalm_message _).bind (fun _ => isCalm_pure _) h) _
  | none =>
      exact (spares_keepReport e h).bind_still fun _ h =>
        ⟨rfl, ((isCalm_message _).bind (fun _ => isCalm_pure _) h).silent⟩

/-- Whether a run has failed and left nothing behind but its report. -/
structure LeavesNothing (h : Host) (r : Acted Ending) : Prop where
  exitCode : exitCodeOf r ≠ ExitCode.success
  spares : Spares h (reportPath h) r

theorem leavesNothing_stop (e : Failure) (h : Host) : LeavesNothing h (stop e h) :=
  ⟨exitCodeOf_stop e h, spares_stop e h⟩

theorem LeavesNothing.bind_of_calm {f : α → Action Ending} (hx : Calm h (x h))
    (hresult : (x h).result = .ok a) (hf : LeavesNothing (x h).host (f a (x h).host)) :
    LeavesNothing h ((x >>= f) h) := by
  refine ⟨?_, .bind_of_calm hx hresult ?_⟩
  · rw [Action.bind_apply_of_ok hresult]
    exact hf.exitCode
  · have hpath : reportPath (x h).host = reportPath h := by
      rw [hx.host]
      rfl
    rw [← hpath]
    exact hf.spares

/-! ## Whole runs -/

variable {o : Opening} {setting : Setting} {request : Request} {source file : String} {e : Failure}

theorem Request.exists_source (hname : o.name ≠ .config)
    (hread : Request.read o.name o.rest = .ok request) :
    ∃ source, request.source? = some source := by
  unfold Request.read at hread
  cases hcommand : o.name with
  | parse | models =>
      simp only [hcommand] at hread
      obtain ⟨words, -, hread⟩ := bind_eq_ok.1 hread
      obtain ⟨source, -, hread⟩ := bind_eq_ok.1 hread
      cases hread
      exact ⟨source, rfl⟩
  | paths =>
      simp only [hcommand] at hread
      obtain ⟨words, -, hread⟩ := bind_eq_ok.1 hread
      obtain ⟨source, -, hread⟩ := bind_eq_ok.1 hread
      cases hread
      exact ⟨source, rfl⟩
  | config => exact absurd hcommand hname

theorem result_perform (hsource : request.source? = some source) {granted : Bool}
    (hresult : (setting.perform request h).result = .ok granted) : granted = true := by
  cases request with
  | parse _ | paths _ _ | models _ =>
      obtain ⟨_, -, hrest⟩ := Action.result_bind_eq_ok.1 hresult
      obtain ⟨_, -, hpure⟩ := Action.result_bind_eq_ok.1 hrest
      cases hpure
      rfl
  | showSettings => cases hsource
  | initSettings _ => cases hsource

theorem attempt_eq_ok {r : Except Failure α} (hx : (x h).result = r) :
    (Action.attempt x h).result = .ok r :=
  congrArg _ hx

/-- Whether a run has done what it was asked for: the data are in the file, if one is named. -/
structure Delivers (o : Opening) (h : Host) (r : Acted Ending) : Prop where
  result : r.result = .ok .done
  data : ∃ setting request source, (o.options.prepare h).result = .ok setting ∧
    Request.read o.name o.rest = .ok request ∧ request.source? = some source ∧
    ∀ path, setting.output.file = some path → ∃ outline data,
      (setting.outlineOf source (o.options.prepare h).host).result = .ok outline ∧
      request.dataOf outline = some data ∧ setting.output.HasFiled data path r

/-- A run for an outline leaves nothing, or it does what it was asked for. -/
theorem follow_cases (hname : o.name ≠ .config) (hrequest : isHalted (follow o h) = false) :
    LeavesNothing h (follow o h) ∨ Delivers o h (follow o h) := by
  have hcalm := o.options.isCalm_prepare.attempt
  unfold follow at hrequest ⊢
  cases hprepare : (o.options.prepare h).result with
  | error e =>
      exact .inl (.bind_of_calm (hcalm h) (attempt_eq_ok hprepare) (leavesNothing_stop e _))
  | ok setting =>
      have hfirst := attempt_eq_ok hprepare
      cases hread : Request.read o.name o.rest with
      | error reason =>
          rw [Action.bind_apply_of_ok hfirst] at hrequest
          simp only [hread] at hrequest
          cases reason <;> cases hrequest
      | ok request =>
          obtain ⟨source, hsource⟩ := Request.exists_source hname hread
          cases hperform : (setting.perform request (o.options.prepare h).host).result with
          | error e =>
              have hfails := failsCalmly_perform setting hsource _ e hperform
              refine .inl (.bind_of_calm (hcalm h) hfirst ?_)
              refine .bind_of_calm ⟨hfails.silent, hfails.grows, hfails.host⟩
                (attempt_eq_ok hperform) (leavesNothing_stop e _)
          | ok granted =>
              have hgranted := result_perform hsource hperform
              subst hgranted
              have hsecond := attempt_eq_ok hperform
              refine .inr ⟨Action.result_bind_eq_ok.2 ⟨_, hfirst,
                Action.result_bind_eq_ok.2 ⟨_, hsecond, rfl⟩⟩, setting, request, source, hprepare,
                hread, hsource, fun path hpath => ?_⟩
              obtain ⟨outline, data, houtline, hdata, htext, hsilent⟩ :=
                hasFiled_perform hsource hpath hperform
              exact ⟨outline, data, houtline, hdata, .bind_of_isCalm hcalm hfirst
                (.bind (x := Action.attempt (setting.perform request)) ⟨htext, hsilent⟩ hsecond
                  (isCalm_pure _))⟩

/-- Whether a value is what a command line asks for, with the settings that hold for it. -/
structure IsAskedFor (o : Opening) (h : Host) (setting : Setting) (data : Value) : Prop where
  prepared : (o.options.prepare h).result = .ok setting
  data : ∃ request source outline, Request.read o.name o.rest = .ok request ∧
    request.source? = some source ∧
    (setting.outlineOf source (o.options.prepare h).host).result = .ok outline ∧
    request.dataOf outline = some data

/-- The output that is prepared writes into the file that is named, with the indentation of the
settings. -/
theorem output_of_prepare (hprepare : (o.options.prepare h).result = .ok setting) :
    setting.output.file = o.options.file.filter (fun s => !s.isEmpty) ∧
      setting.output.indent = some setting.settings.output.indent := by
  obtain ⟨settings, -, hrest⟩ := Action.result_bind_eq_ok.1 hprepare
  obtain ⟨format, -, hrest⟩ := Action.result_bind_eq_ok.1 hrest
  obtain ⟨k, -, hrest⟩ := Action.result_bind_eq_ok.1 hrest
  cases hrest
  exact ⟨rfl, rfl⟩

/-- What a command line makes the program do. -/
def act (args : List String) : Action Ending :=
  match Opening.read args with
  | .error reason => halt reason
  | .ok o => follow o

/-- A run is what has been acted, its shows written to two streams. -/
theorem ofWords_eq_act (h : Host) (args : List String) :
    ∃ isDetailed, Run.ofWords h args = Run.ofAction isDetailed (act args) h := by
  unfold Run.ofWords act
  cases Opening.read args with
  | error reason => exact ⟨_, rfl⟩
  | ok o => exact ⟨_, rfl⟩

/-- A run for an outline shows and writes everything or nothing. If it fails, it has shown no data,
and every place is as it was, but for directories that were made and for the report of something
unforeseen. If it succeeds and a file is named, it has shown no data either, and the file holds the
text of the data that were asked for. -/
theorem output_is_all_or_nothing {h : Host} {args : List String} {o : Opening}
    (hopening : Opening.read args = .ok o)
    (hname : o.name ≠ .config) (hrequest : isHalted (act args h) = false) :
    (exitCodeOf (act args h) ≠ ExitCode.success →
      outputOf (act args h) = "" ∧
      ∀ q, (act args h).host.files.locate h.directory (reportPath h) ≠ .ok q →
        (act args h).host.files.get? q = h.files.get? q ∨
          (h.files.get? q = none ∧ (act args h).host.files.get? q = some .directory)) ∧
    (exitCodeOf (act args h) = ExitCode.success →
      ∀ file, o.options.file = some file → file ≠ "" →
        outputOf (act args h) = "" ∧
        ∃ setting data, IsAskedFor o h setting data ∧
          (act args h).host.fileAt? (.ofText file) =
            .ok (some (Text.encodeUtf8 (Json.render
              ⟨some setting.settings.output.indent.toNat, false⟩ data ++ "\n")))) := by
  have hact : act args = follow o := by rw [act, hopening]
  rw [hact] at hrequest ⊢
  rcases follow_cases hname hrequest with hnothing | hdelivers
  · refine ⟨fun _ => ⟨outputOf_eq_empty hnothing.spares.silent, hnothing.spares.files⟩, ?_⟩
    exact fun hsuccess => absurd hsuccess hnothing.exitCode
  · refine ⟨fun hfailure => absurd ?_ hfailure, fun _ file hfile hne => ?_⟩
    · rw [exitCodeOf, hdelivers.result]
      rfl
    · obtain ⟨setting, request, source, hprepare, hread, hsource, hdata⟩ := hdelivers.data
      obtain ⟨hpath, hindent⟩ := output_of_prepare hprepare
      rw [hfile, Option.filter_some_pos (by simpa using hne)] at hpath
      obtain ⟨outline, data, houtline, hshown, ⟨text, htext, hheld⟩, hsilent⟩ := hdata file hpath
      refine ⟨outputOf_eq_empty hsilent, setting, data,
        ⟨hprepare, request, source, outline, hread, hsource, houtline, hshown⟩, ?_⟩
      rw [hheld]
      unfold Show.Output.jsonText at htext
      split at htext
      · cases htext
        rw [hindent]
        rfl
      · cases htext

/-- A host with an empty document on its input. -/
def emptyDocumentHost : Host :=
  { SettingsFile.freshHost with
    environment := [("HOME", "/home"), ("NO_COLOR", "1")]
    input := Text.encodeUtf8 "\x7b\"openapi\": \"3.0.0\"\x7d" }

/-- A line that asks for the outline of a source in a file. -/
def parseOpening (source : String) : Opening :=
  ⟨⟨none, false, false, false, false, false, some "out.json"⟩, .parse, [source]⟩

theorem output_is_all_or_nothing_of_empty :
    (outputOf (act ["-o", "out.json", "parse", "missing.json"] emptyDocumentHost) = "" ∧
      ∀ content, (act ["-o", "out.json", "parse", "missing.json"] emptyDocumentHost).host.files.get?
        ["work", "out.json"] ≠ some (.file content)) ∧
    outputOf (act ["-o", "out.json", "parse", "-"] emptyDocumentHost) = "" ∧
      ∃ setting data, IsAskedFor (parseOpening "-") emptyDocumentHost setting data ∧
        (act ["-o", "out.json", "parse", "-"] emptyDocumentHost).host.fileAt? (.ofText "out.json") =
          .ok (some (Text.encodeUtf8 (Json.render
            ⟨some setting.settings.output.indent.toNat, false⟩ data ++ "\n"))) := by
  have hmissing : Opening.read ["-o", "out.json", "parse", "missing.json"] =
      .ok (parseOpening "missing.json") := rfl
  have hinput : Opening.read ["-o", "out.json", "parse", "-"] = .ok (parseOpening "-") := rfl
  obtain ⟨hquiet, hfiles⟩ := (output_is_all_or_nothing (h := emptyDocumentHost) hmissing
    (by decide) (by decide +kernel)).1 (by decide +kernel)
  have hdone := (output_is_all_or_nothing (h := emptyDocumentHost) hinput (by decide)
    (by decide +kernel)).2 (by decide +kernel) "out.json" rfl (by decide)
  refine ⟨⟨hquiet, fun content hcontent => ?_⟩, hdone⟩
  rcases hfiles ["work", "out.json"] fun hreport =>
    absurd (congrArg Except.toOption hreport) (by decide +kernel) with hsame | ⟨-, hnew⟩
  · rw [hcontent] at hsame
    cases hsame
  · rw [hcontent] at hnew
    cases hnew

end ApiOutline.Command
