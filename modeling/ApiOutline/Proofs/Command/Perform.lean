import ApiOutline.Command.Perform
import ApiOutline.Proofs.Action
import ApiOutline.Proofs.Files.Atomic

/-!
# What commands leave behind

Finding the settings and computing an outline are calm: what they do to the
files is to make directories. Data come last, in one piece, and the file they
go to is written as a whole. So a request for an outline fails calmly
(`failsCalmly_perform`). If it does not fail and a file is named, the file holds
the data, and none have been shown (`perform_of_file`).
-/

namespace ApiOutline

open ApiOutline.Action (IsCalm FailsCalmly Succeeds Calm isCalm_ofExcept isCalm_ofLogged
  isCalm_host isCalm_note isCalm_message isCalm_pure)

theorem Host.fileAt?_eq_ok {h : Host} {p : Path} {found : Option (List UInt8)} :
    h.fileAt? p = .ok found ↔ h.files.fileAt? h.directory p = .ok found := by
  unfold fileAt?
  cases h.files.fileAt? h.directory p with
  | error e => simp [Except.mapError]
  | ok content => simp [Except.mapError]

/-! ## Settings -/

theorem Host.isCalm_ensure (p : Path) : IsCalm (ensure p) :=
  Action.isCalm_change fun _ => Files.ensureDirectories_grows _ _ _

namespace SettingsFile

theorem isCalm_provide (name : String) (p : Host → Path) : IsCalm (provide name p) := by
  refine isCalm_host.bind fun h => ?_
  split
  · exact (Host.isCalm_ensure _).bind fun _ => isCalm_pure _
  · exact isCalm_ofExcept _

theorem eq_of_provide {name : String} {p : Host → Path} {h : Host} {q : Path}
    (hmade : (provide name p h).result = .ok q) : q = p h := by
  rw [provide, Action.host_bind_apply] at hmade
  split at hmade
  · obtain ⟨_, -, hpure⟩ := Action.result_bind_eq_ok.1 hmade
    cases hpure
    rfl
  · cases hmade

theorem isCalm_directory : IsCalm directory := isCalm_provide _ _

theorem isCalm_userPath : IsCalm userPath :=
  isCalm_directory.bind fun _ => isCalm_pure _

theorem isCalm_loadUser : IsCalm loadUser := by
  refine isCalm_userPath.bind fun _ => isCalm_host.bind fun _ => ?_
  refine (isCalm_ofExcept _).bind fun found => ?_
  cases found with
  | none => exact isCalm_pure _
  | some _ => exact isCalm_ofExcept _

theorem isCalm_effective (named : Option String) : IsCalm (effective named) := by
  refine isCalm_host.bind fun h => ?_
  split
  · exact (isCalm_note _).bind fun _ => (isCalm_ofExcept _).bind fun _ => isCalm_ofExcept _
  · refine (isCalm_ofExcept _).bind fun found => ?_
    cases found with
    | none => exact isCalm_loadUser
    | some p => exact (isCalm_note _).bind fun _ => isCalm_ofExcept _

theorem isCalm_resolve (named format : Option String) : IsCalm (resolve named format) := by
  refine (isCalm_effective named).bind fun s => ?_
  cases format <;> exact isCalm_pure _

theorem failsCalmly_write (p : Path) (content : String) : FailsCalmly (write p content) :=
  Action.failsCalmly_change fun _ => Files.writeAtomically_grows

end SettingsFile

/-! ## Output -/

namespace Show.Output

variable {o : Output} {v : Value} {h : Host} {path : String}

theorem isCalm_debug (o : Output) (text : String) : IsCalm (o.debug text) := by
  unfold debug
  split
  · exact isCalm_message _
  · exact isCalm_pure ()

theorem succeeds_success (o : Output) (text : String) : Succeeds (o.success text) := by
  unfold success info
  split
  · exact Action.succeeds_pure ()
  · exact Action.succeeds_emit _

theorem isCalm_success (o : Output) (text : String) : IsCalm (o.success text) := by
  unfold success info
  split
  · exact isCalm_pure ()
  · exact isCalm_message _

theorem failsCalmly_json (o : Output) (v : Value) : FailsCalmly (o.json v) := by
  refine (isCalm_ofExcept _).bind_failsCalmly fun text => ?_
  cases o.file with
  | some path => exact SettingsFile.failsCalmly_write _ _
  | none => exact (Action.succeeds_emit _).failsCalmly

theorem failsCalmly_table (o : Output) (t : Table) : FailsCalmly (o.table t) := by
  unfold table
  split
  · exact failsCalmly_json o _
  · exact (Action.succeeds_emit _).failsCalmly
  · exact (Action.succeeds_emit _).failsCalmly

/-- Whether an action has put data into a file, and shown none. -/
structure HasFiled {α : Type} (o : Output) (v : Value) (path : String) (a : Acted α) : Prop where
  text : ∃ text, o.jsonText v = .ok text ∧
    a.host.fileAt? (.ofText path) = .ok (some (Text.encodeUtf8 (text ++ "\n")))
  silent : ∀ text, Event.data text ∉ a.events

theorem HasFiled.bind_of_isCalm {α β : Type} {x : Action α} {f : α → Action β} {a : α}
    (hx : IsCalm x) (hresult : (x h).result = .ok a) (hf : o.HasFiled v path (f a (x h).host)) :
    o.HasFiled v path ((x >>= f) h) := by
  rw [Action.bind_apply_of_ok hresult]
  exact ⟨hf.text, fun text hmem => (List.mem_append.1 hmem).elim ((hx h).silent text)
    (hf.silent text)⟩

/-- What is calm leaves the file as it is. -/
theorem HasFiled.bind {α β : Type} {x : Action α} {f : α → Action β} {a : α}
    (hx : o.HasFiled v path (x h)) (hresult : (x h).result = .ok a) (hf : IsCalm (f a)) :
    o.HasFiled v path ((x >>= f) h) := by
  obtain ⟨hsilent, hgrows, hhost⟩ := hf (x h).host
  obtain ⟨⟨text, htext, hheld⟩, hquiet⟩ := hx
  rw [Action.bind_apply_of_ok hresult]
  refine ⟨⟨text, htext, ?_⟩, fun text hmem => (List.mem_append.1 hmem).elim (hquiet text)
    (hsilent text)⟩
  rw [Host.fileAt?_eq_ok] at hheld ⊢
  rw [hhost]
  exact hgrows.fileAt? hheld

theorem hasFiled_json (hfile : o.file = some path) (hresult : (o.json v h).result = .ok ()) :
    HasFiled o v path (o.json v h) := by
  unfold json at hresult ⊢
  obtain ⟨text, htext, hwrite⟩ := Action.result_bind_eq_ok.1 hresult
  replace htext : o.jsonText v = .ok text := htext
  rw [Action.bind_apply_of_eq (a := text) (by rw [htext]; rfl)]
  simp only [hfile] at hwrite ⊢
  have herror := Action.result_change_eq_ok hwrite
  have hwritten : SettingsFile.write (.ofText path) (text ++ "\n") h = ⟨{ h with
      files := (h.files.writeAtomically h.directory (.ofText path)
        (Text.encodeUtf8 (text ++ "\n"))).files }, [], .ok ()⟩ := Action.change_of_ok herror
  refine ⟨⟨text, htext, ?_⟩, ?_⟩
  · have hheld := Files.fileAt?_writeAtomically herror
    rw [hwritten]
    exact Host.fileAt?_eq_ok.2 hheld
  · rw [hwritten]
    simp

end Show.Output

/-! ## Requests -/

namespace Command

open Show (Output Table)

variable {s : Setting} {o : Output} {h : Host} {path : String}

theorem Options.isCalm_prepare (o : Options) : IsCalm o.prepare :=
  (SettingsFile.isCalm_resolve _ _).bind fun _ => (isCalm_ofExcept _).bind fun _ =>
    isCalm_host.bind fun _ => isCalm_pure _

theorem Setting.isCalm_outlineOf (s : Setting) (source : String) : IsCalm (s.outlineOf source) :=
  isCalm_host.bind fun _ => (isCalm_ofLogged _).bind fun _ => (isCalm_ofExcept _).bind fun _ =>
    (isCalm_ofExcept _).bind fun _ => (isCalm_ofExcept _).bind fun _ =>
      (s.output.isCalm_debug _).bind fun _ => isCalm_ofLogged _

theorem failsCalmly_present {α : Type} (o : Output) (publish : α → Except Failure Value)
    (table : List α → Table) (xs : List α) : FailsCalmly (present o publish table xs) := by
  unfold present
  split
  · exact (IsCalm.mapM (fun _ => isCalm_ofExcept _) xs).bind_failsCalmly fun _ =>
      o.failsCalmly_json _
  · exact o.failsCalmly_table _

theorem failsCalmly_presentOutline (o : Output) (outline : Outline) :
    FailsCalmly (presentOutline o outline) := by
  refine (isCalm_ofExcept _).bind_failsCalmly fun v => (o.failsCalmly_json v).bind fun _ => ?_
  cases o.file with
  | none => exact Action.succeeds_pure ()
  | some path => exact o.succeeds_success _

/-- The source of the document that a request is about. -/
def Request.source? : Request → Option String
  | .parse source | .paths source _ | .models source => some source
  | .showSettings | .initSettings _ => none

/-- The data that a request asks for, in an outline. -/
def Request.dataOf (outline : Outline) : Request → Option Value
  | .parse _ => (outline.publish depthLimit).toOption
  | .paths _ withBridges =>
      ((outline.nodes.filter fun n => withBridges || !n.isBridge).mapM fun n : Node =>
        (n.publish depthLimit).toOption).map .list
  | .models _ => (outline.models.mapM fun m : Model => (m.publish depthLimit).toOption).map .list
  | .showSettings | .initSettings _ => none

/-- A request for an outline that fails shows nothing and leaves no file. -/
theorem failsCalmly_perform (s : Setting) {request : Request} {source : String}
    (hsource : request.source? = some source) : FailsCalmly (s.perform request) := by
  cases request with
  | parse source =>
      exact (s.isCalm_outlineOf source).bind_failsCalmly fun outline =>
        (failsCalmly_presentOutline _ outline).bind fun _ => Action.succeeds_pure true
  | paths source withBridges =>
      exact (s.isCalm_outlineOf source).bind_failsCalmly fun outline =>
        (failsCalmly_present _ _ _ _).bind fun _ => Action.succeeds_pure true
  | models source =>
      exact (s.isCalm_outlineOf source).bind_failsCalmly fun outline =>
        (failsCalmly_present _ _ _ _).bind fun _ => Action.succeeds_pure true
  | showSettings => cases hsource
  | initSettings _ => cases hsource

theorem hasFiled_presentOutline {outline : Outline} (hfile : o.file = some path)
    (hresult : (presentOutline o outline h).result = .ok ()) :
    ∃ data, outline.publish depthLimit = .ok data ∧
      o.HasFiled data path (presentOutline o outline h) := by
  unfold presentOutline at hresult ⊢
  obtain ⟨data, hdata, hrest⟩ := Action.result_bind_eq_ok.1 hresult
  obtain ⟨_, hjson, -⟩ := Action.result_bind_eq_ok.1 hrest
  refine ⟨data, hdata, .bind_of_isCalm (isCalm_ofExcept _) hdata
    ((Show.Output.hasFiled_json hfile hjson).bind hjson ?_)⟩
  rw [hfile]
  exact o.isCalm_success _

theorem hasFiled_present {α : Type} {publish : α → Except Failure Value} {table : List α → Table}
    {xs : List α} (hfile : o.file = some path)
    (hresult : (present o publish table xs h).result = .ok ()) :
    ∃ data, (xs.mapM fun x => (publish x).toOption).map .list = some data ∧
      o.HasFiled data path (present o publish table xs h) := by
  unfold present at hresult ⊢
  simp only [hfile, Option.isSome_some, or_true, if_true] at hresult ⊢
  obtain ⟨vs, hvs, hjson⟩ := Action.result_bind_eq_ok.1 hresult
  have hpublished := Action.mapM_eq_some (g := fun x => (publish x).toOption) (fun _ _ => rfl) hvs
  exact ⟨.list vs, by rw [hpublished]; rfl,
    .bind_of_isCalm (IsCalm.mapM (fun _ => isCalm_ofExcept _) xs) hvs
      (Show.Output.hasFiled_json hfile hjson)⟩

/-- Data of an outline that are shown last are left in the file that is named. -/
theorem hasFiled_outlineOf {source : String} {shows : Outline → Action Unit}
    {dataOf : Outline → Option Value} {granted : Bool}
    (hshow : ∀ outline h, (shows outline h).result = .ok () →
      ∃ data, dataOf outline = some data ∧ o.HasFiled data path (shows outline h))
    (hresult : ((do shows (← s.outlineOf source); return true : Action Bool) h).result =
      .ok granted) :
    ∃ outline data, (s.outlineOf source h).result = .ok outline ∧ dataOf outline = some data ∧
      o.HasFiled data path ((do shows (← s.outlineOf source); return true : Action Bool) h) := by
  obtain ⟨outline, houtline, hrest⟩ := Action.result_bind_eq_ok.1 hresult
  obtain ⟨_, hpresent, -⟩ := Action.result_bind_eq_ok.1 hrest
  obtain ⟨data, hdata, hfiled⟩ := hshow outline _ hpresent
  exact ⟨outline, data, houtline, hdata,
    .bind_of_isCalm (s.isCalm_outlineOf _) houtline (hfiled.bind hpresent (isCalm_pure true))⟩

/-- A request for an outline that succeeds leaves its data in the file that is named. -/
theorem hasFiled_perform {request : Request} {source : String} {granted : Bool}
    (hsource : request.source? = some source) (hfile : s.output.file = some path)
    (hresult : (s.perform request h).result = .ok granted) :
    ∃ outline data, (s.outlineOf source h).result = .ok outline ∧
      request.dataOf outline = some data ∧
      s.output.HasFiled data path (s.perform request h) := by
  cases request with
  | parse _ =>
      cases hsource
      refine hasFiled_outlineOf (fun outline h hshown => ?_) hresult
      obtain ⟨data, hdata, hfiled⟩ := hasFiled_presentOutline hfile hshown
      exact ⟨data, congrArg Except.toOption hdata, hfiled⟩
  | paths _ withBridges =>
      cases hsource
      exact hasFiled_outlineOf (fun _ _ => hasFiled_present hfile) hresult
  | models _ =>
      cases hsource
      exact hasFiled_outlineOf (fun _ _ => hasFiled_present hfile) hresult
  | showSettings => cases hsource
  | initSettings _ => cases hsource

end Command

end ApiOutline
