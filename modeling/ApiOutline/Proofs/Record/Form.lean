import ApiOutline.Proofs.Record.Checked
import ApiOutline.Proofs.Value.Plain
import ApiOutline.Record.Form

/-!
# Reading a record back

A published record has one member for each field that is set, under the
published name. If these names differ, each field is found again under its own
(`find?_published`), and under no name that no field has. So a part of a record
is read back if its value is.
-/

namespace ApiOutline.Record

variable {entries : List Entry} {ms : Members} {name : String} {others : List String}

/-- The members that a record is published with. -/
def published (entries : List Entry) : Members :=
  entries.filterMap Form.published.member

theorem published_cons (e : Entry) (entries : List Entry) :
    published (e :: entries) =
      (e.value.map fun v => (.str e.published, v)).toList ++ published entries := by
  unfold published
  rw [List.filterMap_cons]
  cases hvalue : e.value with
  | none => simp only [Form.member, hvalue]; rfl
  | some v => simp only [Form.member, hvalue]; rfl

/-- Under a name that no field has nothing is published. -/
theorem find?_published_of_notMem (names : List String)
    (hnames : entries.map Entry.published = names) (h : name ∉ names) :
    Members.find? (published entries) name = none := by
  rw [← hnames] at h
  clear hnames
  induction entries with
  | nil => rfl
  | cons e rest ih =>
      obtain ⟨hne, hrest⟩ := not_or.1 (mt List.mem_cons.2 h)
      rw [published_cons]
      cases e.value with
      | none => exact ih hrest
      | some v =>
          have hother : ¬ (Value.str e.published).sameKey (.str name) = true := by
            rw [Value.sameKey_str_iff]
            exact fun hsame => hne (Value.str.inj hsame).symm
          show Members.find? ((Value.str e.published, v) :: published rest) name = none
          rw [Members.find?_cons, if_neg hother]
          exact ih hrest

theorem find?_published (entries : List Entry) (names : List String)
    (hnames : entries.map Entry.published = names) (hdistinct : names.Nodup) :
    ∀ e ∈ entries, Members.find? (published entries) e.published = e.value := by
  rw [← hnames] at hdistinct
  clear hnames
  induction entries with
  | nil => simp
  | cons e rest ih =>
      obtain ⟨hnew, hrest⟩ := List.nodup_cons.1 hdistinct
      rw [published_cons]
      refine List.forall_mem_cons.2 ⟨?_, fun e' he' => ?_⟩
      · cases e.value with
        | none => exact find?_published_of_notMem _ rfl hnew
        | some v =>
            show Members.find? ((Value.str e.published, v) :: published rest) e.published = some v
            rw [Members.find?_cons, if_pos (Value.sameKey_str_iff.2 rfl)]
      · cases e.value with
        | none => exact ih hrest e' he'
        | some v =>
            have hother : ¬ (Value.str e.published).sameKey (.str e'.published) = true := by
              rw [Value.sameKey_str_iff]
              intro hsame
              rw [Value.str.inj hsame] at hnew
              exact hnew (List.mem_map_of_mem he')
            show Members.find? ((Value.str e.published, v) :: published rest) e'.published = _
            rw [Members.find?_cons, if_neg hother]
            exact ih hrest e' he'

theorem mem_published {m : Value × Value} (h : m ∈ published entries) :
    ∃ e ∈ entries, e.value = some m.2 := by
  obtain ⟨e, he, hm⟩ := List.mem_filterMap.1 h
  refine ⟨e, he, ?_⟩
  cases hvalue : e.value with
  | none =>
      simp only [Form.member, hvalue] at hm
      cases hm
  | some v =>
      simp only [Form.member, hvalue] at hm
      cases hm
      rfl

theorem nodup_map_str {names : List String} (h : names.Nodup) : (names.map Value.str).Nodup :=
  List.Pairwise.map Value.str (fun _ _ hne heq => hne (Value.str.inj heq)) h

/-- The members of a published record have different texts for keys if its names differ. -/
theorem named_published (names : List String) (hnames : entries.map Entry.published = names)
    (hdistinct : names.Nodup) : Members.Named (published entries) := by
  rw [← hnames] at hdistinct
  clear hnames
  have hkeys : ((published entries).map Prod.fst).Sublist
      ((entries.map Entry.published).map Value.str) := by
    induction entries with
    | nil => exact List.Sublist.refl _
    | cons e rest ih =>
        rw [published_cons, List.map_append]
        cases e.value with
        | none => exact (ih (List.nodup_cons.1 hdistinct).2).cons _
        | some v => exact (ih (List.nodup_cons.1 hdistinct).2).cons_cons _
  refine ⟨fun m hm => ?_, (nodup_map_str hdistinct).sublist hkeys⟩
  obtain ⟨s, -, hs⟩ := List.mem_map.1 (hkeys.subset (List.mem_map_of_mem hm))
  rw [← hs]
  rfl

/-- A record whose fields are all set, under one name each, is written in one way. -/
theorem write_eq_published (form : Form) (h : ∀ e ∈ entries, ∃ name v, e = .same name (some v)) :
    form.write entries = .ofMembers (published entries) := by
  unfold Form.write published
  induction entries with
  | nil => rfl
  | cons e rest ih =>
      obtain ⟨⟨name, v, rfl⟩, hrest⟩ := List.forall_mem_cons.1 h
      have hmember : form.member (.same name (some v)) =
          Form.published.member (.same name (some v)) := by
        cases form <;> rfl
      rw [List.filterMap_cons, List.filterMap_cons, hmember, (Value.map.inj (ih hrest)).2]

/-! ## Parts -/

variable {α : Type} (read : Value → Checked α) (write : α → Value)

theorem required_of_find? (others : List String) {v : Value} {a : α}
    (h : Members.find? ms name = some v) (hread : read v = .accepted a) :
    required ms name others read = .accepted a := by
  unfold required spelled
  rw [h]
  exact congrArg (Checked.under _) hread

theorem spelled_eq_none (h : ∀ n ∈ others, Members.find? ms n = none) :
    spelled ms others = none := by
  induction others with
  | nil => rfl
  | cons n rest ih =>
      obtain ⟨hn, hrest⟩ := List.forall_mem_cons.1 h
      rw [spelled, hn]
      exact ih hrest

/-- A field that is left out where it is unset is read back. -/
theorem optional_readBack {x : Option α} (h : Members.find? ms name = x.map write)
    (hothers : ∀ n ∈ others, Members.find? ms n = none)
    (hread : ∀ a, x = some a → nullable read (write a) = .accepted (some a)) :
    optional ms name others none (nullable read) = .accepted x := by
  unfold optional
  rw [spelled, h]
  cases x with
  | none => rw [Option.map_none]; simp only [spelled_eq_none hothers]
  | some a => exact congrArg (Checked.under _) (hread a rfl)

theorem requiredText_readBack (others : List String) {s : String}
    (h : Members.find? ms name = some (.str s)) : required ms name others text = .accepted s :=
  required_of_find? text others h rfl

theorem optionalText_readBack {x : Option String} (h : Members.find? ms name = x.map .str)
    (hothers : ∀ n ∈ others, Members.find? ms n = none) :
    optional ms name others none (nullable text) = .accepted x :=
  optional_readBack text .str h hothers fun _ _ => rfl

theorem optionalTruth_readBack {x : Option Bool} (h : Members.find? ms name = x.map .bool)
    (hothers : ∀ n ∈ others, Members.find? ms n = none) :
    optional ms name others none (nullable truth) = .accepted x :=
  optional_readBack truth .bool h hothers fun _ _ => rfl

theorem optional_of_find?_some (others : List String) (absent : α) {v : Value} {a : α}
    (h : Members.find? ms name = some v) (hread : read v = .accepted a) :
    optional ms name others absent read = .accepted a := by
  rw [optional_of_find? h, hread]
  rfl

/-! ## Lists and mappings -/

theorem elements_readBack {as : List α} (index : Int)
    (h : ∀ a ∈ as, read (write a) = .accepted a) :
    Checked.elements read index (as.map write) = .accepted as := by
  induction as generalizing index with
  | nil => rfl
  | cons a rest ih =>
      obtain ⟨ha, hrest⟩ := List.forall_mem_cons.1 h
      rw [List.map_cons, Checked.elements, ha, ih (index + 1) hrest]
      rfl

theorem texts_readBack (ss : List String) : listOf text (texts ss) = .accepted ss :=
  elements_readBack text .str 0 fun _ _ => rfl

theorem values_readBack (items : List Value) : listOf anything (.list items) = .accepted items := by
  have h := elements_readBack anything id 0 fun v (_ : v ∈ items) => rfl
  rw [List.map_id] at h
  exact h

/-- Records that can be written one by one can be written as a list. -/
theorem mapM_readBack {write : α → Option Value} {as : List α}
    (h : ∀ a ∈ as, ∃ v, write a = some v ∧ read v = .accepted a) :
    ∃ vs, as.mapM write = some vs ∧ ∀ index, Checked.elements read index vs = .accepted as := by
  induction as with
  | nil => exact ⟨[], rfl, fun _ => rfl⟩
  | cons a rest ih =>
      obtain ⟨⟨v, hv, hread⟩, hrest⟩ := List.forall_mem_cons.1 h
      obtain ⟨vs, hvs, helements⟩ := ih hrest
      refine ⟨v :: vs, ?_, fun index => ?_⟩
      · rw [List.mapM_cons, hv, hvs]
        rfl
      · rw [Checked.elements, hread, helements]
        rfl

theorem named_textMembers {ms : List (String × String)} (h : (ms.map Prod.fst).Nodup) :
    Members.Named (ms.map fun m => (.str m.1, .str m.2)) := by
  refine ⟨fun m hm => ?_, ?_⟩
  · obtain ⟨_, -, rfl⟩ := List.mem_map.1 hm
    rfl
  · rw [List.map_map]
    have hkeys := nodup_map_str h
    rwa [List.map_map] at hkeys

theorem members_readBack (ms : List (String × Value)) :
    mappingOf anything (.ofMembers (members ms)) = .accepted ms := by
  show mappingOf.members anything (members ms) = _
  induction ms with
  | nil => rfl
  | cons m rest ih =>
      show mappingOf.members anything ((.str m.1, m.2) :: members rest) = _
      rw [mappingOf.members, ih]
      rfl

/-- Members that have texts for keys are read as they are. -/
theorem members_of_mappingOf {c : Option Nat} {ms : Members} {xs : List (String × Value)}
    (hkeys : ∀ m ∈ ms, m.1.isText = true) (h : mappingOf anything (.map c ms) = .accepted xs) :
    members xs = ms := by
  replace h : mappingOf.members anything ms = .accepted xs := h
  induction ms generalizing xs with
  | nil =>
      cases h
      rfl
  | cons m rest ih =>
      obtain ⟨htext, hrest⟩ := List.forall_mem_cons.1 hkeys
      obtain ⟨k, v⟩ := m
      obtain ⟨s, rfl⟩ := Members.eq_str_of_isText htext
      rw [mappingOf.members] at h
      obtain ⟨_, others, h, hothers, heq⟩ := Checked.both_eq_accepted h
      obtain ⟨_, hentry, rfl⟩ := Checked.map_eq_accepted h
      cases hentry
      subst heq
      exact congrArg _ (ih hrest hothers)

theorem textMembers_readBack {ms : List (String × String)} (h : (ms.map Prod.fst).Nodup) :
    mappingOf text (textMembers ms) = .accepted ms := by
  rw [textMembers, (named_textMembers h).ofList]
  show mappingOf.members text (ms.map fun m => (.str m.1, .str m.2)) = _
  clear h
  induction ms with
  | nil => rfl
  | cons m rest ih =>
      rw [List.map_cons, mappingOf.members, ih]
      rfl

end ApiOutline.Record
