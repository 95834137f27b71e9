import ApiOutline.Files.Tree

/-!
# Names that a path may have

Whether something is at a path can be asked unless one of its names is too long,
or the path as a whole (`Fits`).

An ending without slashes that is more than a dot stands at the end of the last
name, so the kind of a file can be told from the text of its path
(`Path.suffix_of_ends`).
-/

namespace ApiOutline

/-- What stands behind a text and has no separator goes to its last part. -/
theorem Text.exists_splitOn_append {sep : Char} {part : List Char} (h : sep ∉ part)
    (cs : List Char) : ∃ init last, splitOn sep (cs ++ part) = init ++ [last ++ part] := by
  induction cs with
  | nil => exact ⟨[], [], splitOn_of_not_mem h⟩
  | cons c cs ih =>
      obtain ⟨init, last, hparts⟩ := ih
      rw [List.cons_append, splitOn, hparts]
      split
      · exact ⟨[] :: init, last, rfl⟩
      · cases init with
        | nil => exact ⟨[], c :: last, rfl⟩
        | cons first init => exact ⟨(c :: first) :: init, last, rfl⟩

/-- A name is the path of itself. -/
theorem Path.ofText_name {cs : List Char} (hslash : '/' ∉ cs) (hpart : isPart cs = true) :
    ofText (String.ofList cs) = ⟨"", [String.ofList cs]⟩ := by
  have hroot : rootOf cs = "" := by
    cases cs with
    | nil => rfl
    | cons c cs =>
        have hc : c ≠ '/' := fun heq => hslash (by rw [heq]; exact List.mem_cons_self)
        simp [rootOf, hc]
  rw [ofText, String.toList_ofList, hroot, Text.splitOn_of_not_mem hslash]
  simp [hpart]

/-- The name of a path ends as its text does. -/
theorem Path.exists_name_of_ends {text : String} {ending : List Char} (hslash : '/' ∉ ending)
    (hlong : 1 < ending.length) (h : ending <:+ text.toList) :
    ∃ stem, (ofText text).name.toList = stem ++ ending := by
  obtain ⟨before, hbefore⟩ := h
  obtain ⟨init, last, hparts⟩ := Text.exists_splitOn_append hslash before
  have hpart : isPart (last ++ ending) = true := by
    have hlength : 1 < (last ++ ending).length := by
      rw [List.length_append]
      omega
    rw [isPart, Bool.and_eq_true, Bool.not_eq_true', bne_iff_ne]
    refine ⟨?_, fun hdot => ?_⟩
    · rw [List.isEmpty_eq_false_iff, ← List.length_pos_iff]
      omega
    · rw [hdot] at hlength
      exact absurd hlength (by decide)
  refine ⟨last, ?_⟩
  rw [ofText, ← hbefore, hparts, List.filter_append, List.filter_cons_of_pos hpart, name,
    List.map_append]
  show (((init.filter isPart).map String.ofList ++ [String.ofList (last ++ ending)]).getLast?.getD
    "").toList = _
  rw [List.getLast?_concat, Option.getD_some, String.toList_ofList]

/-- The suffix of a name is what comes last in it with a dot in front, unless that is all of it. -/
theorem Path.suffix_of_name {p : Path} {stem kind : List Char}
    (h : p.name.toList = stem ++ '.' :: kind) (hdot : '.' ∉ kind) (hkind : kind ≠ []) :
    p.suffix = if stem.isEmpty then "" else String.ofList ('.' :: kind) := by
  have hplain : ∀ c ∈ kind.reverse, (c != '.') = true := by
    intro c hc
    rw [bne_iff_ne]
    rintro rfl
    exact hdot (List.mem_reverse.1 hc)
  have hafter : (stem ++ '.' :: kind).reverse.takeWhile (· != '.') = kind.reverse := by
    rw [List.reverse_append, List.reverse_cons, List.append_assoc,
      List.takeWhile_append_of_pos hplain]
    simp
  have hbefore : (stem ++ '.' :: kind).length - kind.reverse.length - 1 = stem.length := by
    rw [List.length_append, List.length_cons, List.length_reverse]
    omega
  have hless : kind.reverse.length < (stem ++ '.' :: kind).length := by
    rw [List.length_append, List.length_cons, List.length_reverse]
    omega
  have hsome : kind.isEmpty = false := List.isEmpty_eq_false_iff.2 hkind
  unfold suffix
  simp only [h, hafter, hbefore, hless, hsome, List.drop_left, List.isEmpty_reverse, decide_true,
    Bool.true_and, Bool.not_false, Bool.and_true]
  cases stem with
  | nil => rfl
  | cons c stem => rfl

theorem Path.suffix_of_ends {text : String} {kind : List Char} (hslash : '/' ∉ kind)
    (hdot : '.' ∉ kind) (hkind : kind ≠ []) (h : '.' :: kind <:+ text.toList) :
    (ofText text).suffix = "" ∨ (ofText text).suffix = String.ofList ('.' :: kind) := by
  have hpos := List.length_pos_iff.2 hkind
  have hnone : '/' ∉ '.' :: kind := by simp [hslash]
  obtain ⟨stem, hname⟩ := exists_name_of_ends hnone (by rw [List.length_cons]; omega) h
  rw [suffix_of_name hname hdot hkind]
  split
  · exact .inl rfl
  · exact .inr rfl

theorem Path.parts_ne_nil {p : Path} (h : p.name ≠ "") : p.parts ≠ [] := by
  intro hnil
  exact h (by rw [name, hnil]; rfl)

theorem Path.child_parent {p : Path} (h : p.parts ≠ []) : p.parent.child p.name = p := by
  obtain ⟨root, parts⟩ := p
  have hlast : parts.dropLast ++ [parts.getLast h] = parts := List.dropLast_concat_getLast h
  rw [child, parent, name, List.getLast?_eq_some_getLast h]
  exact congrArg (Path.mk root) hlast

theorem Files.nameSize_cons (c : Char) (cs : List Char) :
    nameSize (String.ofList (c :: cs)) = c.utf8Size + nameSize (String.ofList cs) := by
  rw [nameSize, String.ofList_cons, String.utf8ByteSize_append, String.utf8ByteSize_singleton,
    nameSize]

theorem Files.length_le_nameSize (cs : List Char) : cs.length ≤ nameSize (String.ofList cs) := by
  induction cs with
  | nil => exact Nat.zero_le _
  | cons c cs ih =>
      have hpos := c.utf8Size_pos
      rw [nameSize_cons, List.length_cons]
      omega

namespace Files

/-- Whether a path and its names are short enough to be given to the file system. -/
structure Fits (p : Path) : Prop where
  names : ∀ part ∈ p.parts, nameSize part ≤ nameLimit
  whole : space p ≤ spaceLimit

theorem space_concat (root : String) (parts : List String) (part : String) :
    space ⟨root, parts ++ [part]⟩ = space ⟨root, parts⟩ + (nameSize part + 1) := by
  simp only [space, List.foldl_append, List.foldl_cons, List.foldl_nil]

theorem space_le_of_begins {before parts : List String} (h : before <+: parts) (root : String) :
    space ⟨root, before⟩ ≤ space ⟨root, parts⟩ := by
  obtain ⟨after, rfl⟩ := h
  induction after generalizing before with
  | nil => exact Nat.le_of_eq (by rw [List.append_nil])
  | cons part after ih =>
      rw [List.append_cons]
      refine Nat.le_trans ?_ ih
      rw [space_concat]
      exact Nat.le_add_right _ _

theorem Fits.of_prefix {root : String} {before parts : List String} (h : Fits ⟨root, parts⟩)
    (hbefore : before <+: parts) : Fits ⟨root, before⟩ where
  names part hpart := h.names part (hbefore.subset hpart)
  whole := Nat.le_trans (space_le_of_begins hbefore root) h.whole

theorem Fits.child {p : Path} {name : String} (h : Fits p) (hname : nameSize name ≤ nameLimit)
    (hwhole : space (p.child name) ≤ spaceLimit) : Fits (p.child name) := by
  refine ⟨fun part hpart => ?_, hwhole⟩
  rcases List.mem_append.1 hpart with habove | hlast
  · exact h.names part habove
  · rw [List.mem_singleton.1 hlast]
    exact hname

theorem follow_ne_refused {fs : Files} {parts : List String} (place : Place)
    (h : ∀ part ∈ parts, nameSize part ≤ nameLimit) :
    fs.follow place parts ≠ .error .refused := by
  induction parts generalizing place with
  | nil => simp [follow]
  | cons part rest ih =>
      obtain ⟨hpart, hrest⟩ := List.forall_mem_cons.1 h
      rw [follow, step, if_neg (Nat.not_lt.2 hpart)]
      split
      · next hstep => split at hstep <;> cases hstep
      · split
        · simp
        · split
          · simp
          · simp
          · exact ih _ hrest

/-- It can be asked what is at a path that fits. -/
theorem fileAt?_of_fits (fs : Files) (directory : Place) {p : Path} (h : Fits p) :
    ∃ content, fs.fileAt? directory p = .ok content := by
  have hlocate : fs.locate directory p ≠ .error .refused := by
    unfold locate
    split
    · rw [if_neg (Nat.not_lt.2 h.whole)]
      exact follow_ne_refused _ h.names
    · simp
  unfold fileAt? entryAt
  split
  · exact ⟨_, rfl⟩
  · next heq =>
      split at heq
      · next hrefused =>
          rw [Except.error.inj heq] at hrefused
          exact absurd hrefused hlocate
      · cases heq
  · exact ⟨_, rfl⟩

/-- What cannot be asked for has a name that is too long, or is too long itself. -/
theorem not_fits_of_fileAt?_error {fs : Files} {directory : Place} {p : Path} {e : FileError}
    (h : fs.fileAt? directory p = .error e) : e = .refused ∧ ¬Fits p := by
  constructor
  · unfold fileAt? at h
    split at h
    · cases h
    · cases h
      rfl
    · cases h
  · intro hfits
    obtain ⟨content, hcontent⟩ := fs.fileAt?_of_fits directory hfits
    rw [h] at hcontent
    cases hcontent

end Files

end ApiOutline
