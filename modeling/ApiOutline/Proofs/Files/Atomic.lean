import ApiOutline.Proofs.Files.Directories
import ApiOutline.Proofs.Files.Draft

/-!
# Files written as a whole

A draft lies at a free place, under a name that is longer than that of its file.
So nothing is left of it when it is moved or taken away, and the outcome of
`replace` is one of two: the files as they were, or the files with one more file
put (`replace_cases`). Which of the two it is does not depend on the content.
`writeAtomically_cases` says the same of a path whose directories are made
first. What keeps a file from being written can be told from the files as they
are before any directory is made (`error_writeAtomically_iff`).
-/

namespace ApiOutline.Files

variable {fs fs' : Files} {directory place : Place} {p : Path} {name : String}

/-! ## Files in a directory -/

theorem length_lt_length_draftName (name : String) (n : Nat) :
    name.length < (draftName name n).length := by
  simp only [draftName, String.length_append]
  have hdot : ".".length = 1 := rfl
  omega

/-- Whether the file that a path names can be put into a directory as a whole. Its name, and its
path from the root, have to leave room for those of a draft. -/
structure Replaceable (fs : Files) (directory : Place) (p : Path) : Prop where
  notDirectory : fs.get? (directory ++ [p.name]) ≠ some .directory
  notEmpty : p.name ≠ ""
  notUp : p.name ≠ ".."
  spelled : '\x00' ∉ p.name.toList
  fits : nameSize p.name + 14 ≤ nameLimit
  whole : space p ≤ spaceLimit
  draft : space (draftPath p (directory ++ [p.name])) + 14 ≤ spaceLimit

/-- The name of a draft is longer than that of its file, and so is its path. -/
theorem takesDraft_iff (p : Path) (directory : Place) (n : Nat) :
    takesDraft p (directory ++ [draftName p.name n]) = true ↔
      nameSize p.name + 6 + (draftNumber n).length ≤ nameLimit ∧
        space (draftPath p (directory ++ [p.name])) + 6 + (draftNumber n).length ≤ spaceLimit := by
  have hspace (name : String) : space (draftPath p (directory ++ [name])) =
      space (draftPath p directory) + (nameSize name + 1) :=
    space_concat (draftPath p directory).root directory name
  rw [takesDraft, Bool.and_eq_true, decide_eq_true_iff, decide_eq_true_iff,
    List.getLast?_concat, Option.getD_some, hspace, hspace, nameSize_draftName]
  omega

/-- A draft takes the place of a file, unless the file cannot have that name or there is a
directory. -/
theorem rename_draft (n : Nat) (content : List UInt8)
    (hfree : fs.isFree (directory ++ [draftName name n]) = true) :
    (fs.put (directory ++ [draftName name n]) (.file content)).rename
        (directory ++ [draftName name n]) directory name =
      if name.isEmpty || name = ".." then .error .refused
      else if fs.get? (directory ++ [name]) = some .directory then .error .isDirectory
      else .ok (fs.put (directory ++ [name]) (.file content)) := by
  have hne : directory ++ [name] ≠ directory ++ [draftName name n] := by
    intro heq
    have hlength := length_lt_length_draftName name n
    rw [← List.singleton_inj.1 (List.append_cancel_left heq)] at hlength
    exact Nat.lt_irrefl _ hlength
  have hdraft : directory ++ [draftName name n] ≠ [] := by simp
  unfold rename
  rw [get?_put_self fs hdraft, get?_put_of_ne fs hne, erase_put_of_isFree hfree]
  split
  · rfl
  · split
    · next hnone => cases hnone
    · next hdirectory => rw [if_pos hdirectory]
    · next hsome hother =>
        cases hsome
        rw [if_neg hother]

section

variable {n : Nat} {content : List UInt8} {e : FileError}
  (hspelled : ¬p.name.toList.contains '\x00' = true)
  (hplace : fs.draftPlace? directory p.name = some (directory ++ [draftName p.name n]))
  (htakes : takesDraft p (directory ++ [draftName p.name n]) = true)

include hspelled hplace htakes

theorem replace_of_moved (h : (fs.put (directory ++ [draftName p.name n]) (.file content)).moveDraft
      (directory ++ [draftName p.name n]) directory p = .ok fs') :
    fs.replace directory p content = ⟨fs', none⟩ := by
  rw [replace, if_neg hspelled, hplace]
  simp [htakes, h]

/-- A draft that cannot be moved goes away. -/
theorem replace_of_stuck (hfree : fs.isFree (directory ++ [draftName p.name n]) = true)
    (h : (fs.put (directory ++ [draftName p.name n]) (.file content)).moveDraft
      (directory ++ [draftName p.name n]) directory p = .error e) :
    fs.replace directory p content = ⟨fs, some e⟩ := by
  rw [replace, if_neg hspelled, hplace]
  simp [htakes, h, erase_put_of_isFree hfree]

end

/-- Writing a file as a whole changes nothing or puts the file, whatever its content is. Unless
there are very many entries, it puts the file if it can be put. -/
theorem replace_cases (fs : Files) (directory : Place) (p : Path) :
    ((fs.entries.length < 10 ^ 8 → ¬fs.Replaceable directory p) ∧
      ∃ e, ∀ content, fs.replace directory p content = ⟨fs, some e⟩) ∨
    (fs.Replaceable directory p ∧
      ∀ content, fs.replace directory p content =
        ⟨fs.put (directory ++ [p.name]) (.file content), none⟩) := by
  by_cases hspelled : p.name.toList.contains '\x00' = true
  · refine .inl ⟨fun _ hcan => hcan.spelled (by simpa using hspelled), .badName, fun content => ?_⟩
    rw [replace, if_pos hspelled]
  obtain ⟨n, hn, hfree, hplace⟩ := fs.exists_draftPlace directory p.name
  by_cases htakes : takesDraft p (directory ++ [draftName p.name n]) = true
  · have hmove (content : List UInt8) :
        (fs.put (directory ++ [draftName p.name n]) (.file content)).moveDraft
            (directory ++ [draftName p.name n]) directory p =
          if spaceLimit < space p then .error .refused
          else if p.name.isEmpty || p.name = ".." then .error .refused
          else if fs.get? (directory ++ [p.name]) = some .directory then .error .isDirectory
          else .ok (fs.put (directory ++ [p.name]) (.file content)) := by
      rw [moveDraft, rename_draft n content hfree]
    by_cases hwhole : spaceLimit < space p
    · refine .inl ⟨fun _ hcan => Nat.not_lt.2 hcan.whole hwhole, .refused, fun content =>
        replace_of_stuck hspelled hplace htakes hfree ?_⟩
      rw [hmove, if_pos hwhole]
    by_cases hname : (p.name.isEmpty || p.name = "..") = true
    · refine .inl ⟨fun _ hcan => ?_, .refused, fun content =>
        replace_of_stuck hspelled hplace htakes hfree ?_⟩
      · have hempty := hcan.notEmpty
        have hup := hcan.notUp
        simp_all
      · rw [hmove, if_neg hwhole, if_pos hname]
    by_cases hdirectory : fs.get? (directory ++ [p.name]) = some .directory
    · refine .inl ⟨fun _ hcan => hcan.notDirectory hdirectory, .isDirectory, fun content =>
        replace_of_stuck hspelled hplace htakes hfree ?_⟩
      rw [hmove, if_neg hwhole, if_neg hname, if_pos hdirectory]
    rw [Bool.or_eq_true, decide_eq_true_iff, String.isEmpty_iff, not_or] at hname
    have hlength := le_length_draftNumber n
    obtain ⟨hfits, hdraft⟩ := (takesDraft_iff p directory n).1 htakes
    refine .inr ⟨⟨hdirectory, hname.1, hname.2, by simpa using hspelled, by omega,
      Nat.le_of_not_lt hwhole, by omega⟩, fun content => replace_of_moved hspelled hplace htakes ?_⟩
    rw [hmove, if_neg hwhole, if_neg (by simpa using hname), if_neg hdirectory]
  · refine .inl ⟨fun hfew hcan => htakes ((takesDraft_iff p directory n).2 ?_), .refused,
      fun content => ?_⟩
    · have hlength := length_draftNumber (Nat.lt_of_le_of_lt hn hfew)
      have hfits := hcan.fits
      have hdraft := hcan.draft
      omega
    · rw [replace, if_neg hspelled, hplace]
      simp [htakes]

theorem writeAtomically_of_leadsTo (hmade : (fs.ensureDirectories directory p.parent).error = none)
    (hplace : (fs.ensureDirectories directory p.parent).files.LeadsTo directory p.parent place)
    (content : List UInt8) : fs.writeAtomically directory p content =
      (fs.ensureDirectories directory p.parent).files.replace place p content := by
  simp only [writeAtomically, hmade, if_true, hplace.1]

/-- Writing a file as a whole makes the directories above it. Then it stops, or it puts the file
among them, whatever its content is. -/
theorem writeAtomically_cases (fs : Files) (directory : Place) (p : Path) :
    let made := (fs.ensureDirectories directory p.parent).files
    (∃ e, ∀ content, fs.writeAtomically directory p content = ⟨made, some e⟩) ∨
    (∃ place, made.LeadsTo directory p.parent place ∧ made.Replaceable place p ∧
      ∀ content, fs.writeAtomically directory p content =
        ⟨made.put (place ++ [p.name]) (.file content), none⟩) := by
  intro made
  cases herror : (fs.ensureDirectories directory p.parent).error with
  | some e =>
      refine .inl ⟨e, fun content => ?_⟩
      simp only [writeAtomically, herror, reduceCtorEq, if_false]
      rw [← herror]
  | none =>
      obtain ⟨place, hplace⟩ := ensureDirectories_leads herror
      have hwrite := writeAtomically_of_leadsTo herror hplace
      rcases replace_cases made place p with ⟨-, e, he⟩ | ⟨hcan, hput⟩
      · exact .inl ⟨e, fun content => by rw [hwrite, he]⟩
      · exact .inr ⟨place, hplace, hcan, fun content => by rw [hwrite, hput]⟩

/-! ## What is found afterwards -/

theorem Replaceable.locate (h : fs.Replaceable place p)
    (hparent : fs.LeadsTo directory p.parent place) :
    fs.locate directory p = .ok (place ++ [p.name]) := by
  have hfits := h.fits
  have hpath := Path.child_parent (Path.parts_ne_nil h.notEmpty)
  have hlocate := hparent.locate_child p.name h.spelled (by omega) (hpath.symm ▸ h.whole)
  rwa [hpath, advance_of_ne h.notUp] at hlocate

/-- A file that has been written as a whole holds what was written. -/
theorem fileAt?_writeAtomically {content : List UInt8}
    (h : (fs.writeAtomically directory p content).error = none) :
    (fs.writeAtomically directory p content).files.fileAt? directory p = .ok (some content) := by
  rcases writeAtomically_cases fs directory p with ⟨e, hfail⟩ | ⟨place, hparent, hcan, hput⟩
  · rw [hfail] at h
    cases h
  · rw [hput]
    have hplace : place ++ [p.name] ≠ [] := by simp
    have hlocate := (keepsDirectories_put hcan.notDirectory (.file content)).locate
      (hcan.locate hparent)
    simp only [fileAt?, entryAt, hlocate, get?_put_self _ hplace]

theorem get?_placeOf_writeAtomically {content : List UInt8}
    (h : (fs.writeAtomically directory p content).error = none) :
    (fs.writeAtomically directory p content).files.get? (placeOf directory p) =
      some (.file content) := by
  rcases writeAtomically_cases fs directory p with ⟨e, hfail⟩ | ⟨place, hparent, hcan, hput⟩
  · rw [hfail] at h
    cases h
  · rw [hput, ← eq_placeOf_of_locate (hcan.locate hparent)]
    exact get?_put_self _ (by simp) _

/-- The directory of a file that has been written as a whole is there. -/
theorem leadsTo_parent_writeAtomically {content : List UInt8}
    (h : (fs.writeAtomically directory p content).error = none) :
    ∃ place, (fs.writeAtomically directory p content).files.LeadsTo directory p.parent place := by
  rcases writeAtomically_cases fs directory p with ⟨e, hfail⟩ | ⟨place, hparent, hcan, hput⟩
  · rw [hfail] at h
    cases h
  · rw [hput]
    exact ⟨place, hparent.mono (keepsDirectories_put hcan.notDirectory _)⟩

/-- Writing a file as a whole leaves every place but that of the file as it was, but for new
directories above the file. -/
theorem keptAlong_writeAtomically (fs : Files) (directory : Place) (p : Path)
    (content : List UInt8) {q : Place} (hq : q ≠ placeOf directory p) :
    KeptAlong directory p.parent fs (fs.writeAtomically directory p content).files q := by
  have hgrows := ensureDirectories_growsAlong fs directory p.parent q
  rcases writeAtomically_cases fs directory p with ⟨e, hfail⟩ | ⟨place, hparent, hcan, hput⟩
  · rw [hfail]
    exact hgrows
  · rw [hput]
    rw [← eq_placeOf_of_locate (hcan.locate hparent)] at hq
    rw [KeptAlong, get?_put_of_ne _ hq]
    exact hgrows

/-- A file that could not be written leaves new directories behind at most, above its place. -/
theorem writeAtomically_growsAlong {content : List UInt8}
    (h : (fs.writeAtomically directory p content).error ≠ none) :
    GrowsAlong directory p.parent fs (fs.writeAtomically directory p content).files := by
  rcases writeAtomically_cases fs directory p with ⟨e, hfail⟩ | ⟨place, -, -, hput⟩
  · rw [hfail]
    exact ensureDirectories_growsAlong fs directory p.parent
  · rw [hput] at h
    exact absurd rfl h

theorem writeAtomically_grows {content : List UInt8}
    (h : (fs.writeAtomically directory p content).error ≠ none) :
    Grows fs (fs.writeAtomically directory p content).files :=
  (writeAtomically_growsAlong h).grows

/-- Whether a file can be written as a whole does not depend on what is written. -/
theorem error_writeAtomically (fs : Files) (directory : Place) (p : Path)
    (content content' : List UInt8) :
    (fs.writeAtomically directory p content).error =
      (fs.writeAtomically directory p content').error := by
  rcases writeAtomically_cases fs directory p with ⟨e, hfail⟩ | ⟨place, -, -, hput⟩
  · rw [hfail, hfail]
  · rw [hput, hput]

/-! ## When a file can be written -/

/-- Whether a file can be written as a whole at a path. The path may come back to the file itself
by two dots; making its directories then takes the place of the file. -/
structure IsWritable (fs : Files) (directory : Place) (p : Path) : Prop where
  above : fs.IsOpen directory p.parent
  notEmpty : p.name ≠ ""
  notUp : p.name ≠ ".."
  spelled : '\x00' ∉ p.name.toList
  fits : nameSize p.name + 14 ≤ nameLimit
  whole : space p ≤ spaceLimit
  draft : space (draftPath p (placeOf directory p)) + 14 ≤ spaceLimit
  notDirectory : fs.get? (placeOf directory p) ≠ some .directory
  notAbove : ¬LiesOn directory p.parent (placeOf directory p)

/-- Unless there are very many entries, a file is written exactly where it can be. -/
theorem error_writeAtomically_iff {content : List UInt8}
    (hdirectory : fs.get? directory = some .directory)
    (hfew : fs.entries.length + p.parts.length < 10 ^ 8) :
    (fs.writeAtomically directory p content).error = none ↔ fs.IsWritable directory p := by
  have hgrows := ensureDirectories_growsAlong fs directory p.parent
  constructor
  · intro h
    rcases writeAtomically_cases fs directory p with ⟨e, hfail⟩ | ⟨place, hparent, hcan, -⟩
    · rw [hfail] at h
      cases h
    obtain ⟨hopen, hmade⟩ := hparent.directories (hgrows.grows.get? hdirectory)
    have hnot := hcan.notDirectory
    have hdraft := hcan.draft
    rw [eq_placeOf_of_locate (hcan.locate hparent)] at hnot hdraft
    exact ⟨hgrows.grows.isOpen hopen, hcan.notEmpty, hcan.notUp, hcan.spelled, hcan.fits,
      hcan.whole, hdraft, fun hthere => hnot (hgrows.grows.get? hthere),
      fun hon => hnot (hmade _ hon)⟩
  · intro h
    have hmade := (error_ensureDirectories_iff hdirectory).2 h.above
    obtain ⟨place, hparent⟩ := ensureDirectories_leads hmade
    have hparts := Path.parts_ne_nil h.notEmpty
    have hplace : place ++ [p.name] = placeOf directory p := by
      rw [eq_placeOf_of_locate hparent.1, ← advance_of_ne h.notUp, ← placeOf_child,
        Path.child_parent hparts]
    have hnot : (fs.ensureDirectories directory p.parent).files.get? (place ++ [p.name]) ≠
        some .directory := by
      rw [hplace]
      rcases hgrows (placeOf directory p) with heq | ⟨-, -, hon⟩
      · rw [heq]
        exact h.notDirectory
      · exact absurd hon h.notAbove
    have hcan : Replaceable _ place p :=
      ⟨hnot, h.notEmpty, h.notUp, h.spelled, h.fits, h.whole, hplace ▸ h.draft⟩
    have hlength : (fs.ensureDirectories directory p.parent).files.entries.length < 10 ^ 8 := by
      have hmost := length_entries_ensureParts_le fs directory p.parent.root p.parent.parts.reverse
      have hpositive := List.length_pos_iff.2 hparts
      rw [List.length_reverse, Path.parent, List.length_dropLast] at hmost
      exact Nat.lt_of_le_of_lt hmost (by omega)
    rw [writeAtomically_of_leadsTo hmade hparent]
    rcases replace_cases _ place p with ⟨hnever, -⟩ | ⟨-, hput⟩
    · exact absurd hcan (hnever hlength)
    · rw [hput]

example : (writeAtomically ⟨[]⟩ [] ⟨"", ["a", "..", "a"]⟩ []).error = some .isDirectory := by
  decide +kernel

end ApiOutline.Files
