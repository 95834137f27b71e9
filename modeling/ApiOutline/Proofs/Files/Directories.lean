import ApiOutline.Proofs.Files.Growth
import ApiOutline.Proofs.Files.Names

/-!
# The directories above a path

Only directories can be passed through, so the files decide whether a path leads
anywhere but not where (`placeOf`). The places that a path passes are those of
its beginnings (`LiesOn`).

Making the directories of a path begins with the longest and turns to what is
above only where that is missing. Whatever becomes of it, the files are what
they were but for new directories on the path (`ensureDirectories_growsAlong`).
It succeeds exactly if no file stands on the path, every name is one that a
directory can have, and the path is not too long (`error_ensureDirectories_iff`).
-/

namespace ApiOutline.Files

variable {fs fs' fs'' : Files} {directory place q : Place} {p : Path} {parts : List String}

/-! ## Where paths lead -/

/-- Where one part leads from a place, if it leads anywhere. -/
def advance (place : Place) (part : String) : Place :=
  if part = ".." then place.dropLast else place ++ [part]

/-- Where parts lead from a place, if they lead anywhere. -/
def reach (place : Place) (parts : List String) : Place := parts.foldl advance place

/-- Where the parts of a path begin to lead. -/
def start (directory : Place) (p : Path) : Place := if p.isAbsolute then [] else directory

/-- Where a path leads from a directory, if it leads anywhere. -/
def placeOf (directory : Place) (p : Path) : Place := reach (start directory p) p.parts

/-- Whether a path or one above it leads to a place. -/
def LiesOn (directory : Place) (p : Path) (q : Place) : Prop :=
  ∃ parts, parts <+: p.parts ∧ q = reach (start directory p) parts

theorem advance_of_ne {part : String} (h : part ≠ "..") (place : Place) :
    advance place part = place ++ [part] := if_neg h

theorem placeOf_child (directory : Place) (p : Path) (part : String) :
    placeOf directory (p.child part) = advance (placeOf directory p) part :=
  List.foldl_append

theorem liesOn_placeOf (directory : Place) (p : Path) : LiesOn directory p (placeOf directory p) :=
  ⟨p.parts, List.prefix_rfl, rfl⟩

theorem LiesOn.of_prefix {root : String} {before : List String}
    (h : LiesOn directory ⟨root, before⟩ q) (hbefore : before <+: parts) :
    LiesOn directory ⟨root, parts⟩ q := by
  obtain ⟨beginning, hbeginning, rfl⟩ := h
  exact ⟨beginning, hbeginning.trans hbefore, rfl⟩

theorem step_eq (place : Place) (part : String) : step place part =
    if nameLimit < nameSize part then .error .refused else .ok (advance place part) := by
  unfold step advance
  by_cases hup : part = ".."
  · subst hup
    have hfits : ¬nameLimit < nameSize ".." := by decide
    rw [if_pos rfl, if_neg hfits, if_pos rfl]
  · rw [if_neg hup, if_neg hup]

theorem eq_reach_of_follow (h : fs.follow place parts = .ok q) : q = reach place parts := by
  induction parts generalizing place with
  | nil =>
      cases h
      rfl
  | cons part rest ih =>
      unfold follow at h
      rw [step_eq] at h
      by_cases hsize : nameLimit < nameSize part
      · rw [if_pos hsize] at h
        cases h
      · rw [if_neg hsize] at h
        simp only [] at h
        split at h
        · next hrest =>
            cases h
            rw [List.isEmpty_iff.1 hrest]
            rfl
        · split at h
          · cases h
          · cases h
          · exact ih h

theorem locate_eq_ok : fs.locate directory p = .ok q ↔
    isSpelled p = true ∧ space p ≤ spaceLimit ∧ fs.follow (start directory p) p.parts = .ok q := by
  unfold locate
  by_cases hspelled : isSpelled p = true
  · by_cases hwhole : space p ≤ spaceLimit
    · rw [if_pos hspelled, if_neg (Nat.not_lt.2 hwhole)]
      exact ⟨fun h => ⟨hspelled, hwhole, h⟩, fun h => h.2.2⟩
    · rw [if_pos hspelled, if_pos (Nat.lt_of_not_le hwhole)]
      simp [hwhole]
  · rw [if_neg hspelled]
    simp [hspelled]

theorem eq_placeOf_of_locate (h : fs.locate directory p = .ok q) : q = placeOf directory p := by
  obtain ⟨-, -, h⟩ := locate_eq_ok.1 h
  exact eq_reach_of_follow h

/-- From a directory a name leads on. -/
theorem LeadsTo.locate_child (h : fs.LeadsTo directory p place) (name : String)
    (hspelled : '\x00' ∉ name.toList) (hfits : nameSize name ≤ nameLimit)
    (hwhole : space (p.child name) ≤ spaceLimit) :
    fs.locate directory (p.child name) = .ok (advance place name) := by
  obtain ⟨hlocate, hplace⟩ := h
  obtain ⟨hparent, -, hfollow⟩ := locate_eq_ok.1 hlocate
  have hchild : isSpelled (p.child name) = true := by
    rw [isSpelled] at hparent ⊢
    rw [Path.child, List.all_append, hparent]
    simpa using hspelled
  refine locate_eq_ok.2 ⟨hchild, hwhole, (follow_concat hfollow hplace name).trans ?_⟩
  rw [step_eq, if_neg (Nat.not_lt.2 hfits)]

/-! ## Files that only gain directories on a path -/

/-- Whether a place holds what it held, or is a new directory on a path. -/
def KeptAlong (directory : Place) (p : Path) (fs fs' : Files) (q : Place) : Prop :=
  fs'.get? q = fs.get? q ∨
    (fs.get? q = none ∧ fs'.get? q = some .directory ∧ LiesOn directory p q)

/-- Whether files differ from what they were in new directories on a path only. -/
def GrowsAlong (directory : Place) (p : Path) (fs fs' : Files) : Prop :=
  ∀ q, KeptAlong directory p fs fs' q

theorem GrowsAlong.grows (h : GrowsAlong directory p fs fs') : Grows fs fs' := by
  intro q
  rcases h q with heq | ⟨hnone, hnew, -⟩
  · exact .inl heq
  · exact .inr ⟨hnone, hnew⟩

theorem GrowsAlong.refl (directory : Place) (p : Path) (fs : Files) :
    GrowsAlong directory p fs fs := fun _ => .inl rfl

theorem GrowsAlong.trans (h : GrowsAlong directory p fs fs')
    (h' : GrowsAlong directory p fs' fs'') : GrowsAlong directory p fs fs'' := by
  intro q
  rcases h' q with heq | ⟨hnone, hnew, hon⟩
  · rcases h q with heq' | ⟨hnone, hnew, hon⟩
    · exact .inl (heq.trans heq')
    · exact .inr ⟨hnone, heq.trans hnew, hon⟩
  · rcases h q with heq' | ⟨-, hdirectory, -⟩
    · exact .inr ⟨heq'.symm.trans hnone, hnew, hon⟩
    · rw [hnone] at hdirectory
      cases hdirectory

theorem GrowsAlong.of_prefix {root : String} {before : List String}
    (h : GrowsAlong directory ⟨root, before⟩ fs fs') (hbefore : before <+: parts) :
    GrowsAlong directory ⟨root, parts⟩ fs fs' := by
  intro q
  rcases h q with heq | ⟨hnone, hnew, hon⟩
  · exact .inl heq
  · exact .inr ⟨hnone, hnew, hon.of_prefix hbefore⟩

/-! ## Making directories -/

theorem makeDirectory_ok (h : fs.makeDirectory directory p = .ok fs') :
    GrowsAlong directory p fs fs' ∧ ∃ place, fs'.LeadsTo directory p place := by
  unfold makeDirectory at h
  split at h
  · cases h
  · next place hlocate =>
      split at h
      · cases h
      · next hnone =>
          cases h
          have hplace : place ≠ [] := ne_nil_of_get?_ne_directory fs (by simp [hnone])
          have hnew := get?_put_self fs hplace .directory
          refine ⟨fun q => ?_, place, ?_, hnew⟩
          · by_cases hq : q = place
            · subst hq
              refine .inr ⟨hnone, hnew, ?_⟩
              rw [eq_placeOf_of_locate hlocate]
              exact liesOn_placeOf directory p
            · exact .inl (get?_put_of_ne fs hq _)
          · exact (grows_put_directory hnone).keepsDirectories.locate hlocate

theorem ensureDirectory_growsAlong (fs : Files) (directory : Place) (p : Path) :
    GrowsAlong directory p fs (fs.ensureDirectory directory p).files := by
  unfold ensureDirectory
  split
  · next h => exact (makeDirectory_ok h).1
  · split
    · exact GrowsAlong.refl directory p fs
    · exact GrowsAlong.refl directory p fs

theorem ensureDirectory_leads (h : (fs.ensureDirectory directory p).error = none) :
    ∃ place, (fs.ensureDirectory directory p).files.LeadsTo directory p place := by
  unfold ensureDirectory at h ⊢
  split
  · next hmade => exact (makeDirectory_ok hmade).2
  · next e hmade =>
      rw [hmade] at h
      simp only [] at h
      split at h
      · next hthere =>
          rw [if_pos hthere]
          rw [Bool.and_eq_true] at hthere
          exact isDirectory_iff.1 hthere.2
      · cases h

theorem ensureParts_growsAlong (fs : Files) (directory : Place) (root : String)
    (parts : List String) :
    GrowsAlong directory ⟨root, parts.reverse⟩ fs (fs.ensureParts directory root parts).files := by
  induction parts with
  | nil => exact ensureDirectory_growsAlong fs directory _
  | cons last before ih =>
      have habove : before.reverse <+: (last :: before).reverse := by
        rw [List.reverse_cons]
        exact List.prefix_append _ _
      unfold ensureParts
      simp only []
      split
      · split
        · exact (ih.of_prefix habove).trans (ensureDirectory_growsAlong _ directory _)
        · exact ih.of_prefix habove
      · exact ensureDirectory_growsAlong fs directory _

theorem ensureParts_leads {root : String}
    (h : (fs.ensureParts directory root parts).error = none) :
    ∃ place, (fs.ensureParts directory root parts).files.LeadsTo directory
      ⟨root, parts.reverse⟩ place := by
  cases parts with
  | nil => exact ensureDirectory_leads h
  | cons last before =>
      unfold ensureParts at h ⊢
      simp only [] at h ⊢
      split at h
      · next hfirst =>
          rw [if_pos hfirst]
          split at h
          · next habove =>
              rw [if_pos habove]
              exact ensureDirectory_leads h
          · next habove => exact absurd h habove
      · next hfirst =>
          rw [if_neg hfirst]
          exact ensureDirectory_leads h

/-- Making directories changes nothing but what it makes, and that lies on the path. -/
theorem ensureDirectories_growsAlong (fs : Files) (directory : Place) (p : Path) :
    GrowsAlong directory p fs (fs.ensureDirectories directory p).files := by
  have h := ensureParts_growsAlong fs directory p.root p.parts.reverse
  rwa [List.reverse_reverse] at h

theorem ensureDirectories_grows (fs : Files) (directory : Place) (p : Path) :
    Grows fs (fs.ensureDirectories directory p).files :=
  (ensureDirectories_growsAlong fs directory p).grows

/-- A path leads to a directory when its directories have been made. -/
theorem ensureDirectories_leads (h : (fs.ensureDirectories directory p).error = none) :
    ∃ place, (fs.ensureDirectories directory p).files.LeadsTo directory p place := by
  obtain ⟨place, hplace⟩ := ensureParts_leads h
  rw [List.reverse_reverse] at hplace
  exact ⟨place, hplace⟩

/-- Nothing is made where there is a directory. -/
theorem ensureDirectories_of_leadsTo (h : fs.LeadsTo directory p place) :
    fs.ensureDirectories directory p = ⟨fs, none⟩ := by
  have hthere : fs.isDirectory directory p = true := isDirectory_iff.2 ⟨place, h⟩
  have hfirst : fs.ensureDirectory directory p = ⟨fs, none⟩ := by
    unfold ensureDirectory makeDirectory
    rw [h.1]
    simp only [h.2, hthere]
    rfl
  unfold ensureDirectories
  cases hparts : p.parts.reverse with
  | nil =>
      have hp : (⟨p.root, []⟩ : Path) = p := by rw [← List.reverse_eq_nil_iff.1 hparts]
      rw [ensureParts, hp, hfirst]
  | cons last before =>
      have hp : (⟨p.root, (last :: before).reverse⟩ : Path) = p := by
        rw [← hparts, List.reverse_reverse]
      rw [ensureParts, hp, hfirst]
      rfl

theorem length_entries_put_le (fs : Files) (q : Place) (e : Entry) :
    (fs.put q e).entries.length ≤ fs.entries.length + 1 := by
  rw [put, List.length_cons]
  exact Nat.succ_le_succ (List.length_filter_le _ _)

theorem length_entries_ensureDirectory_le (fs : Files) (directory : Place) (p : Path) :
    (fs.ensureDirectory directory p).files.entries.length ≤ fs.entries.length + 1 := by
  unfold ensureDirectory makeDirectory
  split
  · next hmade =>
      split at hmade
      · cases hmade
      · split at hmade
        · cases hmade
        · cases hmade
          exact length_entries_put_le fs _ _
  · split
    · exact Nat.le_succ _
    · exact Nat.le_succ _

/-- Making directories adds no more entries than there are parts, and one. -/
theorem length_entries_ensureParts_le (fs : Files) (directory : Place) (root : String)
    (parts : List String) :
    (fs.ensureParts directory root parts).files.entries.length ≤
      fs.entries.length + parts.length + 1 := by
  induction parts with
  | nil => exact length_entries_ensureDirectory_le fs directory _
  | cons last before ih =>
      rw [List.length_cons]
      unfold ensureParts
      simp only []
      split
      · split
        · have hlast := length_entries_ensureDirectory_le
            (fs.ensureParts directory root before).files directory ⟨root, (last :: before).reverse⟩
          omega
        · omega
      · have hfirst := length_entries_ensureDirectory_le fs directory
          ⟨root, (last :: before).reverse⟩
        omega

/-! ## When directories can be made -/

/-- Whether nothing stands in the way of the directories of a path: no name that none can have, no
length that no path can have, and no file. -/
structure IsOpen (fs : Files) (directory : Place) (p : Path) : Prop where
  spelled : isSpelled p = true
  fits : Fits p
  noFile : ∀ q, LiesOn directory p q → ∀ content, fs.get? q ≠ some (.file content)

theorem follow_of_open (hfits : ∀ part ∈ parts, nameSize part ≤ nameLimit)
    (hnoFile : ∀ before, before <+: parts → ∀ content,
      fs.get? (reach place before) ≠ some (.file content)) :
    fs.follow place parts = .ok (reach place parts) ∨
      fs.follow place parts = .error .notFound := by
  induction parts generalizing place with
  | nil => exact .inl rfl
  | cons part rest ih =>
      obtain ⟨hpart, hrest⟩ := List.forall_mem_cons.1 hfits
      rw [follow, step_eq, if_neg (Nat.not_lt.2 hpart)]
      simp only []
      split
      · next hnil =>
          rw [List.isEmpty_iff.1 hnil]
          exact .inl rfl
      · have hfirst := hnoFile [part] (List.prefix_append [part] rest)
        cases hget : fs.get? (advance place part) with
        | none => exact .inr rfl
        | some e =>
            cases e with
            | file content => exact absurd hget (hfirst content)
            | directory =>
                exact ih hrest fun before hbefore =>
                  hnoFile (part :: before) (List.cons_prefix_cons.2 ⟨rfl, hbefore⟩)

/-- Whoever follows a path has passed directories only. -/
theorem directory_of_follow (hplace : fs.get? place = some .directory)
    (h : fs.follow place parts = .ok q) (hq : fs.get? q = some .directory) :
    (∀ part ∈ parts, nameSize part ≤ nameLimit) ∧
      ∀ before, before <+: parts → fs.get? (reach place before) = some .directory := by
  induction parts generalizing place with
  | nil =>
      refine ⟨by simp, fun before hbefore => ?_⟩
      rw [List.prefix_nil.1 hbefore]
      exact hplace
  | cons part rest ih =>
      unfold follow at h
      rw [step_eq] at h
      by_cases hsize : nameLimit < nameSize part
      · rw [if_pos hsize] at h
        cases h
      rw [if_neg hsize] at h
      simp only [] at h
      -- the last part leads to a directory because the path does, the others since they are passed
      have hrest : fs.get? (advance place part) = some .directory ∧
          fs.follow (advance place part) rest = .ok q := by
        split at h
        · next hnil =>
            cases h
            rw [List.isEmpty_iff.1 hnil]
            exact ⟨hq, rfl⟩
        · split at h
          · cases h
          · cases h
          · next hdirectory => exact ⟨hdirectory, h⟩
      obtain ⟨hfits, hbefore⟩ := ih hrest.1 hrest.2
      refine ⟨List.forall_mem_cons.2 ⟨Nat.le_of_not_lt hsize, hfits⟩, fun before hbegins => ?_⟩
      cases before with
      | nil => exact hplace
      | cons first more =>
          obtain ⟨rfl, hmore⟩ := List.cons_prefix_cons.1 hbegins
          exact hbefore more hmore

theorem get?_start (hdirectory : fs.get? directory = some .directory) (p : Path) :
    fs.get? (start directory p) = some .directory := by
  unfold start
  split
  · rfl
  · exact hdirectory

/-- A path that leads to a directory is open, and all that lies on it is a directory. -/
theorem LeadsTo.directories (h : fs.LeadsTo directory p place)
    (hdirectory : fs.get? directory = some .directory) :
    fs.IsOpen directory p ∧ ∀ q, LiesOn directory p q → fs.get? q = some .directory := by
  obtain ⟨hlocate, hplace⟩ := h
  obtain ⟨hspelled, hwhole, hfollow⟩ := locate_eq_ok.1 hlocate
  obtain ⟨hnames, hbefore⟩ := directory_of_follow (get?_start hdirectory p) hfollow hplace
  have hon : ∀ q, LiesOn directory p q → fs.get? q = some .directory := by
    rintro q ⟨before, hbegins, rfl⟩
    exact hbefore before hbegins
  refine ⟨⟨hspelled, ⟨hnames, hwhole⟩, fun q hq content => ?_⟩, hon⟩
  rw [hon q hq]
  simp

theorem IsOpen.of_prefix {root : String} {before : List String}
    (h : fs.IsOpen directory ⟨root, parts⟩) (hbefore : before <+: parts) :
    fs.IsOpen directory ⟨root, before⟩ where
  spelled := List.all_eq_true.2 fun part hpart =>
    List.all_eq_true.1 h.spelled part (hbefore.subset hpart)
  fits := h.fits.of_prefix hbefore
  noFile q hq := h.noFile q (hq.of_prefix hbefore)

/-- A path is open if it is so when directories have been made. -/
theorem Grows.isOpen (h : Grows fs fs') (hopen : fs'.IsOpen directory p) :
    fs.IsOpen directory p where
  spelled := hopen.spelled
  fits := hopen.fits
  noFile q hq content hfile := hopen.noFile q hq content (h.get? hfile)

/-- An open path stays open when directories are made. -/
theorem IsOpen.mono (h : fs.IsOpen directory p) (hgrows : Grows fs fs') :
    fs'.IsOpen directory p where
  spelled := h.spelled
  fits := h.fits
  noFile q hq content := by
    rcases hgrows q with heq | ⟨-, hnew⟩
    · rw [heq]
      exact h.noFile q hq content
    · rw [hnew]
      simp

theorem locate_of_open (h : fs.IsOpen directory p) :
    fs.locate directory p = .ok (placeOf directory p) ∨
      fs.locate directory p = .error .notFound := by
  rw [locate, if_pos h.spelled, if_neg (Nat.not_lt.2 h.fits.whole)]
  exact follow_of_open h.fits.names fun before hbefore => h.noFile _ ⟨before, hbefore, rfl⟩

/-- One directory can be made at the end of an open path, or is there, unless something above it is
missing. -/
theorem error_ensureDirectory_of_open (h : fs.IsOpen directory p) :
    (fs.ensureDirectory directory p).error = none ∧
        fs.locate directory p = .ok (placeOf directory p) ∨
      (fs.ensureDirectory directory p).error = some .notFound ∧
        fs.locate directory p = .error .notFound := by
  rcases locate_of_open h with hlocate | hlocate
  · refine .inl ⟨?_, hlocate⟩
    unfold ensureDirectory makeDirectory
    rw [hlocate]
    cases hget : fs.get? (placeOf directory p) with
    | none => simp only [hget]
    | some e =>
        cases e with
        | file content => exact absurd hget (h.noFile _ (liesOn_placeOf directory p) content)
        | directory =>
            have hthere : fs.isDirectory directory p = true :=
              isDirectory_iff.2 ⟨_, hlocate, hget⟩
            simp only [hget, hthere]
            rfl
  · refine .inr ⟨?_, hlocate⟩
    unfold ensureDirectory makeDirectory
    rw [hlocate]
    rfl

theorem error_ensureParts_of_open {root : String} (h : fs.IsOpen directory ⟨root, parts.reverse⟩) :
    (fs.ensureParts directory root parts).error = none := by
  induction parts with
  | nil =>
      rcases error_ensureDirectory_of_open h with ⟨hnone, -⟩ | ⟨-, hlocate⟩
      · exact hnone
      · rw [locate, if_pos h.spelled, if_neg (Nat.not_lt.2 h.fits.whole)] at hlocate
        cases hlocate
  | cons last before ih =>
      have hbegins : before.reverse <+: (last :: before).reverse := by
        rw [List.reverse_cons]
        exact List.prefix_append _ _
      unfold ensureParts
      simp only []
      rcases error_ensureDirectory_of_open h with ⟨hnone, -⟩ | ⟨hmissing, -⟩
      · rw [hnone, if_neg (by simp), hnone]
      · have habove := ih (h.of_prefix hbegins)
        rw [if_pos hmissing, if_pos habove]
        have hgrows := (ensureParts_growsAlong fs directory root before).grows
        rcases error_ensureDirectory_of_open (h.mono hgrows) with ⟨hnone, -⟩ | ⟨-, hlocate⟩
        · exact hnone
        · -- what is above has been made, so the path leads on
          obtain ⟨place, hplace⟩ := ensureParts_leads habove
          have hlast : last ∈ (last :: before).reverse := by simp
          have hspelled : '\x00' ∉ last.toList := by
            simpa using List.all_eq_true.1 h.spelled last hlast
          have hpath : (⟨root, before.reverse⟩ : Path).child last =
              ⟨root, (last :: before).reverse⟩ := by rw [Path.child, ← List.reverse_cons]
          have hchild := hplace.locate_child last hspelled (h.fits.names last hlast)
            (hpath ▸ h.fits.whole)
          rw [hpath, hlocate] at hchild
          cases hchild

/-- Directories are made exactly along an open path. -/
theorem error_ensureDirectories_iff (hdirectory : fs.get? directory = some .directory) :
    (fs.ensureDirectories directory p).error = none ↔ fs.IsOpen directory p := by
  constructor
  · intro h
    have hgrows := ensureDirectories_grows fs directory p
    obtain ⟨place, hplace⟩ := ensureDirectories_leads h
    exact hgrows.isOpen (hplace.directories (hgrows.get? hdirectory)).1
  · intro h
    refine error_ensureParts_of_open ?_
    rwa [List.reverse_reverse]

end ApiOutline.Files
