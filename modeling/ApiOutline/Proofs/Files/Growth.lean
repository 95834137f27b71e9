import ApiOutline.Files.Tree

/-!
# Files that only gain directories

Making directories changes no file and takes nothing away: every place holds
what it held, or it held nothing and is a directory now (`Grows`). Paths that
led somewhere lead there still. For this it is enough that directories stay
(`KeepsDirectories`), which is also true where a file is put in a place that is
none.
-/

namespace ApiOutline.Files

variable {fs fs' fs'' : Files} {directory place q : Place} {p : Path} {parts : List String}
  {content : List UInt8}

/-- Whether directories stay directories. -/
def KeepsDirectories (fs fs' : Files) : Prop :=
  ∀ q, fs.get? q = some .directory → fs'.get? q = some .directory

/-- Whether files differ from what they were in new directories only. -/
def Grows (fs fs' : Files) : Prop :=
  ∀ q, fs'.get? q = fs.get? q ∨ (fs.get? q = none ∧ fs'.get? q = some .directory)

theorem Grows.refl (fs : Files) : Grows fs fs := fun _ => .inl rfl

theorem Grows.trans (h : Grows fs fs') (h' : Grows fs' fs'') : Grows fs fs'' := by
  intro q
  rcases h' q with heq | ⟨hnone, hnew⟩
  · rw [heq]
    exact h q
  · rcases h q with heq | ⟨-, hdirectory⟩
    · rw [heq] at hnone
      exact .inr ⟨hnone, hnew⟩
    · rw [hnone] at hdirectory
      cases hdirectory

theorem Grows.get? {e : Entry} (h : Grows fs fs') (hq : fs.get? q = some e) :
    fs'.get? q = some e := by
  rcases h q with heq | ⟨hnone, -⟩
  · rw [heq, hq]
  · rw [hq] at hnone
    cases hnone

theorem Grows.keepsDirectories (h : Grows fs fs') : KeepsDirectories fs fs' :=
  fun _ hq => h.get? hq

theorem ne_nil_of_get?_ne_directory (fs : Files) (h : fs.get? q ≠ some .directory) : q ≠ [] := by
  rintro rfl
  exact h rfl

theorem grows_put_directory (h : fs.get? q = none) : Grows fs (fs.put q .directory) := by
  have hq : q ≠ [] := ne_nil_of_get?_ne_directory fs (by simp [h])
  intro q'
  by_cases heq : q' = q
  · subst heq
    exact .inr ⟨h, get?_put_self fs hq _⟩
  · exact .inl (get?_put_of_ne fs heq _)

theorem keepsDirectories_put (h : fs.get? q ≠ some .directory) (e : Entry) :
    KeepsDirectories fs (fs.put q e) := by
  intro q' hq'
  have hne : q' ≠ q := by
    rintro rfl
    exact h hq'
  rw [get?_put_of_ne fs hne, hq']

/-! ## Paths -/

theorem KeepsDirectories.follow (h : KeepsDirectories fs fs')
    (hfollow : fs.follow directory parts = .ok place) :
    fs'.follow directory parts = .ok place := by
  induction parts generalizing directory with
  | nil => exact hfollow
  | cons part rest ih =>
      unfold Files.follow at hfollow ⊢
      split at hfollow
      · cases hfollow
      · next next hstep =>
          split at hfollow
          · next hrest => rw [if_pos hrest]; exact hfollow
          · next hrest =>
              rw [if_neg hrest]
              split at hfollow
              · cases hfollow
              · cases hfollow
              · next hdirectory =>
                  rw [h _ hdirectory]
                  exact ih hfollow

theorem KeepsDirectories.locate (h : KeepsDirectories fs fs')
    (hlocate : fs.locate directory p = .ok place) : fs'.locate directory p = .ok place := by
  unfold Files.locate at hlocate ⊢
  split at hlocate
  · next hspelled =>
      rw [if_pos hspelled]
      split at hlocate
      · cases hlocate
      · next hwhole =>
          rw [if_neg hwhole]
          exact h.follow hlocate
  · cases hlocate

/-- A path that led to something leads to it still, and so does a path to a file. -/
theorem Grows.fileAt? (h : Grows fs fs') (hfile : fs.fileAt? directory p = .ok (some content)) :
    fs'.fileAt? directory p = .ok (some content) := by
  unfold Files.fileAt? Files.entryAt at hfile ⊢
  cases hlocate : fs.locate directory p with
  | error e =>
      rw [hlocate] at hfile
      split at hfile <;> simp_all
  | ok place =>
      rw [hlocate] at hfile
      rw [h.keepsDirectories.locate hlocate]
      simp only [] at hfile ⊢
      split at hfile
      · next found hfound =>
          injection hfound with hfound
          rw [h.get? hfound]
          exact hfile
      · cases hfile
      · cases hfile

theorem follow_concat (hfollow : fs.follow directory parts = .ok place)
    (hplace : fs.get? place = some .directory) (name : String) :
    fs.follow directory (parts ++ [name]) = step place name := by
  induction parts generalizing directory with
  | nil =>
      cases hfollow
      rw [List.nil_append, Files.follow]
      cases hstep : step place name with
      | error e => rfl
      | ok next => rfl
  | cons part rest ih =>
      rw [List.cons_append, Files.follow]
      rw [Files.follow] at hfollow
      split at hfollow
      · cases hfollow
      · next next hstep =>
          simp only [List.append_eq_nil_iff, List.isEmpty_iff, List.cons_ne_nil, and_false,
            if_false]
          split at hfollow
          · next hrest =>
              rw [List.isEmpty_iff] at hrest
              cases hfollow
              subst hrest
              rw [hplace]
              exact ih rfl
          · split at hfollow
            · cases hfollow
            · cases hfollow
            · exact ih hfollow

/-- Whether a path leads to a directory, and to which one. -/
def LeadsTo (fs : Files) (directory : Place) (p : Path) (place : Place) : Prop :=
  fs.locate directory p = .ok place ∧ fs.get? place = some .directory

theorem LeadsTo.mono (h : KeepsDirectories fs fs') (hp : fs.LeadsTo directory p place) :
    fs'.LeadsTo directory p place :=
  ⟨h.locate hp.1, h place hp.2⟩

theorem isDirectory_iff :
    fs.isDirectory directory p = true ↔ ∃ place, fs.LeadsTo directory p place := by
  unfold isDirectory entryAt LeadsTo
  cases fs.locate directory p with
  | error e => simp
  | ok place =>
      simp only [Except.ok.injEq, exists_eq_left']
      split
      · next heq => simpa using heq
      · next hne => simpa using fun heq => hne (by rw [heq])

end ApiOutline.Files
