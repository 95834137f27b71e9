import ApiOutline.Proofs.Action
import ApiOutline.Proofs.Files.Atomic
import ApiOutline.Proofs.Settings.Kept
import ApiOutline.SettingsFile

/-!
# What writing a file comes to

A file is written as a whole or not at all. It can fail before there is a draft,
while the draft is written, or when the draft is to take the place of the file;
in every case the files are what they were, but for directories that have been
made above the file (`write_puts_or_leaves`).

In these files a draft can always be written. A real disk may take a part of it
and stop; `writeOn` takes the same steps on such a disk, and on a sound one it is
no other function (`writeOn_sound`).
-/

namespace ApiOutline.Files

variable {fs : Files} {directory : Place} {p : Path} {content : List UInt8}

/-! ## Disks that stop -/

/-- What a disk does with the bytes of a draft: those it takes, and what stops it, if anything
does. -/
def Disk : Type := List UInt8 → List UInt8 × Option FileError

/-- The disk that takes everything. -/
def Disk.sound : Disk := fun content => (content, none)

/-- Writes a file in a directory as a whole, with a draft on a disk that may stop. -/
def replaceOn (disk : Disk) (fs : Files) (directory : Place) (p : Path)
    (content : List UInt8) : Outcome :=
  if p.name.toList.contains '\x00' then ⟨fs, some .badName⟩
  else
    match fs.draftPlace? directory p.name with
    | none => ⟨fs, some .refused⟩
    | some draft =>
        if takesDraft p draft then
          let drafted := fs.put draft (.file (disk content).1)
          match (disk content).2 with
          | some e => ⟨drafted.erase draft, some e⟩
          | none =>
              match drafted.moveDraft draft directory p with
              | .ok fs => ⟨fs, none⟩
              | .error e => ⟨drafted.erase draft, some e⟩
        else ⟨fs, some .refused⟩

/-- Writes a file as a whole, with a draft on a disk that may stop. -/
def writeOn (disk : Disk) (fs : Files) (directory : Place) (p : Path) (content : List UInt8) :
    Outcome :=
  let made := fs.ensureDirectories directory p.parent
  if made.error = none then
    match made.files.locate directory p.parent with
    | .error e => ⟨made.files, some e⟩
    | .ok place => replaceOn disk made.files place p content
  else made

/-- On a sound disk a file is written as it is without regard to the disk. -/
theorem writeOn_sound (fs : Files) (directory : Place) (p : Path) (content : List UInt8) :
    writeOn .sound fs directory p content = fs.writeAtomically directory p content := rfl

/-- A draft on a disk that stops goes away, whatever there is of it. -/
theorem replaceOn_of_stopped {disk : Disk} {e : FileError} (h : (disk content).2 = some e)
    (fs : Files) (directory : Place) (p : Path) :
    ∃ e, replaceOn disk fs directory p content = ⟨fs, some e⟩ := by
  unfold replaceOn
  by_cases hspelled : p.name.toList.contains '\x00' = true
  · exact ⟨_, by rw [if_pos hspelled]⟩
  rw [if_neg hspelled]
  obtain ⟨n, -, hfree, hplace⟩ := fs.exists_draftPlace directory p.name
  rw [hplace]
  simp only [h, erase_put_of_isFree hfree]
  split
  · exact ⟨_, rfl⟩
  · exact ⟨_, rfl⟩

theorem writeOn_of_stopped {disk : Disk} {e : FileError} (h : (disk content).2 = some e)
    (fs : Files) (directory : Place) (p : Path) :
    ∃ e, writeOn disk fs directory p content =
      ⟨(fs.ensureDirectories directory p.parent).files, some e⟩ := by
  unfold writeOn
  cases hmade : (fs.ensureDirectories directory p.parent).error with
  | some e =>
      refine ⟨e, ?_⟩
      simp only [hmade, reduceCtorEq, if_false]
      rw [← hmade]
  | none =>
      obtain ⟨place, hplace⟩ := ensureDirectories_leads hmade
      simp only [hmade, if_true, hplace.1]
      exact replaceOn_of_stopped h _ place p

end ApiOutline.Files

namespace ApiOutline.SettingsFile

open Files

theorem result_write_iff (h : Host) (p : Path) (text : String) : (write p text h).result = .ok () ↔
    (h.files.writeAtomically h.directory p (Text.encodeUtf8 text)).error = none := by
  constructor
  · exact Action.result_change_eq_ok
  · intro hnone
    exact congrArg Acted.result (Action.change_of_ok hnone)

/-- A file that is written holds the text, and every other place is what it was but for new
directories above the file. If it cannot be written, this is so of every place, also when a disk
stops at the draft. Unless there are very many entries, it is written exactly where it can be. -/
theorem write_puts_or_leaves (h : Host) (p : Path) (text : String) :
    ((write p text h).result = .ok () →
      (write p text h).host.fileAt? p = .ok (some (Text.encodeUtf8 text)) ∧
      (write p text h).host.files.get? (placeOf h.directory p) =
        some (.file (Text.encodeUtf8 text)) ∧
      ∀ q, q ≠ placeOf h.directory p →
        KeptAlong h.directory p.parent h.files (write p text h).host.files q) ∧
    ((write p text h).result ≠ .ok () →
      GrowsAlong h.directory p.parent h.files (write p text h).host.files) ∧
    (∀ disk : Disk, (disk (Text.encodeUtf8 text)).2 ≠ none →
      (writeOn disk h.files h.directory p (Text.encodeUtf8 text)).error ≠ none ∧
      GrowsAlong h.directory p.parent h.files
        (writeOn disk h.files h.directory p (Text.encodeUtf8 text)).files) ∧
    (h.files.get? h.directory = some .directory →
      h.files.entries.length + p.parts.length < 10 ^ 8 →
      ((write p text h).result = .ok () ↔ h.files.IsWritable h.directory p)) := by
  have hresult := result_write_iff h p text
  refine ⟨fun hok => ⟨?_, ?_, fun q hq => keptAlong_writeAtomically _ _ _ _ hq⟩, fun hfail => ?_,
    fun disk hstopped => ?_, fun hdirectory hfew => ?_⟩
  · exact congrArg (Except.mapError Failure.file) (fileAt?_writeAtomically (hresult.1 hok))
  · exact get?_placeOf_writeAtomically (hresult.1 hok)
  · exact writeAtomically_growsAlong fun hnone => hfail (hresult.2 hnone)
  · obtain ⟨e, he⟩ := Option.ne_none_iff_exists'.1 hstopped
    obtain ⟨e', hwrite⟩ := writeOn_of_stopped he h.files h.directory p
    rw [hwrite]
    exact ⟨by simp, ensureDirectories_growsAlong _ _ _⟩
  · rw [hresult]
    exact error_writeAtomically_iff hdirectory hfew

/-- A host on which a file stands where a directory is asked for. -/
def blockedHost : Host :=
  { freshHost with
    files := ⟨[(["work"], .directory), (["work", "lib"], .directory),
      (["work", "lib", "out"], .file [1])]⟩ }

/-- Below a file nothing is written, and beside it a file is written with the directories above
it. -/
theorem write_puts_or_leaves_of_blocked :
    (write ⟨"", ["lib", "out", "new", "a.json"]⟩ "text" blockedHost).result ≠ .ok () ∧
      (∀ q, (write ⟨"", ["lib", "out", "new", "a.json"]⟩ "text" blockedHost).host.files.get? q
        = some (.file [1]) ↔ blockedHost.files.get? q = some (.file [1])) ∧
      (write ⟨"", ["lib", "new", "a.json"]⟩ "text" blockedHost).host.files.get?
        ["work", "lib", "new", "a.json"] = some (.file (Text.encodeUtf8 "text")) := by
  have hfail : (write ⟨"", ["lib", "out", "new", "a.json"]⟩ "text" blockedHost).result ≠
      .ok () := by
    obtain ⟨-, -, -, hiff⟩ :=
      write_puts_or_leaves blockedHost ⟨"", ["lib", "out", "new", "a.json"]⟩ "text"
    intro hok
    refine ((hiff rfl (by decide)).1 hok).above.noFile ["work", "lib", "out"] ?_ [1] rfl
    exact ⟨["lib", "out"], by decide, rfl⟩
  have hok : (write ⟨"", ["lib", "new", "a.json"]⟩ "text" blockedHost).result = .ok () :=
    (result_write_iff _ _ _).2 (by decide +kernel)
  obtain ⟨-, hgrows, -, -⟩ :=
    write_puts_or_leaves blockedHost ⟨"", ["lib", "out", "new", "a.json"]⟩ "text"
  obtain ⟨hputs, -, -, -⟩ :=
    write_puts_or_leaves blockedHost ⟨"", ["lib", "new", "a.json"]⟩ "text"
  refine ⟨hfail, fun q => ?_, (hputs hok).2.1⟩
  rcases hgrows hfail q with heq | ⟨hnone, hnew, -⟩
  · rw [heq]
  · rw [hnone, hnew]
    simp

end ApiOutline.SettingsFile
