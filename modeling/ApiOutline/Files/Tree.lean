import ApiOutline.Decimal.Notation
import ApiOutline.Failure
import ApiOutline.Files.Path

/-!
# Files

What a file system holds is a list of places and what stands there: a file with its bytes, or a
directory. A place is the list of names that lead to it from the root, which is always there.
Writing a place is seen at that place alone.

A path is followed part by part from a directory. Every part but the last has to lead to a
directory; two dots lead back. A name of more than 255 bytes leads nowhere, nor does a path that
fills more than 4096 bytes, and no name has a null character in it.

A file that others rely on is never written in place. Its content goes into a draft beside it, and
the draft takes its place at once; a draft that cannot do so leaves nothing behind
(`erase_put_of_isFree`).
-/

namespace ApiOutline

/-- The names that lead from the root to a place. -/
abbrev Place := List String

inductive Entry where
  | file (content : List UInt8)
  | directory
  deriving Repr, DecidableEq

/-- What stands at which place. The first entry for a place counts. -/
structure Files where
  entries : List (Place × Entry)
  deriving Repr, DecidableEq

namespace Files

def empty : Files := ⟨[]⟩

/-- What stands at a place. -/
def get? (fs : Files) (place : Place) : Option Entry :=
  if place.isEmpty then some .directory else fs.entries.lookup place

/-- Puts something at a place. -/
def put (fs : Files) (place : Place) (e : Entry) : Files :=
  ⟨(place, e) :: fs.entries.filter fun x => x.1 != place⟩

/-- Takes away a place and all below it. -/
def erase (fs : Files) (place : Place) : Files :=
  ⟨fs.entries.filter fun x => !place.isPrefixOf x.1⟩

@[simp] theorem get?_nil (fs : Files) : fs.get? [] = some .directory := rfl

theorem lookup_filter_ne (xs : List (Place × Entry)) {p q : Place} (h : p ≠ q) :
    (xs.filter fun x => x.1 != q).lookup p = xs.lookup p := by
  induction xs with
  | nil => rfl
  | cons x rest ih =>
      obtain ⟨r, e⟩ := x
      by_cases hr : r = q
      · subst hr
        have hp : (p == r) = false := by simpa using h
        simp [List.lookup_cons, ih, hp]
      · have hrq : (r != q) = true := by simpa using hr
        by_cases hp : p = r
        · subst hp
          simp [List.filter, hrq]
        · have hpr : (p == r) = false := by simpa using hp
          simp [List.filter, hrq, List.lookup_cons, hpr, ih]

theorem get?_put_self (fs : Files) {p : Place} (h : p ≠ []) (e : Entry) :
    (fs.put p e).get? p = some e := by
  cases p with
  | nil => exact absurd rfl h
  | cons a r => simp [get?, put]

/-- What is put at one place is not seen at another. -/
theorem get?_put_of_ne (fs : Files) {p q : Place} (h : p ≠ q) (e : Entry) :
    (fs.put q e).get? p = fs.get? p := by
  cases p with
  | nil => rfl
  | cons a r =>
      have hb : ((a :: r) == q) = false := by simpa using h
      simp [get?, put, List.lookup_cons, hb, lookup_filter_ne fs.entries h]

/-- The number of bytes in a name. -/
def nameSize (name : String) : Nat := name.utf8ByteSize

/-- The longest name there can be. -/
def nameLimit : Nat := 255

/-- Where one part leads from a directory. -/
def step (place : Place) (part : String) : Except FileError Place :=
  if part = ".." then .ok place.dropLast
  else if nameLimit < nameSize part then .error .refused
  else .ok (place ++ [part])

/-- Where parts lead from a directory. What the last one leads to need not exist. -/
def follow (fs : Files) (place : Place) : List String → Except FileError Place
  | [] => .ok place
  | part :: rest =>
      match step place part with
      | .error e => .error e
      | .ok next =>
          if rest.isEmpty then .ok next
          else
            match fs.get? next with
            | none => .error .notFound
            | some (.file _) => .error .notDirectory
            | some .directory => follow fs next rest

/-- Whether a path can be given to the file system at all. -/
def isSpelled (p : Path) : Bool := p.parts.all fun s => !s.toList.contains '\x00'

/-- The number of bytes that a path fills: after each part there is a slash, or the null byte that
ends the path. -/
def space (p : Path) : Nat :=
  p.parts.foldl (fun n part => n + (nameSize part + 1)) (nameSize p.root)

/-- The most that a path can fill. -/
def spaceLimit : Nat := 4096

/-- Where a path leads from a directory. -/
def locate (fs : Files) (directory : Place) (p : Path) : Except FileError Place :=
  if isSpelled p then
    if spaceLimit < space p then .error .refused
    else fs.follow (if p.isAbsolute then [] else directory) p.parts
  else .error .badName

/-- What a path leads to from a directory. -/
def entryAt (fs : Files) (directory : Place) (p : Path) : Except FileError (Option Entry) :=
  match fs.locate directory p with
  | .error e => .error e
  | .ok place => .ok (fs.get? place)

/-- The bytes of the file at a path, if there is one. It is an error only to ask for a name or a
path that is too long. -/
def fileAt? (fs : Files) (directory : Place) (p : Path) :
    Except FileError (Option (List UInt8)) :=
  match fs.entryAt directory p with
  | .ok (some (.file content)) => .ok (some content)
  | .error .refused => .error .refused
  | _ => .ok none

/-- Whether a path leads to a directory. -/
def isDirectory (fs : Files) (directory : Place) (p : Path) : Bool :=
  match fs.entryAt directory p with
  | .ok (some .directory) => true
  | _ => false

/-- The outcome of a change: the files after it, and what went wrong, if anything did. -/
structure Outcome where
  files : Files
  error : Option FileError
  deriving Repr, DecidableEq

/-- Makes one directory where nothing stands yet. -/
def makeDirectory (fs : Files) (directory : Place) (p : Path) : Except FileError Files :=
  match fs.locate directory p with
  | .error e => .error e
  | .ok place =>
      match fs.get? place with
      | some _ => .error .exists
      | none => .ok (fs.put place .directory)

/-- Makes a directory that may be there already. -/
def ensureDirectory (fs : Files) (directory : Place) (p : Path) : Outcome :=
  match fs.makeDirectory directory p with
  | .ok fs => ⟨fs, none⟩
  | .error e =>
      if e != .notFound && e != .badName && fs.isDirectory directory p then ⟨fs, none⟩
      else ⟨fs, some e⟩

/-- Makes a directory and those above it, as far as they are not there. The parts are given from
the last to the first. -/
def ensureParts (fs : Files) (directory : Place) (root : String) : List String → Outcome
  | [] => fs.ensureDirectory directory ⟨root, []⟩
  | last :: before =>
      let p : Path := ⟨root, (last :: before).reverse⟩
      let first := fs.ensureDirectory directory p
      if first.error = some .notFound then
        let above := ensureParts fs directory root before
        if above.error = none then above.files.ensureDirectory directory p else above
      else first

/-- Makes a directory and those above it, as far as they are not there. -/
def ensureDirectories (fs : Files) (directory : Place) (p : Path) : Outcome :=
  fs.ensureParts directory p.root p.parts.reverse

/-- Writes a file in its place. Nothing is made above it. -/
def write (fs : Files) (directory : Place) (p : Path) (content : List UInt8) : Outcome :=
  match fs.locate directory p with
  | .error e => ⟨fs, some e⟩
  | .ok place =>
      if fs.get? place = some .directory then ⟨fs, some .isDirectory⟩
      else ⟨fs.put place (.file content), none⟩

/-! ## Whole files at once -/

/-- The name of a draft for a file. -/
def draftName (name : String) (n : Nat) : String :=
  let digits := Decimal.natText n
  "." ++ name ++ "." ++ "".pushn '0' (8 - digits.length) ++ digits ++ ".tmp"

/-- Whether nothing stands at a place or below it. -/
def isFree (fs : Files) (place : Place) : Bool :=
  fs.entries.all fun x => !place.isPrefixOf x.1

/-- A free place in a directory for the draft of a file. -/
def draftPlace? (fs : Files) (directory : Place) (name : String) : Option Place :=
  ((List.range (fs.entries.length + 1)).map fun n => directory ++ [draftName name n]).find?
    fs.isFree

/-- Moves what stands at one place to a name in a directory. It may replace a file, but no
directory. -/
def rename (fs : Files) (source directory : Place) (name : String) : Except FileError Files :=
  if name.isEmpty || name = ".." then .error .refused
  else
    match fs.get? source, fs.get? (directory ++ [name]) with
    | none, _ => .error .notFound
    | some _, some .directory => .error .isDirectory
    | some e, _ => .ok ((fs.erase source).put (directory ++ [name]) e)

/-- The path that the draft of a file is asked for by. It begins at the root, however the path of
the file begins. -/
def draftPath (p : Path) (draft : Place) : Path := ⟨if p.root = "//" then "//" else "/", draft⟩

/-- Whether a draft can be made at a place: its name and its path are not too long. -/
def takesDraft (p : Path) (draft : Place) : Bool :=
  nameSize (draft.getLast?.getD "") ≤ nameLimit && space (draftPath p draft) ≤ spaceLimit

/-- Moves a draft in a directory to the name of its file. -/
def moveDraft (fs : Files) (draft directory : Place) (p : Path) : Except FileError Files :=
  if spaceLimit < space p then .error .refused else fs.rename draft directory p.name

/-- Writes a file as a whole in the directory that its path leads to: the content is written to a
draft beside the file, which takes the place of the file when it is complete, and goes away if it
cannot. -/
def replace (fs : Files) (directory : Place) (p : Path) (content : List UInt8) : Outcome :=
  if p.name.toList.contains '\x00' then ⟨fs, some .badName⟩
  else
    match fs.draftPlace? directory p.name with
    | none => ⟨fs, some .refused⟩
    | some draft =>
        if takesDraft p draft then
          let drafted := fs.put draft (.file content)
          match drafted.moveDraft draft directory p with
          | .ok fs => ⟨fs, none⟩
          | .error e => ⟨drafted.erase draft, some e⟩
        else ⟨fs, some .refused⟩

/-- Writes a file as a whole. The directories above it are made first. -/
def writeAtomically (fs : Files) (directory : Place) (p : Path) (content : List UInt8) : Outcome :=
  let made := fs.ensureDirectories directory p.parent
  if made.error = none then
    match made.files.locate directory p.parent with
    | .error e => ⟨made.files, some e⟩
    | .ok place => made.files.replace place p content
  else made

theorem isPrefixOf_of_isFree {fs : Files} {place : Place} (h : fs.isFree place = true)
    {x : Place × Entry} (hx : x ∈ fs.entries) : place.isPrefixOf x.1 = false := by
  have := List.all_eq_true.mp h x hx
  simpa using this

/-- Taking away what was put at a free place leaves nothing behind. -/
theorem erase_put_of_isFree {fs : Files} {place : Place} (h : fs.isFree place = true)
    (e : Entry) : (fs.put place e).erase place = fs := by
  have hself : place.isPrefixOf place = true := List.isPrefixOf_iff_prefix.mpr (List.prefix_refl _)
  have hkeep : (fs.entries.filter fun x => x.1 != place) = fs.entries := by
    rw [List.filter_eq_self]
    intro x hx
    have hp := isPrefixOf_of_isFree h hx
    by_cases hxp : x.1 = place
    · rw [hxp, hself] at hp
      cases hp
    · simpa using hxp
  have hall : (fs.entries.filter fun x => !place.isPrefixOf x.1) = fs.entries := by
    rw [List.filter_eq_self]
    intro x hx
    simpa using isPrefixOf_of_isFree h hx
  rw [put, erase, hkeep, List.filter_cons_of_neg (by simp [hself]), hall]

end Files

end ApiOutline
