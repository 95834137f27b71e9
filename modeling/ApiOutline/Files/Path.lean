import ApiOutline.Text.Class

/-!
# Paths

A path is a text cut by slashes. Empty parts and single dots say nothing and are dropped when the
text is read; two dots stay, because only the files tell what is above a place. A text that begins
with exactly two slashes keeps both.
-/

namespace ApiOutline

/-- A path: the slashes it begins with, and its parts. -/
structure Path where
  root : String
  parts : List String
  deriving Repr, DecidableEq

namespace Path

/-- The slashes that a text begins with, as far as they count. -/
def rootOf : List Char → String
  | ['/', '/'] => "//"
  | '/' :: '/' :: c :: _ => if c == '/' then "/" else "//"
  | '/' :: _ => "/"
  | _ => ""

/-- Whether a part says something. -/
def isPart (p : List Char) : Bool := !p.isEmpty && p != ['.']

def ofText (s : String) : Path where
  root := rootOf s.toList
  parts := ((Text.splitOn '/' s.toList).filter isPart).map String.ofList

/-- The text of a path. The path of no parts is a dot. -/
def text (p : Path) : String :=
  if p.root.isEmpty && p.parts.isEmpty then "." else p.root ++ "/".intercalate p.parts

def isAbsolute (p : Path) : Bool := !p.root.isEmpty

/-- The last part, empty where there is none. -/
def name (p : Path) : String := p.parts.getLast?.getD ""

/-- The path without its last part. -/
def parent (p : Path) : Path := { p with parts := p.parts.dropLast }

/-- A path one part longer. -/
def child (p : Path) (part : String) : Path := { p with parts := p.parts ++ [part] }

/-- What comes last in a name, from its last dot on. A dot at either end of the name does not
count. -/
def suffix (p : Path) : String :=
  let cs := p.name.toList
  let after := cs.reverse.takeWhile (· != '.')
  let before := cs.length - after.length - 1
  if after.length < cs.length && 0 < before && !after.isEmpty then
    String.ofList (cs.drop before)
  else ""

@[simp] theorem parent_child (p : Path) (part : String) : (p.child part).parent = p := by
  simp [parent, child]

@[simp] theorem name_child (p : Path) (part : String) : (p.child part).name = part := by
  simp [name, child]

example : (ofText "a//b/./c/").text = "a/b/c" := by decide +kernel
example : (ofText "//x").text = "//x" := by decide +kernel
example : (ofText "///x").text = "/x" := by decide +kernel
example : (ofText "").text = "." := by decide +kernel
example : (ofText "x/a.yaml.json").suffix = ".json" := by decide +kernel
example : (ofText ".json").suffix = "" := by decide +kernel
example : (ofText "a.").suffix = "" := by decide +kernel

end Path

end ApiOutline
