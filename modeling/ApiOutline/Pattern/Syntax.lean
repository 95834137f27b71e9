import ApiOutline.Text.Case
import ApiOutline.Text.Class

/-!
# Patterns

A pattern is a tree. Its leaves test one character or one place in the text; its inner nodes put
patterns one after the other, choose between them, repeat them, or remember what they matched. The
switches that change the meaning of a leaf are resolved when the tree is built, so a tree means
the same wherever it stands.
-/

namespace ApiOutline.Pattern

/-- The switches of a pattern: letters match regardless of case, the line anchors match at every
line, the dot matches line ends, blanks in the pattern are decoration, classes are ASCII only. -/
structure Switches where
  anyCase : Bool := false
  everyLine : Bool := false
  dotAll : Bool := false
  verbose : Bool := false
  asciiOnly : Bool := false
  deriving Repr, DecidableEq

/-- The named classes of characters. -/
inductive CharClass where
  | digit
  | space
  | word
  deriving Repr, DecidableEq

/-- What a set of characters is made of. -/
inductive SetItem where
  | char (c : Char)
  | range (low high : Char)
  | named (k : CharClass) (negated : Bool)
  deriving Repr, DecidableEq

/-- A test of one character. -/
inductive CharTest where
  | char (c : Char)
  | any
  | set (negated : Bool) (items : List SetItem)
  deriving Repr, DecidableEq

/-- A test of one place. -/
inductive Anchor where
  | textStart
  | lineStart
  | textEnd
  | lineEnd
  | lastLineEnd
  | boundary
  | noBoundary
  deriving Repr, DecidableEq

/-- How often a repetition is tried: as often as possible first, as seldom as possible first, or as
often as possible and never less. -/
inductive Greed where
  | greedy
  | lazy
  | possessive
  deriving Repr, DecidableEq

/-- A pattern. -/
inductive Node where
  | empty
  | one (test : CharTest) (switches : Switches)
  | anchor (a : Anchor) (asciiOnly : Bool)
  | seq (first second : Node)
  | alt (first second : Node)
  | rep (body : Node) (least : Nat) (most : Option Nat) (greed : Greed)
  | capture (index : Nat) (body : Node)
  | bracket (body : Node)
  | atomic (body : Node)
  | again (index : Nat) (switches : Switches)
  | ahead (negated : Bool) (body : Node)
  | behind (negated : Bool) (width : Nat) (body : Node)
  | given (index : Nat) (yes no : Node)
  deriving Repr, DecidableEq

/-- The least and the greatest number of characters that a pattern can match, `none` where there is
no greatest. -/
structure Width where
  least : Nat
  most : Option Nat
  deriving Repr, DecidableEq

namespace Width

def zero : Width := ⟨0, some 0⟩

def add (a b : Width) : Width :=
  ⟨a.least + b.least, do pure ((← a.most) + (← b.most))⟩

def join (a b : Width) : Width :=
  ⟨min a.least b.least, do pure (max (← a.most) (← b.most))⟩

/-- The width of a repetition. Nothing repeated without end is still nothing. -/
def times (a : Width) (least : Nat) (most : Option Nat) : Width :=
  ⟨a.least * least,
    match a.most, most with
    | some 0, _ => some 0
    | some n, some m => some (n * m)
    | _, _ => none⟩

end Width

/-- The width of a pattern, given those of the groups it may refer to. -/
def Node.width (groups : Nat → Option Width) : Node → Width
  | .empty => .zero
  | .one _ _ => ⟨1, some 1⟩
  | .anchor _ _ => .zero
  | .seq a b => (a.width groups).add (b.width groups)
  | .alt a b => (a.width groups).join (b.width groups)
  | .rep body least most _ => (body.width groups).times least most
  | .capture _ body => body.width groups
  | .bracket body => body.width groups
  | .atomic body => body.width groups
  | .again index _ => (groups index).getD .zero
  | .ahead _ _ => .zero
  | .behind _ _ _ => .zero
  | .given _ yes no => (yes.width groups).join (no.width groups)

/-- Whether two characters have one small letter. -/
def sameSmall (asciiOnly : Bool) (a b : Char) : Bool :=
  if asciiOnly then a.toLower == b.toLower else Text.smallLetter a == Text.smallLetter b

/-- Whether two characters differ at most in case: their small letters are one, or have one upper
case. -/
def sameLetter (asciiOnly : Bool) (a b : Char) : Bool :=
  sameSmall asciiOnly a b ||
    (!asciiOnly &&
      Text.upperChar (Text.smallLetter a) == Text.upperChar (Text.smallLetter b))

/-- The characters that differ from a character at most in case. -/
def variants (asciiOnly : Bool) (c : Char) : List Char :=
  if asciiOnly then [c.toLower, c.toUpper] else Text.caseVariants c

/-- Whether a character belongs to a named class. -/
def CharClass.holds (k : CharClass) (asciiOnly : Bool) (c : Char) : Bool :=
  match k with
  | .digit => if asciiOnly then c.isDigit else Text.isDecimalDigit c
  | .space =>
      if asciiOnly then c == ' ' || (9 ≤ c.toNat && c.toNat ≤ 13) else Text.isBlank c
  | .word => c == '_' || (if asciiOnly then c.isAlphanum else Text.isAlphanumeric c)

/-- Whether a character belongs to a part of a set. -/
def SetItem.holds (s : Switches) (c : Char) : SetItem → Bool
  | .char d => if s.anyCase then sameLetter s.asciiOnly c d else c == d
  | .range low high =>
      let within (x : Char) : Bool := low ≤ x && x ≤ high
      within c ||
        (s.anyCase && (variants s.asciiOnly c).any within)
  | .named k negated => (k.holds s.asciiOnly c) != negated

/-- Whether a character passes a test. -/
def CharTest.holds (s : Switches) (c : Char) : CharTest → Bool
  | .char d => if s.anyCase then sameLetter s.asciiOnly c d else c == d
  | .any => s.dotAll || c != '\n'
  | .set negated items => (items.any (SetItem.holds s c)) != negated

end ApiOutline.Pattern
