import ApiOutline.Pattern.Syntax

/-!
# Finding a pattern

Matching walks a text with a cursor and tries the alternatives of the pattern in order; the first
way through the whole pattern is the match. What comes after a node is passed to it as a function,
so that a later failure brings the search back to the next alternative.

Only repetitions need a budget. A round that moves the cursor uses up text, a round that does not
ends the repetition, so the rounds demanded and the characters left together bound them.
-/

namespace ApiOutline.Pattern

/-- A place in a text: the characters before it, nearest first, and those after it. -/
structure Cursor where
  before : List Char
  after : List Char
  captures : List (Nat × List Char)
  deriving Repr, DecidableEq

namespace Cursor

def start (cs : List Char) : Cursor := ⟨[], cs, []⟩

/-- One character further. -/
def step? (c : Cursor) : Option (Char × Cursor) :=
  match c.after with
  | [] => none
  | x :: rest => some (x, { c with before := x :: c.before, after := rest })

/-- Some characters back. -/
def back? : Nat → Cursor → Option Cursor
  | 0, c => some c
  | n + 1, c =>
      match c.before with
      | [] => none
      | x :: rest => back? n { c with before := rest, after := x :: c.after }

/-- The characters between an earlier place and this one. -/
def since (c earlier : Cursor) : List Char :=
  (c.before.take (c.before.length - earlier.before.length)).reverse

/-- Remembers what a group matched, in place of what it matched before. -/
def remember (c : Cursor) (index : Nat) (cs : List Char) : Cursor :=
  { c with captures := (index, cs) :: c.captures.filter fun p => p.1 != index }

/-- What a group matched. -/
def captured? (c : Cursor) (index : Nat) : Option (List Char) :=
  c.captures.lookup index

/-- Goes over a text if it comes next. -/
def skip? (same : Char → Char → Bool) : List Char → Cursor → Option Cursor
  | [], c => some c
  | x :: rest, c =>
      match c.step? with
      | some (y, c') => if same x y then skip? same rest c' else none
      | none => none

end Cursor

/-- Whether a place is one that an anchor asks for. An empty text has neither a boundary nor a place
inside or outside of words. -/
def Anchor.holds (a : Anchor) (asciiOnly : Bool) (c : Cursor) : Bool :=
  let word (x : Option Char) : Bool := x.any fun x => CharClass.word.holds asciiOnly x
  match a with
  | .textStart => c.before.isEmpty
  | .lineStart => c.before.isEmpty || c.before.head? == some '\n'
  | .textEnd => c.after.isEmpty
  | .lineEnd => c.after.isEmpty || c.after.head? == some '\n'
  | .lastLineEnd => c.after.isEmpty || c.after == ['\n']
  | .boundary => word c.before.head? != word c.after.head?
  | .noBoundary =>
      !(c.before.isEmpty && c.after.isEmpty) && word c.before.head? == word c.after.head?

/-- What is left to do after a node. -/
abbrev Rest := Cursor → Option Cursor

/-- Repeats a body. `last` is the place where the latest round that was not demanded began: a round
that ends there again has matched nothing, and no further one is tried. -/
def Greed.loop (greed : Greed) (body : Cursor → Rest → Option Cursor) (least : Nat)
    (most : Option Nat) : Nat → Nat → Option Nat → Cursor → Rest → Option Cursor
  | 0, _, _, c, k => k c
  | fuel + 1, count, last, c, k =>
      let place := c.before.length
      if count < least then
        body c fun c' => greed.loop body least most fuel (count + 1) last c' k
      else
        let more := (most.all fun m => count < m) && last != some place
        let round : Unit → Option Cursor := fun _ =>
          if more then
            body c fun c' => greed.loop body least most fuel (count + 1) (some place) c' k
          else none
        match greed with
        | .lazy => (k c).or (round ())
        | _ => (round ()).or (k c)

/-- Goes one way only: the first that leads anywhere. -/
def decided (body : Cursor → Rest → Option Cursor) : Cursor → Rest → Option Cursor := fun c k =>
  match body c some with
  | some c' => k c'
  | none => none

/-- The ways of a node through the text from a cursor on, the first that `k` accepts. -/
def Node.run : Node → Cursor → Rest → Option Cursor
  | .empty, c, k => k c
  | .one test switches, c, k =>
      match c.step? with
      | some (x, c') => if test.holds switches x then k c' else none
      | none => none
  | .anchor a asciiOnly, c, k => if a.holds asciiOnly c then k c else none
  | .seq a b, c, k => a.run c fun c' => b.run c' k
  | .alt a b, c, k => (a.run c k).or (b.run c k)
  | .rep body least most greed, c, k =>
      let budget := least + c.after.length + 2
      match greed with
      | .possessive =>
          decided (Greed.loop .greedy (decided body.run) least most budget 0 none) c k
      | g => g.loop body.run least most budget 0 none c k
  | .capture index body, c, k => body.run c fun c' => k (c'.remember index (c'.since c))
  | .bracket body, c, k => body.run c k
  | .atomic body, c, k => decided body.run c k
  | .again index s, c, k =>
      match c.captured? index with
      | none => none
      | some cs =>
          let same (x y : Char) : Bool :=
            if s.anyCase then sameSmall s.asciiOnly x y else x == y
          match c.skip? same cs with
          | some c' => k c'
          | none => none
  | .ahead negated body, c, k =>
      match body.run c some, negated with
      | some c', false => k { c with captures := c'.captures }
      | none, true => k c
      | _, _ => none
  | .behind negated width body, c, k =>
      match (c.back? width).bind fun c' => body.run c' some, negated with
      | some c', false => k { c with captures := c'.captures }
      | none, true => k c
      | _, _ => none
  | .given index yes no, c, k =>
      match c.captured? index with
      | some _ => yes.run c k
      | none => no.run c k

/-- A match: what precedes it, what it covers, what follows, and what its groups covered. -/
structure Match where
  before : List Char
  text : List Char
  after : List Char
  captures : List (Nat × List Char)
  deriving Repr, DecidableEq

/-- The match that begins at a place, `before` being what has been passed over. -/
def Node.matchAt (n : Node) (before cs : List Char) : Option Match :=
  let c : Cursor := ⟨before, cs, []⟩
  (n.run c some).map fun c' => ⟨before.reverse, c'.since c, c'.after, c'.captures⟩

/-- The first match that begins at a place or later. -/
def Node.searchFrom (n : Node) (before : List Char) : List Char → Option Match
  | [] => n.matchAt before []
  | x :: rest => (n.matchAt before (x :: rest)).or (n.searchFrom (x :: before) rest)

/-- The first match in a text. -/
def Node.search (n : Node) (cs : List Char) : Option Match :=
  n.searchFrom [] cs

end ApiOutline.Pattern
