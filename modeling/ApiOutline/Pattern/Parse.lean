import ApiOutline.Decimal.Read
import ApiOutline.Pattern.Syntax

/-!
# Reading patterns

The notation is the common one of backtracking engines: classes and sets, greedy, lazy and
possessive repetitions, groups with numbers and names, references back to them, conditions on them,
looking ahead and behind, atomic groups, and switches for the whole pattern or a group.

A pattern is refused for what cannot mean anything: a repetition of nothing or of a repetition, a
reference to a group that does not exist or is not closed, a look behind over a distance that is
not fixed. A brace that does not open a repetition is an ordinary character.

Every step of the reader uses up a character of the pattern, so a budget of a few steps for every
character never runs out.
-/

namespace ApiOutline.Pattern

/-- Why a pattern or a replacement is refused. -/
inductive PatternError where
  | malformed
  | hugeCount
  | unknownGroup
  deriving Repr, DecidableEq

/-- What the reader knows: the characters left, the number of the next group, the names and the
widths of the groups so far, the groups that existed when a look behind began, and the greatest
group that a condition asks for. -/
structure Draft where
  left : List Char
  nextGroup : Nat
  names : List (String × Nat)
  widths : List (Nat × Width)
  behindFrom : Option Nat
  asked : Nat
  deriving Repr

abbrev Reading := StateT Draft (Except PatternError)

namespace Reading

def fail {α : Type} : Reading α := throw .malformed

/-- The next character, without using it up. -/
def peek : Reading (Option Char) := do
  pure (← get).left.head?

/-- Uses up the next character. -/
def take : Reading (Option Char) :=
  modifyGet fun d =>
    match d.left with
    | [] => (none, d)
    | c :: rest => (some c, { d with left := rest })

/-- Uses up a character if it comes next. -/
def accept (c : Char) : Reading Bool :=
  modifyGet fun d =>
    match d.left with
    | [] => (false, d)
    | x :: rest => if x = c then (true, { d with left := rest }) else (false, d)

/-- Demands a character. -/
def expect (c : Char) : Reading Unit := do
  if !(← accept c) then fail

/-- Uses up characters of a class, at most so many. -/
def takeWhile (limit : Nat) (p : Char → Bool) : Reading (List Char) :=
  modifyGet fun d =>
    let ds := (d.left.take limit).takeWhile p
    (ds, { d with left := d.left.drop ds.length })

/-- The text up to a closing character, which has to come and is used up. -/
def upTo (close : Char) : Reading (List Char) := do
  let d ← get
  let name := d.left.takeWhile (· != close)
  match d.left.drop name.length with
  | [] => fail
  | _ :: rest =>
      if name.isEmpty then fail
      else
        set { d with left := rest }
        pure name

/-- Whether a text can name a group. -/
def isName (cs : List Char) : Bool :=
  match cs with
  | [] => false
  | c :: rest =>
      (c == '_' || (Text.isAlphanumeric c && !Text.isDecimalDigit c)) &&
        rest.all fun x => x == '_' || Text.isAlphanumeric x

/-- The value of decimal digits of any script. Single underscores may stand between them. -/
def numeral? (cs : List Char) : Option Nat :=
  let parts := Text.splitOn '_' cs
  if parts.any List.isEmpty then none
  else parts.flatten.foldl (fun n c => do return 10 * (← n) + (← Text.decimalValue? c)) (some 0)

/-- The group that a number stands for. Blanks around it and a sign are allowed as long as it is
not negative. -/
def groupNumber? (name : List Char) : Option Nat :=
  let (negative, digits) := Decimal.splitSign (Text.strip name)
  (numeral? digits).filter fun n => !negative || n == 0

/-- A reference to a group that is closed and may be referred to from here. -/
def reference (index : Nat) : Reading Unit := do
  let d ← get
  if (d.widths.lookup index).isNone then fail
  if d.behindFrom.any fun first => first ≤ index then fail

/-- The character that a number denotes. -/
def charOf (n : Nat) : Reading Char :=
  if n.isValidChar then pure (Char.ofNat n) else fail

/-- The digits of an escape by number, all of which have to be there. -/
def hexEscape (count : Nat) : Reading Char := do
  let ds ← takeWhile count Decimal.isHexDigit
  if ds.length < count then fail
  charOf (Decimal.ofDigits 16 ds)

def isOctal (c : Char) : Bool := '0' ≤ c && c ≤ '7'

/-- The control characters with an escape of their own. -/
def controlEscape : Char → Option Char
  | 'a' => some '\x07'
  | 'f' => some '\x0c'
  | 'n' => some '\n'
  | 'r' => some '\r'
  | 't' => some '\t'
  | 'v' => some '\x0b'
  | '\\' => some '\\'
  | _ => none

/-- The named class of an escape. -/
def classEscape : Char → Option (CharClass × Bool)
  | 'd' => some (.digit, false)
  | 'D' => some (.digit, true)
  | 's' => some (.space, false)
  | 'S' => some (.space, true)
  | 'w' => some (.word, false)
  | 'W' => some (.word, true)
  | _ => none

def isAsciiLetter (c : Char) : Bool :=
  c.toNat < 128 && c.isAlpha

/-- The character of an escape that means the same inside and outside of sets. -/
def plainEscape (c : Char) : Reading Char :=
  match controlEscape c with
  | some x => pure x
  | none =>
      if c = 'x' then hexEscape 2
      else if c = 'u' then hexEscape 4
      else if c = 'U' then hexEscape 8
      else if isAsciiLetter c || c.isDigit then fail
      else pure c

/-- A part of a set after a backslash. -/
def setEscape : Reading SetItem := do
  match ← take with
  | none => fail
  | some c =>
      match classEscape c with
      | some (k, negated) => pure (.named k negated)
      | none =>
          if c = 'b' then pure (.char '\x08')
          else if isOctal c then
            let n := Decimal.ofDigits 8 (c :: (← takeWhile 2 isOctal))
            if 0o377 < n then fail else pure (.char (Char.ofNat n))
          else SetItem.char <$> plainEscape c

/-- One part of a set, before it is known whether it begins a range. -/
def setPart (c : Char) : Reading SetItem :=
  if c = '\\' then setEscape else pure (.char c)

/-- The rest of a set, `items` being its parts so far, last first. -/
def setRest : Nat → List SetItem → Reading (List SetItem)
  | 0, _ => fail
  | fuel + 1, items => do
      match ← take with
      | none => fail
      | some c =>
          if c = ']' ∧ items ≠ [] then pure items.reverse
          else
            let first ← setPart c
            if !(← accept '-') then setRest fuel (first :: items)
            else
              match ← take with
              | none => fail
              | some ']' => pure (SetItem.char '-' :: first :: items).reverse
              | some d =>
                  match first, ← setPart d with
                  | .char low, .char high =>
                      if high < low then fail else setRest fuel (.range low high :: items)
                  | _, _ => fail

/-- An escape outside of sets. -/
def escape (s : Switches) : Reading Node := do
  match ← take with
  | none => fail
  | some c =>
      match classEscape c with
      | some (k, negated) => pure (.one (.set false [.named k negated]) s)
      | none =>
          if c = 'A' then pure (.anchor .textStart s.asciiOnly)
          else if c = 'Z' then pure (.anchor .textEnd s.asciiOnly)
          else if c = 'b' then pure (.anchor .boundary s.asciiOnly)
          else if c = 'B' then pure (.anchor .noBoundary s.asciiOnly)
          else if c = '0' then
            let n := Decimal.ofDigits 8 (← takeWhile 2 isOctal)
            pure (.one (.char (Char.ofNat n)) s)
          else if c.isDigit then
            let second ← takeWhile 1 Char.isDigit
            let third ←
              if (c :: second).all isOctal && !second.isEmpty then takeWhile 1 isOctal
              else pure []
            if third.isEmpty then
              let index := Decimal.ofDigits 10 (c :: second)
              reference index
              pure (.again index s)
            else
              let n := Decimal.ofDigits 8 (c :: second ++ third)
              if 0o377 < n then fail else pure (.one (.char (Char.ofNat n)) s)
          else return .one (.char (← plainEscape c)) s

/-- A number of rounds that an engine can count to. An escape without a character next to it is
the graver fault. -/
def count (ds : List Char) : Reading Nat := do
  let n := Decimal.ofDigits 10 ds
  if n < 4294967295 then pure n
  else if (← get).left == ['\\'] then fail
  else throw .hugeCount

/-- The bounds of a repetition after its first character, or nothing if that is an ordinary
character after all. -/
def bounds (c : Char) : Reading (Option (Nat × Option Nat)) := do
  if c = '?' then pure (some (0, some 1))
  else if c = '*' then pure (some (0, none))
  else if c = '+' then pure (some (1, none))
  else
    let before ← get
    if before.left.head? == some '\x7d' then pure none
    else
      let low ← takeWhile before.left.length Char.isDigit
      let high ←
        if ← accept ',' then some <$> takeWhile before.left.length Char.isDigit else pure none
      if !(← accept '\x7d') then
        set before
        pure none
      else
        let least ← if low.isEmpty then pure 0 else count low
        let most ←
          match high with
          | none => if low.isEmpty then pure none else pure (some least)
          | some [] => pure none
          | some ds => some <$> count ds
        if most.any fun m => m < least then fail
        pure (some (least, most))

/-- A repetition of the latest node. -/
def repeated (least : Nat) (most : Option Nat) : List Node → Reading (List Node)
  | [] => fail
  | n :: rest => do
      match n with
      | .anchor _ _ => fail
      | .rep _ _ _ _ => fail
      | _ =>
          let greed ←
            if ← accept '?' then pure Greed.lazy
            else if ← accept '+' then pure Greed.possessive
            else pure Greed.greedy
          pure (.rep n least most greed :: rest)

/-- Sets a switch by its letter. -/
def switchOf : Char → Option (Switches → Switches)
  | 'i' => some fun s => { s with anyCase := true }
  | 'm' => some fun s => { s with everyLine := true }
  | 's' => some fun s => { s with dotAll := true }
  | 'x' => some fun s => { s with verbose := true }
  | 'a' => some fun s => { s with asciiOnly := true }
  | 'u' => some fun s => { s with asciiOnly := false }
  | 't' => some id
  | _ => none

/-- Clears a switch by its letter. The two that choose the alphabet cannot be cleared. -/
def clearOf : Char → Option (Switches → Switches)
  | 'i' => some fun s => { s with anyCase := false }
  | 'm' => some fun s => { s with everyLine := false }
  | 's' => some fun s => { s with dotAll := false }
  | 'x' => some fun s => { s with verbose := false }
  | 't' => some id
  | _ => none

/-- The letters that switch something, up to the character that ends them. -/
def letters : Nat → List Char → Reading (List Char × Char)
  | 0, _ => fail
  | fuel + 1, seen => do
      match ← take with
      | none => fail
      | some c =>
          if c = ')' ∨ c = '-' ∨ c = ':' then pure (seen.reverse, c)
          else if (switchOf c).isSome then letters fuel (c :: seen)
          else fail

/-- The switches of a group after its question mark: their new setting, and whether they hold for
the rest of the pattern rather than for the group. -/
def switches (s : Switches) : Reading (Switches × Bool) := do
  let fuel := (← get).left.length + 1
  let (on, close) ← letters fuel []
  if on.contains 'a' && on.contains 'u' then fail
  let s' := on.foldl (fun s c => ((switchOf c).getD id) s) s
  if close = ')' then
    if on.isEmpty then fail else pure (s', true)
  else if close = ':' then
    if on.isEmpty then fail else pure (s', false)
  else
    let (off, close) ← letters fuel []
    if close ≠ ':' || off.isEmpty then fail
    if off.any fun c => (clearOf c).isNone || on.contains c then fail
    pure (off.foldl (fun s c => ((clearOf c).getD id) s) s', false)

/-- Skips blanks and comments in front of the next token. -/
def skipDecoration : Nat → Reading Unit
  | 0 => pure ()
  | fuel + 1 => do
      match ← peek with
      | some '#' =>
          modify fun d => { d with left := (d.left.dropWhile (· != '\n')).drop 1 }
          skipDecoration fuel
      | some c =>
          if c = ' ' || (9 ≤ c.toNat && c.toNat ≤ 13) then
            modify fun d => { d with left := d.left.drop 1 }
            skipDecoration fuel
          else pure ()
      | none => pure ()

/-- Nodes one after the other, given last first. -/
def inOrder : List Node → Node
  | [] => .empty
  | [n] => n
  | n :: rest => rest.foldl (fun acc m => .seq m acc) n

/-- Opens a group. -/
def openGroup (name : Option (List Char)) : Reading Nat := do
  let d ← get
  match name with
  | none => pure ()
  | some cs => if (d.names.lookup (String.ofList cs)).isSome then fail
  set { d with
    nextGroup := d.nextGroup + 1
    names := (name.map fun cs => (String.ofList cs, d.nextGroup)).toList ++ d.names }
  pure d.nextGroup

/-- Closes a group. -/
def closeGroup (index : Nat) (body : Node) : Reading Unit :=
  modify fun d => { d with widths := (index, body.width fun i => d.widths.lookup i) :: d.widths }

/-- The group that a condition asks for, by name or by number. -/
def condition : Reading Nat := do
  let name ← upTo ')'
  let index ←
    if isName name then
      match (← get).names.lookup (String.ofList name) with
      | some i => pure i
      | none => fail
    else
      match groupNumber? name with
      | some n => pure n
      | none => fail
  if index = 0 then fail
  let d ← get
  if d.behindFrom.isSome then reference index
  set { d with asked := max d.asked index }
  pure index

mutual

/-- Alternatives up to the end of a group or of the pattern. -/
def alternatives : Nat → Switches → Reading Node
  | 0, _ => fail
  | fuel + 1, s => do
      let first ← sequence fuel s []
      if ← accept '|' then return .alt first (← alternatives fuel s)
      else pure first

/-- Nodes up to the end of an alternative, `done` being those so far, last first. -/
def sequence : Nat → Switches → List Node → Reading Node
  | 0, _, _ => fail
  | fuel + 1, s, done => do
      if s.verbose then skipDecoration (← get).left.length
      match ← peek with
      | none => pure (inOrder done)
      | some '|' => pure (inOrder done)
      | some ')' => pure (inOrder done)
      | some c =>
          let _ ← take
          if c = '\\' then
            let n ← escape s
            sequence fuel s (n :: done)
          else if c = '[' then
            let negated ← accept '^'
            let items ← setRest ((← get).left.length + 1) []
            sequence fuel s (.one (.set negated items) s :: done)
          else if c = '.' then sequence fuel s (.one .any s :: done)
          else if c = '^' then
            sequence fuel s
              (.anchor (if s.everyLine then .lineStart else .textStart) s.asciiOnly :: done)
          else if c = '$' then
            sequence fuel s
              (.anchor (if s.everyLine then .lineEnd else .lastLineEnd) s.asciiOnly :: done)
          else if c = '*' || c = '+' || c = '?' || c = '\x7b' then
            match ← bounds c with
            | none => sequence fuel s (.one (.char c) s :: done)
            | some (least, most) =>
                let done' ← repeated least most done
                sequence fuel s done'
          else if c = '(' then
            if ← accept '?' then special fuel s done
            else
              let index ← openGroup none
              let body ← alternatives fuel s
              expect ')'
              closeGroup index body
              sequence fuel s (.capture index body :: done)
          else sequence fuel s (.one (.char c) s :: done)

/-- A group after its opening parenthesis and question mark, and what follows it. -/
def special : Nat → Switches → List Node → Reading Node
  | 0, _, _ => fail
  | fuel + 1, s, done => do
      match ← peek with
      | none => fail
      | some 'P' =>
          let _ ← take
          if ← accept '<' then
            let name ← upTo '>'
            if !isName name then fail
            let index ← openGroup (some name)
            let body ← alternatives fuel s
            expect ')'
            closeGroup index body
            sequence fuel s (.capture index body :: done)
          else if ← accept '=' then
            let name ← upTo ')'
            match (← get).names.lookup (String.ofList name) with
            | none => fail
            | some index =>
                reference index
                sequence fuel s (.again index s :: done)
          else fail
      | some ':' =>
          let _ ← take
          let body ← alternatives fuel s
          expect ')'
          sequence fuel s (.bracket body :: done)
      | some '#' =>
          let rest := (← get).left.dropWhile (· != ')')
          if rest.isEmpty then fail
          modify fun d => { d with left := rest.drop 1 }
          sequence fuel s done
      | some '=' =>
          let _ ← take
          let body ← alternatives fuel s
          expect ')'
          sequence fuel s (.ahead false body :: done)
      | some '!' =>
          let _ ← take
          let body ← alternatives fuel s
          expect ')'
          sequence fuel s (.ahead true body :: done)
      | some '<' =>
          let _ ← take
          let sign ← take
          if sign ≠ some '=' && sign ≠ some '!' then fail
          let outer := (← get).behindFrom
          modify fun d => { d with behindFrom := some (outer.getD d.nextGroup) }
          let body ← alternatives fuel s
          modify fun d => { d with behindFrom := outer }
          expect ')'
          let d ← get
          let w := body.width fun i => d.widths.lookup i
          if w.most ≠ some w.least then fail
          sequence fuel s (.behind (sign == some '!') w.least body :: done)
      | some '(' =>
          let _ ← take
          let index ← condition
          let yes ← sequence fuel s []
          let no ← if ← accept '|' then sequence fuel s [] else pure .empty
          expect ')'
          sequence fuel s (.given index yes no :: done)
      | some '>' =>
          let _ ← take
          let body ← alternatives fuel s
          expect ')'
          sequence fuel s (.atomic body :: done)
      | some _ =>
          let (s', whole) ← switches s
          if whole then fail
          else
            let body ← alternatives fuel s'
            expect ')'
            sequence fuel s (.bracket body :: done)

end

/-- The switches for the whole of a pattern, which stand at its very start, possibly after comments.
What follows them is left. -/
def preamble : Nat → Switches → Reading Switches
  | 0, s => pure s
  | fuel + 1, s => do
      if s.verbose then skipDecoration (← get).left.length
      let before ← get
      match before.left with
      | '(' :: '?' :: '#' :: rest =>
          match rest.dropWhile (· != ')') with
          | [] => fail
          | _ :: rest =>
              set { before with left := rest }
              preamble fuel s
      | '(' :: '?' :: c :: rest =>
          if (switchOf c).isNone then pure s
          else
            set { before with left := c :: rest }
            let (s', whole) ← switches s
            if whole then preamble fuel s'
            else
              set before
              pure s
      | _ => pure s

end Reading

/-- A pattern that has been read: its tree, and how many groups it has, by number and by name. -/
structure Compiled where
  node : Node
  groups : Nat
  names : List (String × Nat)
  deriving Repr

/-- Reads a pattern. -/
def compile (text : String) : Except PatternError Compiled := do
  let cs := text.toList
  let start : Draft := ⟨cs, 1, [], [], none, 0⟩
  let read : Reading Node := do
    let s ← Reading.preamble cs.length {}
    Reading.alternatives (4 * cs.length + 4) s
  let (node, d) ← read.run start
  if !d.left.isEmpty || d.nextGroup ≤ d.asked then throw .malformed
  pure ⟨node, d.nextGroup - 1, d.names⟩

end ApiOutline.Pattern
