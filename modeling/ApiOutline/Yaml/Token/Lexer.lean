import ApiOutline.Yaml.Token

/-!
# Cutting a text into tokens

Most tokens are recognised by their first character. Two things need memory. Indentation: the
columns of the open blocks are kept, and a line that starts further left closes those it leaves.
And keys: that something is the key of a mapping shows only at the colon after it. So at every
place where a key may begin its token number is remembered, once for each level of brackets, and
at the colon the sign for a key is put in front of that token. A key without a question mark has
to fit on one line and into 1024 characters.
-/

namespace ApiOutline.Yaml

/-- A place where a key may have begun. -/
structure KeyPlace where
  /-- The number of tokens before it. -/
  token : Nat
  index : Nat
  line : Nat
  column : Nat
  /-- Whether nothing but a key can stand there. -/
  required : Bool

/-- The memory of the lexer. -/
structure Lexer where
  cursor : Cursor
  /-- The tokens, the last one first, and their number. -/
  tokens : List Token
  count : Nat
  /-- The column of the innermost block, and those of the blocks around it. -/
  indent : Int
  outer : List Int
  /-- The places of keys, one for each level of brackets, the innermost first. -/
  keys : List (Option KeyPlace)
  allowsKey : Bool

namespace Lexer

def start (text : List Char) : Lexer where
  cursor := .start text
  tokens := []
  count := 0
  indent := -1
  outer := []
  keys := [none]
  allowsKey := true

/-- Whether the lexer is inside brackets. -/
def inFlow (l : Lexer) : Bool := 1 < l.keys.length

def column (l : Lexer) : Int := l.cursor.column

def push (t : Token) (l : Lexer) : Lexer :=
  { l with tokens := t :: l.tokens, count := l.count + 1 }

/-- Puts a token in front of the one with a number. -/
def insert (number : Nat) (t : Token) (l : Lexer) : Lexer :=
  let later := l.count - number
  { l with tokens := l.tokens.take later ++ t :: l.tokens.drop later, count := l.count + 1 }

def moveTo (c : Cursor) (l : Lexer) : Lexer := { l with cursor := c }

def allowKey (b : Bool) (l : Lexer) : Lexer := { l with allowsKey := b }

/-- Closes the blocks that a column leaves. Inside brackets indentation does not count. -/
def closeTo (column : Int) (l : Lexer) : Lexer :=
  if l.inFlow then l else go l.outer l
where
  go : List Int → Lexer → Lexer
    | [], l => l
    | i :: rest, l =>
        if column < l.indent then go rest ({ l with indent := i, outer := rest }.push .blockEnd)
        else l

/-- Opens a block at a column, unless the innermost one has it. -/
def openAt (column : Int) (l : Lexer) : Bool × Lexer :=
  if l.indent < column then (true, { l with indent := column, outer := l.indent :: l.outer })
  else (false, l)

/-- Whether a place is too far back for a key to have begun there. -/
def isStale (c : Cursor) (k : KeyPlace) : Bool :=
  k.line != c.line || decide (k.index + 1024 < c.index)

/-- Forgets the places that are too far back. -/
def forgetStale (l : Lexer) : Except Error Lexer :=
  let stale (k : Option KeyPlace) : Bool := k.any (isStale l.cursor)
  if l.keys.any fun k => stale k && k.any (·.required) then .error .malformed
  else .ok { l with keys := l.keys.map fun k => if stale k then none else k }

/-- The place of a key at the level of brackets where the lexer is. -/
def keyHere (l : Lexer) : Option KeyPlace := l.keys.head?.join

def setKey (k : Option KeyPlace) (l : Lexer) : Lexer := { l with keys := k :: l.keys.drop 1 }

/-- Forgets the place of a key at this level. -/
def forgetKey (l : Lexer) : Except Error Lexer :=
  if l.keyHere.any (·.required) then .error .malformed else .ok (l.setKey none)

/-- Remembers that a key may begin here. -/
def markKey (l : Lexer) : Except Error Lexer :=
  if l.allowsKey then do
    let l ← l.forgetKey
    let required := !l.inFlow && l.indent == l.column
    return l.setKey
      (some ⟨l.count, l.cursor.index, l.cursor.line, l.cursor.column, required⟩)
  else .ok l

/-- Passes over blanks, comments and line ends. After a line end a key may begin. -/
def skipToToken : Nat → Lexer → Lexer
  | 0, l => l
  | fuel + 1, l =>
      let c := l.cursor.skipComment
      match c.lineBreak with
      | none => l.moveTo c
      | some (_, c) =>
          let l := l.moveTo c
          skipToToken fuel (if l.inFlow then l else l.allowKey true)

/-- The lexer at the next token, with the blocks closed that end before it. -/
def advance (l : Lexer) : Except Error Lexer := do
  let l :=
    if l.cursor.index == 0 && l.cursor.peek == some '\ufeff' then l.moveTo l.cursor.next else l
  let l ← (skipToToken (l.cursor.rest.length + 1) l).forgetStale
  return l.closeTo l.column

/-- Ends all blocks, as a directive and the marks of a document do. -/
def endBlocks (l : Lexer) : Except Error Lexer := do
  return (← (l.closeTo (-1)).forgetKey).allowKey false

/-- A mark of three characters. -/
def mark (t : Token) (l : Lexer) : Except Error Lexer := do
  let l ← l.endBlocks
  return (l.moveTo (l.cursor.forward 3)).push t

def openBracket (t : Token) (l : Lexer) : Except Error Lexer := do
  let l ← l.markKey
  return (({ l with keys := none :: l.keys }.allowKey true).moveTo l.cursor.next).push t

def closeBracket (t : Token) (l : Lexer) : Except Error Lexer := do
  if l.inFlow then
    let l ← l.forgetKey
    return (({ l with keys := l.keys.drop 1 }.allowKey false).moveTo l.cursor.next).push t
  else throw .malformed

/-- Opens a block at this column, where a key may begin. -/
def openHere (t : Token) (l : Lexer) : Except Error Lexer :=
  if l.inFlow then .ok l
  else if l.allowsKey then
    let (opened, l) := l.openAt l.column
    .ok (if opened then l.push t else l)
  else .error .malformed

def comma (l : Lexer) : Except Error Lexer := do
  let l ← (l.allowKey true).forgetKey
  return (l.moveTo l.cursor.next).push .flowEntry

def dash (l : Lexer) : Except Error Lexer := do
  let l ← l.openHere .blockSequence
  let l ← (l.allowKey true).forgetKey
  return (l.moveTo l.cursor.next).push .blockEntry

def question (l : Lexer) : Except Error Lexer := do
  let l ← l.openHere .blockMapping
  let l ← (l.allowKey !l.inFlow).forgetKey
  return (l.moveTo l.cursor.next).push .key

/-- Puts the sign for a key, and where it opens a block that of the block, in front of a key. -/
def insertKey (k : KeyPlace) (l : Lexer) : Lexer :=
  let l := l.insert k.token .key
  if l.inFlow then l
  else
    let (opened, l) := l.openAt k.column
    if opened then l.insert k.token .blockMapping else l

def colon (l : Lexer) : Except Error Lexer := do
  let l ←
    match l.keyHere with
    | some k => pure (((l.setKey none).insertKey k).allowKey false)
    | none => do
        let l ← l.openHere .blockMapping
        (l.allowKey !l.inFlow).forgetKey
  return (l.moveTo l.cursor.next).push .value

/-- A token that may be a key by itself. -/
def atom (scan : Cursor → Except Error (Token × Cursor)) (l : Lexer) : Except Error Lexer := do
  let l ← l.markKey
  let (t, c) ← scan l.cursor
  return ((l.allowKey false).moveTo c).push t

def named (make : String → Token) (c : Cursor) : Except Error (Token × Cursor) := do
  let (name, c) ← Token.scanName c
  return (make name, c)

def quoted (quote : Char) (c : Cursor) : Except Error (Token × Cursor) := do
  let (text, c) ← Quoted.scan quote c
  return (.scalar (String.ofList text) false, c)

/-- A block scalar. It is no key, but one may follow it. -/
def block (isFolded : Bool) (l : Lexer) : Except Error Lexer := do
  let l ← (l.allowKey true).forgetKey
  let (text, c) ← Block.scan isFolded l.indent l.cursor
  return (l.moveTo c).push (.scalar (String.ofList text) false)

def plain (l : Lexer) : Except Error Lexer := do
  let l ← l.markKey
  let s := Plain.scan l.inFlow (l.indent + 1) l.cursor
  return ((l.allowKey s.crossesLine).moveTo s.cursor).push (.scalar (String.ofList s.text) true)

/-- Whether a character can begin no plain scalar, what follows it aside. -/
def isIndicator (c : Char) : Bool :=
  isBlank c || "-?:,[]\x7b\x7d#&*!|>'\"%@`".toList.contains c

/-- Whether a plain scalar begins here. -/
def startsPlain (l : Lexer) (c : Char) : Bool :=
  !isIndicator c ||
    (!endsToken (l.cursor.peekAt 1) && (c == '-' || (!l.inFlow && (c == '?' || c == ':'))))

/-- Reads the token that begins with a character. -/
def token (l : Lexer) (ch : Char) : Except Error Lexer :=
  let atLineStart := l.cursor.column == 0
  let alone := endsToken (l.cursor.peekAt 1)
  if ch == '%' && atLineStart then do
    let l ← l.endBlocks
    let (t, c) ← Token.scanDirective l.cursor
    return (l.moveTo c).push t
  else if atLineStart && l.cursor.atMarks '-' then l.mark .documentStart
  else if atLineStart && l.cursor.atMarks '.' then l.mark .documentEnd
  else if ch == '[' then l.openBracket .flowSequence
  else if ch == '\x7b' then l.openBracket .flowMapping
  else if ch == ']' then l.closeBracket .flowSequenceEnd
  else if ch == '\x7d' then l.closeBracket .flowMappingEnd
  else if ch == ',' then l.comma
  else if ch == '-' && alone then l.dash
  else if ch == '?' && (l.inFlow || alone) then l.question
  else if ch == ':' && (l.inFlow || alone) then l.colon
  else if ch == '*' then l.atom (named .alias)
  else if ch == '&' then l.atom (named .anchor)
  else if ch == '!' then l.atom Token.scanTag
  else if ch == '|' && !l.inFlow then l.block false
  else if ch == '>' && !l.inFlow then l.block true
  else if ch == '\'' || ch == '"' then l.atom (quoted ch)
  else if l.startsPlain ch then l.plain
  else .error .malformed

/-- Reads tokens up to the end of the text or to what is none. -/
def run : Nat → Lexer → List Token × Option Error
  | 0, l => (l.tokens.reverse, some .malformed)
  | fuel + 1, l =>
      match l.advance with
      | .error e => (l.tokens.reverse, some e)
      | .ok l =>
          match l.cursor.peek with
          | none =>
              match (l.closeTo (-1)).forgetKey with
              | .ok l => (l.tokens.reverse, none)
              | .error e => (l.tokens.reverse, some e)
          | some ch =>
              match l.token ch with
              | .ok l => run fuel l
              | .error e => (l.tokens.reverse, some e)

end Lexer

/-- The tokens of a text, and what is wrong after the last of them, if anything is. -/
def Token.ofText (text : List Char) : List Token × Option Error :=
  if text.all isPrintable then Lexer.run (text.length + 1) (.start text)
  else ([], some .malformed)

end ApiOutline.Yaml
