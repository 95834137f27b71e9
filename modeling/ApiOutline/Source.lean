import ApiOutline.Action
import ApiOutline.Document

/-!
# Where documents come from

A document is read from the standard input, from a server or from a file. A file is recognised by
the end of its name and an answer by its declared content type; without such a hint the notation is
found out by trying.
-/

namespace ApiOutline.Source

/-- The hint in the last part of a name. -/
def hintOfSuffix (suffix : String) : Document.Hint :=
  let s := Text.lower suffix
  if s = ".json" then .json else if s = ".yaml" ∨ s = ".yml" then .yaml else .unknown

/-- Whether a text holds another. -/
def holds (part text : String) : Bool := Text.occursIn part.toList text.toList

/-- The hint in a content type. -/
def hintOfType (contentType : String) : Document.Hint :=
  if holds "json" contentType then .json
  else if holds "yaml" contentType || holds "yml" contentType then .yaml
  else .unknown

/-! ## The characters of an answer -/

/-- How the characters of an answer are encoded. -/
inductive Encoding where
  | utf8
  | ascii
  | latin1
  | western
  | utf16
  deriving Repr, DecidableEq

/-- A name in small letters, with one kind of hyphen and without quotes. -/
def plainName (cs : List Char) : String :=
  let cs := (Text.strip cs).filter (· != '"')
  String.ofList (cs.map fun c => if c == '_' || c == ' ' then '-' else c.toLower)

/-- The encodings that are told apart, by their names. -/
def encodings : List (String × Encoding) :=
  [("utf-8", .utf8), ("utf8", .utf8), ("us-ascii", .ascii), ("ascii", .ascii),
   ("iso-8859-1", .latin1), ("iso8859-1", .latin1), ("latin-1", .latin1), ("latin1", .latin1),
   ("l1", .latin1), ("windows-1252", .western), ("cp1252", .western), ("utf-16", .utf16),
   ("utf16", .utf16)]

/-- The value of a parameter `charset`. -/
def charset? (parameter : List Char) : Option (List Char) :=
  let name := parameter.takeWhile (· != '=')
  if plainName name = "charset" ∧ name.length < parameter.length then
    some (parameter.drop (name.length + 1))
  else none

/-- The name of the encoding in a content type. -/
def encodingName? (contentType : String) : Option String :=
  (((Text.splitOn ';' contentType.toList).drop 1).findSome? charset?).map plainName

/-- The characters for the bytes from 128 to 159 on systems of the western languages. -/
def westernTable : List Nat :=
  [0x20ac, 0xfffd, 0x201a, 0x0192, 0x201e, 0x2026, 0x2020, 0x2021, 0x02c6, 0x2030, 0x0160, 0x2039,
   0x0152, 0xfffd, 0x017d, 0xfffd, 0xfffd, 0x2018, 0x2019, 0x201c, 0x201d, 0x2022, 0x2013, 0x2014,
   0x02dc, 0x2122, 0x0161, 0x203a, 0x0153, 0xfffd, 0x017e, 0x0178]

/-- The character for a byte in a language of the west. -/
def westernChar (b : UInt8) : Char :=
  let n := b.toNat
  if 0x80 ≤ n ∧ n < 0xa0 then Char.ofNat (westernTable.getD (n - 0x80) 0xfffd) else Char.ofNat n

/-- The units of two bytes in a sequence, and whether a byte is left over. -/
def units (bigFirst : Bool) : List Nat → List Nat × Bool
  | a :: b :: rest =>
      let (more, left) := units bigFirst rest
      ((if bigFirst then a * 256 + b else b * 256 + a) :: more, left)
  | [] => ([], false)
  | [_] => ([], true)

/-- The characters that units of sixteen bits stand for. -/
def ofUnits : List Nat → List Char
  | a :: b :: rest =>
      if 0xd800 ≤ a ∧ a < 0xdc00 then
        if 0xdc00 ≤ b ∧ b < 0xe000 then
          Char.ofNat (0x10000 + (a - 0xd800) * 0x400 + (b - 0xdc00)) :: ofUnits rest
        else '\ufffd' :: ofUnits (b :: rest)
      else (if 0xdc00 ≤ a ∧ a < 0xe000 then '\ufffd' else Char.ofNat a) :: ofUnits (b :: rest)
  | [a] => [if 0xd800 ≤ a ∧ a < 0xe000 then '\ufffd' else Char.ofNat a]
  | [] => []

/-- The text of bytes in pairs. A mark at the start says which byte of a pair comes first. -/
def ofUtf16 (bs : List Nat) : List Char :=
  let (us, left) :=
    match bs with
    | 0xff :: 0xfe :: rest => units false rest
    | 0xfe :: 0xff :: rest => units true rest
    | rest => units false rest
  ofUnits us ++ (if left then ['\ufffd'] else [])

/-- The text of bytes in an encoding. What is no character becomes a replacement character. -/
def encodedText (e : Encoding) (body : List UInt8) : String :=
  match e with
  | .utf8 => Text.decodeUtf8Lossy body
  | .ascii => String.ofList (body.map fun b => if b < 128 then Char.ofNat b.toNat else '\ufffd')
  | .latin1 => String.ofList (body.map fun b => Char.ofNat b.toNat)
  | .western => String.ofList (body.map westernChar)
  | .utf16 => String.ofList (ofUtf16 (body.map UInt8.toNat))

/-- The text of the bytes of an answer. An unknown name of an encoding is as good as none. -/
def answerText (codecs : List (String × Codec)) (contentType : String) (body : List UInt8) :
    Except Failure String :=
  match encodingName? contentType with
  | none => .ok (encodedText .utf8 body)
  | some name =>
      match encodings.lookup name, codecs.lookup name with
      | some e, _ => .ok (encodedText e body)
      | none, none => .ok (encodedText .utf8 body)
      | none, some codec =>
          match codec body with
          | some text => .ok text
          | none => .error .undecodable

/-! ## Reading -/

/-- What a source yields: a text and what is known about its notation. -/
abbrev Content := String × Document.Hint

/-- The text of bytes from a file or the input. -/
def fileText (bs : List UInt8) : Except Failure String :=
  match Text.decodeUtf8? bs with
  | some s => .ok (String.ofList (Text.unifyLineEnds s.toList))
  | none => .error .notUnicode

/-- Whether a source is the address of a document on a server. -/
def isAddress (source : String) : Bool :=
  "http://".toList.isPrefixOf source.toList || "https://".toList.isPrefixOf source.toList

/-- What a server answers. -/
def fetch (h : Host) (url : String) : Except Failure Content :=
  match h.reply with
  | .failed reason => .error (.spec (.unreachable url reason))
  | .response status contentType body =>
      if 200 ≤ status ∧ status < 300 then
        let type := contentType.getD ""
        (answerText h.codecs type body).map fun text => (text, hintOfType type)
      else .error (.spec (.status status url))

/-- The content of a file. -/
def ofFile (h : Host) (p : Path) : Except Failure Content :=
  match h.files.fileAt? h.directory p with
  | .error e => .error (.file e)
  | .ok none => .error (.spec (.notFound p.text))
  | .ok (some bs) => (fileText bs).map fun s => (s, hintOfSuffix p.suffix)

/-- The content of a source. -/
def content (h : Host) (source : String) : Except Failure Content :=
  if source = "-" then (fileText h.input).map fun s => (s, .unknown)
  else if isAddress source then fetch h source
  else ofFile h (.ofText source)

/-- The document that a source holds. -/
def read (stack : Document.Stack) (h : Host) (source : String) : Logged Document.Loaded := do
  let (text, hint) ← Logged.ofExcept (content h source)
  if Text.isBlankText text then Logged.fail (.spec (.empty source))
  else do
    Logged.note (.loaded text.length source)
    Document.decode stack hint text

/-- The value of the document that a source holds, on a stack that it does not use up. -/
def load (h : Host) (source : String) : Logged Value := do
  Logged.ofExcept (← read .ample h source).value

end ApiOutline.Source
