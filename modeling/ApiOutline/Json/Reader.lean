import ApiOutline.Decimal.Read
import ApiOutline.Json.Error
import ApiOutline.Value.Basic

/-!
# Reading JSON

The grammar is that of RFC 8259, with three more words for the numbers outside it. Every function
takes the characters that are left and returns those it did not use, so a place in the text is the
number of characters left there; `parse` turns it into an offset at the end.

Nesting is bounded by the text: an opening bracket is used up before what it encloses is read, and
at most two steps are taken for it. A budget of twice the number of characters and two more
therefore never runs out.

A reader may also have room for so many open brackets only. Where one more is opened it gives up,
whatever follows.
-/

namespace ApiOutline.Json

/-- Why reading stopped, and the number of characters left at the place it concerns. -/
inductive Stop where
  | at (reason : Reason) (left : Nat)
  | tooManyDigits (count : Nat)
  | tooDeep
  deriving Repr, DecidableEq

/-- The blanks between the tokens. -/
def isSpace (c : Char) : Bool :=
  c = ' ' ∨ c = '\t' ∨ c = '\n' ∨ c = '\r'

def skipSpace (cs : List Char) : List Char :=
  cs.dropWhile isSpace

/-- The character that a one-letter escape stands for. -/
def simpleEscape : Char → Option Char
  | '"' => some '"'
  | '\\' => some '\\'
  | '/' => some '/'
  | 'b' => some '\x08'
  | 'f' => some '\x0c'
  | 'n' => some '\n'
  | 'r' => some '\r'
  | 't' => some '\t'
  | _ => none

/-- The number written by four digits of base sixteen. -/
def fourDigits : List Char → Option (Nat × List Char)
  | a :: b :: c :: d :: rest =>
      if [a, b, c, d].all Decimal.isHexDigit then some (Decimal.ofDigits 16 [a, b, c, d], rest)
      else none
  | _ => none

def isHighSurrogate (n : Nat) : Bool := 0xd800 ≤ n && n < 0xdc00

def isLowSurrogate (n : Nat) : Bool := 0xdc00 ≤ n && n < 0xe000

/-- The character of a code unit that stands alone. Half a pair has none of its own: texts are made
of whole characters, so all halves are read as one character that takes their place, and a text in
which some stand alone (`hasLoneUnit`) is not read as it is written. -/
def loneUnit (n : Nat) : Char :=
  if 0xd800 ≤ n ∧ n < 0xe000 then '\ufffd' else Char.ofNat n

/-- Whether an escape of half a pair stands without its other half somewhere in a text that is read,
given whether the first half of a pair has just been passed. -/
def hasLoneUnit : Bool → List Char → Bool
  | isOpen, '\\' :: 'u' :: a :: b :: c :: d :: rest =>
      let n := Decimal.ofDigits 16 [a, b, c, d]
      if isLowSurrogate n then !isOpen || hasLoneUnit false rest
      else isOpen || hasLoneUnit (isHighSurrogate n) rest
  | isOpen, '\\' :: _ :: rest => isOpen || hasLoneUnit false rest
  | isOpen, _ :: rest => isOpen || hasLoneUnit false rest
  | isOpen, [] => isOpen

/-- Reads the digits of an escape after its `u`, and a second escape if the two make a pair. The
place of a fault is that of the `u`. -/
def unicodeEscape (cs : List Char) : Except Stop (Char × List Char) :=
  match fourDigits cs with
  | none => .error (.at .badUnicodeEscape (cs.length + 1))
  | some (n, rest) =>
      if rest.isEmpty then .error (.at .badUnicodeEscape (cs.length + 1))
      else if isHighSurrogate n then
        match rest with
        | '\\' :: 'u' :: second =>
            if second.length ≤ 4 then .ok (loneUnit n, rest)
            else
              match fourDigits second with
              | none => .error (.at .badUnicodeEscape (second.length + 1))
              | some (m, after) =>
                  if isLowSurrogate m then
                    .ok (Char.ofNat (0x10000 + (n - 0xd800) * 0x400 + (m - 0xdc00)), after)
                  else .ok (loneUnit n, rest)
        | _ => .ok (loneUnit n, rest)
      else .ok (loneUnit n, rest)

/-- Reads a string after its opening quote, of which `start` tells how much was left there. -/
def stringBody (start : Nat) : Nat → List Char → List Char → Except Stop (String × List Char)
  | 0, _, _ => .error (.at .unterminatedString start)
  | _ + 1, _, [] => .error (.at .unterminatedString start)
  | fuel + 1, acc, c :: cs =>
      if c = '"' then .ok (String.ofList acc.reverse, cs)
      else if c = '\\' then
        match cs with
        | [] => .error (.at .unterminatedString start)
        | e :: rest =>
            if e = 'u' then
              match unicodeEscape rest with
              | .error stop => .error stop
              | .ok (x, after) => stringBody start fuel (x :: acc) after
            else
              match simpleEscape e with
              | some x => stringBody start fuel (x :: acc) rest
              | none => .error (.at .badEscape (cs.length + 1))
      else if c.toNat < 0x20 then .error (.at .controlCharacter (cs.length + 1))
      else stringBody start fuel (c :: acc) cs

/-- Reads a string after its opening quote. -/
def string (cs : List Char) : Except Stop (String × List Char) :=
  stringBody (cs.length + 1) (cs.length + 1) [] cs

/-- Splits the whole part of a number off: one zero, or digits that do not start with one. -/
def wholeDigits : List Char → Option (List Char × List Char)
  | '0' :: cs => some (['0'], cs)
  | c :: cs =>
      if c.isDigit then some (c :: cs.takeWhile Char.isDigit, cs.dropWhile Char.isDigit) else none
  | [] => none

/-- Splits a point with the digits after it off, if there are any. -/
def fractionDigits : List Char → Option (List Char × List Char)
  | '.' :: cs =>
      match cs.takeWhile Char.isDigit with
      | [] => none
      | ds => some (ds, cs.dropWhile Char.isDigit)
  | _ => none

/-- Splits an exponent off, if there is a whole one. -/
def exponentDigits : List Char → Option (Int × List Char)
  | c :: cs =>
      if c = 'e' ∨ c = 'E' then
        let (negative, body) := Decimal.splitSign cs
        match body.takeWhile Char.isDigit with
        | [] => none
        | ds =>
            let n : Int := Decimal.ofDigits 10 ds
            some (if negative then -n else n, body.dropWhile Char.isDigit)
      else none
  | [] => none

/-- Reads a number whose sign has been read. A number with a point or an exponent is a double. -/
def unsigned (negative : Bool) (cs : List Char) : Option (Except Stop (Value × List Char)) :=
  (wholeDigits cs).map fun (whole, afterWhole) =>
    match fractionDigits afterWhole, exponentDigits ((fractionDigits afterWhole).elim
        afterWhole (·.2)) with
    | none, none =>
        if Decimal.digitLimit < whole.length then .error (.tooManyDigits whole.length)
        else
          let n : Int := Decimal.ofDigits 10 whole
          .ok (.int (if negative then -n else n), afterWhole)
    | some (fraction, rest), none =>
        .ok (.float (Decimal.ofParts negative whole fraction 0), rest)
    | none, some (e, rest) => .ok (.float (Decimal.ofParts negative whole [] e), rest)
    | some (fraction, _), some (e, rest) =>
        .ok (.float (Decimal.ofParts negative whole fraction e), rest)

/-- The words of the grammar and those for the numbers outside it. -/
def words : List (List Char × Value) :=
  [("null".toList, .null), ("true".toList, .bool true), ("false".toList, .bool false),
   ("NaN".toList, .float (0.0 / 0.0)), ("Infinity".toList, .float (1.0 / 0.0)),
   ("-Infinity".toList, .float (-(1.0 / 0.0)))]

/-- Reads a word or a number. -/
def scalar (cs : List Char) : Except Stop (Value × List Char) :=
  match words.find? fun w => w.1.isPrefixOf cs with
  | some (w, v) => .ok (v, cs.drop w.length)
  | none =>
      match (match cs with
          | '-' :: rest => unsigned true rest
          | rest => unsigned false rest) with
      | some answer => answer
      | none => .error (.at .expectedValue cs.length)

/-- How many brackets may still be opened; if nothing is given, as many as there are. -/
abbrev Room := Option Nat

/-- Whether no bracket may be opened any more. -/
def Room.isFull (room : Room) : Bool := room == some 0

/-- The room that is left within a bracket. -/
def Room.within (room : Room) : Room := room.map (· - 1)

@[simp] theorem Room.isFull_none : isFull none = false := rfl

@[simp] theorem Room.within_none : within none = none := rfl

mutual

/-- Reads a value that starts with the first character. -/
def value (room : Room) : Nat → List Char → Except Stop (Value × List Char)
  | 0, cs => .error (.at .expectedValue cs.length)
  | _ + 1, '"' :: cs =>
      match string cs with
      | .ok (s, rest) => .ok (.str s, rest)
      | .error stop => .error stop
  | fuel + 1, '\x7b' :: cs =>
      if room.isFull then .error .tooDeep
      else
        match skipSpace cs with
        | '\x7d' :: rest => .ok (.ofMembers [], rest)
        | body =>
            match members room.within fuel body with
            | .ok (ms, rest) => .ok (.ofMembers (Members.ofList ms), rest)
            | .error stop => .error stop
  | fuel + 1, '[' :: cs =>
      if room.isFull then .error .tooDeep
      else
        match skipSpace cs with
        | ']' :: rest => .ok (.list [], rest)
        | body =>
            match elements room.within fuel body with
            | .ok (vs, rest) => .ok (.list vs, rest)
            | .error stop => .error stop
  | _ + 1, cs => scalar cs

/-- Reads the members of an object from the first name on. -/
def members (room : Room) : Nat → List Char → Except Stop (List (Value × Value) × List Char)
  | 0, cs => .error (.at .expectedName cs.length)
  | fuel + 1, '"' :: cs =>
      match string cs with
      | .error stop => .error stop
      | .ok (name, afterName) =>
          match skipSpace afterName with
          | ':' :: afterColon =>
              match value room fuel (skipSpace afterColon) with
              | .error stop => .error stop
              | .ok (v, afterValue) =>
                  match skipSpace afterValue with
                  | '\x7d' :: rest => .ok ([(.str name, v)], rest)
                  | ',' :: rest =>
                      match members room fuel (skipSpace rest) with
                      | .ok (ms, left) => .ok ((.str name, v) :: ms, left)
                      | .error stop => .error stop
                  | rest => .error (.at .expectedComma rest.length)
          | rest => .error (.at .expectedColon rest.length)
  | _ + 1, cs => .error (.at .expectedName cs.length)

/-- Reads the elements of an array from the first one on. -/
def elements (room : Room) : Nat → List Char → Except Stop (List Value × List Char)
  | 0, cs => .error (.at .expectedValue cs.length)
  | fuel + 1, cs =>
      match value room fuel cs with
      | .error stop => .error stop
      | .ok (v, afterValue) =>
          match skipSpace afterValue with
          | ']' :: rest => .ok ([v], rest)
          | ',' :: rest =>
              match elements room fuel (skipSpace rest) with
              | .ok (vs, left) => .ok (v :: vs, left)
              | .error stop => .error stop
          | rest => .error (.at .expectedComma rest.length)

end

/-- Reads a text that holds one value and nothing else, with so much room for brackets. -/
def parseWithin (room : Room) (text : String) : Except Error Value :=
  let cs := text.toList
  let total := cs.length
  let fail (reason : Reason) (left : Nat) : Error := .malformed ⟨reason, total - left⟩
  match cs with
  | '\ufeff' :: _ => .error (fail .byteOrderMark total)
  | _ =>
      match value room (2 * total + 2) (skipSpace cs) with
      | .error (.at reason left) => .error (fail reason left)
      | .error (.tooManyDigits count) => .error (.tooManyDigits count)
      | .error .tooDeep => .error .tooDeep
      | .ok (v, rest) =>
          match skipSpace rest with
          | [] => .ok v
          | left => .error (fail .extraData left.length)

/-- Reads a text that holds one value and nothing else. -/
def parse (text : String) : Except Error Value := parseWithin none text

end ApiOutline.Json
