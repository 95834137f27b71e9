import ApiOutline.Pattern.Parse
import ApiOutline.Pattern.Search

/-!
# Replacing the first match

A replacement is a text with references to groups, by number after a backslash or by number or name
in angle brackets. It is read against the pattern it belongs to, before anything is searched, so a
bad reference is found even where the pattern does not match. A group that matched nothing
contributes nothing.
-/

namespace ApiOutline.Pattern

/-- A part of a replacement. -/
inductive Piece where
  | text (cs : List Char)
  | group (index : Nat)
  deriving Repr, DecidableEq

/-- A reference to a group that exists. Group zero is the whole match. -/
def groupPiece (groups index : Nat) : Except PatternError Piece :=
  if groups < index then .error .malformed else .ok (.group index)

/-- The group that a name in angle brackets stands for. -/
def namedPiece (p : Compiled) (name : List Char) : Except PatternError Piece :=
  if Reading.isName name then
    match p.names.lookup (String.ofList name) with
    | some index => .ok (.group index)
    | none => .error .unknownGroup
  else
    match Reading.groupNumber? name with
    | some index => groupPiece p.groups index
    | none => .error .malformed

/-- Reads what follows a backslash: the part, and the characters left. -/
def replacementEscape (p : Compiled) : List Char → Except PatternError (Piece × List Char)
  | [] => .error .malformed
  | 'g' :: '<' :: cs =>
      let name := cs.takeWhile (· != '>')
      match cs.drop name.length with
      | [] | [_, '\\'] => .error .malformed
      | _ :: rest => (namedPiece p name).map fun piece => (piece, rest)
  | c :: cs =>
      if c = '0' then
        let ds := (cs.take 2).takeWhile Reading.isOctal
        .ok (.text [Char.ofNat (Decimal.ofDigits 8 ds % 256)], cs.drop ds.length)
      else if c.isDigit then
        let second := (cs.take 1).takeWhile Char.isDigit
        let afterSecond := cs.drop second.length
        let third :=
          if (c :: second).all Reading.isOctal && !second.isEmpty then
            (afterSecond.take 1).takeWhile Reading.isOctal
          else []
        if third.isEmpty then
          (groupPiece p.groups (Decimal.ofDigits 10 (c :: second))).map fun piece =>
            (piece, afterSecond)
        else
          let n := Decimal.ofDigits 8 (c :: second ++ third)
          if 0o377 < n then .error .malformed
          else .ok (.text [Char.ofNat n], afterSecond.drop 1)
      else if c = 'b' then .ok (.text ['\x08'], cs)
      else
        match Reading.controlEscape c with
        | some x => .ok (.text [x], cs)
        | none =>
            if Reading.isAsciiLetter c then .error .malformed else .ok (.text ['\\', c], cs)

/-- Reads a replacement from a place on. -/
def pieces (p : Compiled) : Nat → List Char → Except PatternError (List Piece)
  | 0, _ => .ok []
  | _ + 1, [] => .ok []
  | fuel + 1, c :: cs =>
      if c = '\\' then
        match replacementEscape p cs with
        | .error e => .error e
        | .ok (piece, rest) => (pieces p fuel rest).map (piece :: ·)
      else (pieces p fuel cs).map (.text [c] :: ·)

/-- Reads a replacement. -/
def compileReplacement (p : Compiled) (text : String) : Except PatternError (List Piece) :=
  pieces p (text.toList.length + 1) text.toList

/-- What a part of a replacement becomes at a match. -/
def Piece.expand (m : Match) : Piece → List Char
  | .text cs => cs
  | .group 0 => m.text
  | .group index => (m.captures.lookup index).getD []

/-- The text after the first match, if there is one, has been replaced. -/
def Match.replaced (m : Match) (ps : List Piece) : List Char :=
  m.before ++ ps.flatMap (Piece.expand m) ++ m.after

/-- Replaces the first match of a pattern. -/
def replaceFirst (pattern replacement text : String) : Except PatternError String :=
  match compile pattern with
  | .error e => .error e
  | .ok p =>
      match compileReplacement p replacement with
      | .error e => .error e
      | .ok ps =>
          match p.node.search text.toList with
          | some m => .ok (String.ofList (m.replaced ps))
          | none => .ok text

example : (replaceFirst "/v(\\d+)" "/\x7bv\\1\x7d" "/a/v12/b").toOption =
    some "/a/\x7bv12\x7d/b" := by
  decide +kernel
example : (replaceFirst "/v1" "/\\1" "/a").toOption = none := by decide +kernel

end ApiOutline.Pattern
