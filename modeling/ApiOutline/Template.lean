import ApiOutline.Text.Class

/-!
# Endpoint templates

A template is a text cut by slashes. A part between braces is a parameter token, every other part
that is not empty a literal segment. The literal segments are what endpoints are compared by; the
tokens only say where a parameter is taken.

Templates are texts throughout, and everything here is stated on their characters.
-/

namespace ApiOutline.Template

/-- The parts of a template between its slashes. -/
def parts (t : String) : List (List Char) :=
  Text.splitOn '/' t.toList

/-- Whether a part is a parameter token. -/
def isToken (part : List Char) : Bool :=
  part.head? == some '\x7b' && part.getLast? == some '\x7d'

/-- A part without its first and its last character. -/
def inner (part : List Char) : List Char :=
  (part.drop 1).dropLast

/-- The parts that are not empty. -/
def fullParts (t : String) : List (List Char) :=
  (parts t).filter fun p => !p.isEmpty

/-- The literal segments of a template, in order. -/
def segments (t : String) : List String :=
  ((fullParts t).filter fun p => !isToken p).map String.ofList

/-- Whether a template ends in a closing brace. -/
def isParameterized (t : String) : Bool :=
  t.toList.getLast? == some '\x7d'

/-- The name in the last part of a parameterized template. -/
def trailingParameter (t : String) : Option String :=
  if isParameterized t then (parts t).getLast?.map fun p => String.ofList (inner p) else none

/-- The name of the token directly after the `n`-th literal part. -/
def tokenAfter : Nat → List (List Char) → Option (List Char)
  | _, [] => none
  | n, p :: rest =>
      if isToken p then tokenAfter n rest
      else
        match n with
        | 0 => none
        | 1 =>
            match rest with
            | next :: _ => if isToken next then some (inner next) else none
            | [] => none
        | n + 1 => tokenAfter n rest

/-- The parameter that directly follows as many literal segments as there are in a prefix of the
segments of a template. -/
def parameterAfter (t : String) (before : List String) : Option String :=
  (tokenAfter before.length (fullParts t)).map String.ofList

end ApiOutline.Template
