import ApiOutline.Text.Base64
import ApiOutline.Text.Class
import ApiOutline.Value.Basic
import ApiOutline.Yaml.Tag

/-!
# What scalars denote

The value of a scalar follows from its tag and its characters. A tag that is written out may
not fit the characters; which error that is depends on the tag.
-/

namespace ApiOutline.Yaml.Scalar

def withoutUnderscores (cs : List Char) : List Char :=
  cs.filter (· != '_')

/-- A sign and what follows it. -/
def signed : List Char → Bool × List Char
  | '-' :: cs => (true, cs)
  | '+' :: cs => (false, cs)
  | cs => (false, cs)

/-- The number that a digit stands for, in any script. -/
def digit? (base : Nat) (c : Char) : Option Nat :=
  let n :=
    if Decimal.isHexDigit c then some (Decimal.ofDigits 16 [c])
    else Text.decimalValue? c
  n.filter (· < base)

/-- The letter that may stand in a prefix of a base. -/
def baseLetters : Nat → List Char
  | 2 => ['b', 'B']
  | 8 => ['o', 'O']
  | 16 => ['x', 'X']
  | _ => []

/-- Digits in a base, with blanks around them, a sign and the prefix of the base. -/
def integerIn (base : Nat) (cs : List Char) : Except Error Int :=
  let (negative, body) := signed (Text.strip cs)
  let body :=
    match body with
    | '0' :: c :: rest => if (baseLetters base).contains c then rest else body
    | _ => body
  match body.mapM (digit? base) with
  | none => .error .outOfRange
  | some ds =>
      if ds.isEmpty || (base == 10 && Decimal.digitLimit < ds.length) then .error .outOfRange
      else
        let n : Nat := ds.foldl (fun n d => n * base + d) 0
        .ok (if negative then -n else n)

/-- Numbers in groups of sixty, the highest first. -/
def sixties (parts : List (List Char)) : Except Error Int := do
  let ns ← parts.mapM (integerIn 10)
  return ns.foldl (fun n d => n * 60 + d) 0

def integer (text : String) : Except Error Int :=
  let cs := withoutUnderscores text.toList
  if cs.isEmpty then .error .noDigits
  else
    let (negative, body) := signed cs
    let n : Except Error Int :=
      match body with
      | [] => .error .noDigits
      | ['0'] => .ok 0
      | '0' :: 'b' :: ds => integerIn 2 ds
      | '0' :: 'x' :: ds => integerIn 16 ds
      | '0' :: _ => integerIn 8 body
      | _ => if body.contains ':' then sixties (Tag.colonParts body) else integerIn 10 body
    n.map fun n => if negative then -n else n

/-- Adds up numbers in groups of sixty, the lowest first. The unit of a group has to be one that a
double can hold. -/
def sumSixties : Nat → Float → List Float → Except Error Float
  | _, sum, [] => .ok sum
  | unit, sum, x :: rest =>
      if 2 ^ 1024 ≤ unit then .error .tooLarge
      else sumSixties (unit * 60) (sum + x * Float.ofNat unit) rest

def finite (cs : List Char) : Except Error Float :=
  match Decimal.float? (Text.strip cs) with
  | some x => .ok x
  | none => .error .outOfRange

def float (text : String) : Except Error Float :=
  let cs := (withoutUnderscores text.toList).map Char.toLower
  if cs.isEmpty then .error .noDigits
  else
    let (negative, body) := signed cs
    let sign (x : Float) : Float := if negative then -x else x
    if body == ".inf".toList then .ok (sign (1.0 / 0.0))
    else if body == ".nan".toList then .ok (0.0 / 0.0)
    else if body.contains ':' then do
      let parts ← (Tag.colonParts body).mapM finite
      return sign (← sumSixties 1 0.0 parts.reverse)
    else (finite body).map sign

def truth (text : String) : Except Error Bool :=
  match Tag.truthWords.lookup (String.ofList (text.toList.map Char.toLower)) with
  | some b => .ok b
  | none => .error .unknownWord

def binary (text : String) : Except Error (List UInt8) :=
  if text.toList.all fun c => c.toNat < 128 then
    match Text.Base64.decode? text.toList with
    | some bs => .ok bs
    | none => .error .malformed
  else .error .malformed

/-- The digits of a fraction of a second as microseconds. Further digits are cut off. -/
def microseconds (ds : List Char) : Nat :=
  let ds := ds.take 6
  Decimal.ofDigits 10 ds * Decimal.pow10 (6 - ds.length)

def timestamp (text : String) : Except Error Value :=
  match Timestamp.ofChars? (Tag.withoutFinalBreak text.toList) with
  | none => .error .noTimestamp
  | some t =>
      match Date.of? t.year t.month t.day, t.time with
      | none, _ => .error .outOfRange
      | some d, none => .ok (.date d)
      | some d, some (hour, minute, second, fraction, offset) =>
          match Moment.of? d hour minute second (microseconds fraction) offset with
          | some m => .ok (.moment m)
          | none => .error .outOfRange

/-- The value of a scalar with a tag. -/
def value (tag : Tag) (text : String) : Except Error Value :=
  match tag with
  | .null => .ok .null
  | .bool => (truth text).map .bool
  | .int => (integer text).map .int
  | .float => (float text).map .float
  | .binary => (binary text).map .bytes
  | .timestamp => timestamp text
  | .str => .ok (.str text)
  | _ => .error .malformed

end ApiOutline.Yaml.Scalar
