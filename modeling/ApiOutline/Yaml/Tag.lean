import ApiOutline.Yaml.Cursor

/-!
# Tags

The tag of a node says what kind of value it denotes. It may be written in the text. Where it is
not, a plain scalar has the tag whose form its characters have: words for null and the truth
values, numbers in several bases and in groups of sixty, days and moments. Every other scalar is a
text.

A form may have one line feed after it, which only a quoted scalar can bring along.
-/

namespace ApiOutline.Yaml

inductive Tag where
  | null
  | bool
  | int
  | float
  | binary
  | timestamp
  | omap
  | pairs
  | set
  | str
  | seq
  | map
  | merge
  | value
  | unknown
  deriving Repr, DecidableEq

namespace Tag

/-- The part that the addresses of all standard tags begin with. -/
def standardStart : String := "tag:yaml.org,2002:"

/-- The tags with an address that the library knows. -/
def standard : List (String × Tag) :=
  [("null", .null), ("bool", .bool), ("int", .int), ("float", .float), ("binary", .binary),
   ("timestamp", .timestamp), ("omap", .omap), ("pairs", .pairs), ("set", .set), ("str", .str),
   ("seq", .seq), ("map", .map), ("merge", .merge), ("value", .value)]

/-- The tag with an address. -/
def ofAddress (address : String) : Tag :=
  ((standard.map fun t => (standardStart ++ t.1, t.2)).lookup address).getD .unknown

/-! ## The forms of plain scalars -/

/-- The words for the truth values. -/
def truthWords : List (String × Bool) :=
  [("yes", true), ("no", false), ("true", true), ("false", false), ("on", true), ("off", false)]

/-- A word in small letters, with a capital, or in capitals. -/
def spellings (w : String) : List String :=
  let cs := w.toList
  [w, String.ofList ((cs.take 1).map Char.toUpper ++ cs.drop 1),
    String.ofList (cs.map Char.toUpper)]

def isTruthWord (cs : List Char) : Bool :=
  (truthWords.flatMap fun w => spellings w.1).contains (String.ofList cs)

def isNullWord (cs : List Char) : Bool :=
  cs.isEmpty || cs == ['~'] || (spellings "null").contains (String.ofList cs)

/-- What follows an optional sign. -/
def unsigned : List Char → List Char
  | '-' :: cs | '+' :: cs => cs
  | cs => cs

def isGrouped (digit : Char → Bool) (cs : List Char) : Bool :=
  cs.all fun c => digit c || c == '_'

/-- Digits and underscores, a digit first. -/
def isDigits (cs : List Char) : Bool :=
  cs.head?.any Char.isDigit && isGrouped Char.isDigit cs

/-- The parts of a text between its colons. -/
def colonParts : List Char → List (List Char)
  | [] => [[]]
  | c :: rest =>
      match c == ':', colonParts rest with
      | true, parts => [] :: parts
      | false, part :: parts => (c :: part) :: parts
      | false, [] => [[c]]

/-- A number below sixty, of one or two digits. -/
def isSixtieth : List Char → Bool
  | [a] => a.isDigit
  | [a, b] => '0' ≤ a && a ≤ '5' && b.isDigit
  | _ => false

/-- An exponent with its sign, or nothing. -/
def isExponent : List Char → Bool
  | [] => true
  | e :: sign :: ds =>
      (e == 'e' || e == 'E') && (sign == '+' || sign == '-') && !ds.isEmpty && ds.all Char.isDigit
  | _ => false

/-- What stands after the point of a number. -/
def isFraction (cs : List Char) : Bool :=
  isExponent (cs.dropWhile fun c => c.isDigit || c == '_')

/-- Integers: binary, octal, decimal, hexadecimal, and in groups of sixty. -/
def isInteger (cs : List Char) : Bool :=
  match unsigned cs with
  | '0' :: rest =>
      match rest with
      | [] => true
      | 'b' :: ds => !ds.isEmpty && isGrouped (fun c => c == '0' || c == '1') ds
      | 'x' :: ds => !ds.isEmpty && isGrouped Decimal.isHexDigit ds
      | ds => isGrouped (fun c => '0' ≤ c && c ≤ '7') ds
  | body =>
      match colonParts body with
      | ds :: sixtieths => isDigits ds && sixtieths.all isSixtieth
      | [] => false

/-- Numbers with a point: decimal, in groups of sixty, and the words for no finite number. -/
def isFloat (cs : List Char) : Bool :=
  let afterWhole (cs : List Char) : Bool :=
    match cs.dropWhile (· != '.') with
    | _ :: fraction => isFraction fraction
    | [] => false
  let word := String.ofList (unsigned cs)
  let whole := (unsigned cs).takeWhile (· != '.')
  let sixties :=
    match colonParts whole, (unsigned cs).dropWhile (· != '.') with
    | ds :: s :: more, _ :: fraction =>
        isDigits ds && (s :: more).all isSixtieth && isGrouped Char.isDigit fraction
    | _, _ => false
  (isDigits whole && afterWhole (unsigned cs)) ||
    (cs.head? == some '.' && isDigits (cs.drop 1 |>.takeWhile fun c => c != 'e' && c != 'E') &&
      isFraction (cs.drop 1)) ||
    sixties ||
    [".inf", ".Inf", ".INF"].contains word ||
    [".nan", ".NaN", ".NAN"].contains (String.ofList cs)

end Tag

/-! ## Days and moments -/

/-- The parts of a day or a moment as they are written. -/
structure Timestamp where
  year : Nat
  month : Nat
  day : Nat
  /-- Hour, minute and second, the digits of a fraction, and the offset in minutes. -/
  time : Option (Nat × Nat × Nat × List Char × Option Int)
  /-- Whether month and day have two digits each. -/
  isPadded : Bool

namespace Timestamp

def number (ds : List Char) : Nat := Decimal.ofDigits 10 ds

/-- One or two digits, and what follows them. -/
def oneOrTwo (cs : List Char) : Option (List Char × List Char) :=
  match cs with
  | a :: b :: rest =>
      if a.isDigit then (if b.isDigit then some ([a, b], rest) else some ([a], b :: rest)) else none
  | [a] => if a.isDigit then some ([a], []) else none
  | [] => none

/-- Exactly two digits, and what follows them. -/
def two (cs : List Char) : Option (List Char × List Char) :=
  match oneOrTwo cs with
  | some ([a, b], rest) => some ([a, b], rest)
  | _ => none

def expect (sign : Char) : List Char → Option (List Char)
  | c :: rest => if c == sign then some rest else none
  | [] => none

/-- The offset at the end of a moment: none, `Z`, or a sign and hours, with minutes or without. -/
def offset? (cs : List Char) : Option (Option Int) :=
  match cs.dropWhile isWhite with
  | [] => if cs.isEmpty then some none else none
  | ['Z'] => some (some 0)
  | sign :: rest =>
      if sign == '+' || sign == '-' then do
        let (hours, rest) ← oneOrTwo rest
        let minutes ←
          match rest with
          | [] => some []
          | _ => do
              let (ds, rest) ← two (← expect ':' rest)
              if rest.isEmpty then some ds else none
        let total : Int := number hours * 60 + number minutes
        return some (if sign == '-' then -total else total)
      else none

/-- The time of a moment, from the blanks or the letter before it. -/
def time? (cs : List Char) : Option (Nat × Nat × Nat × List Char × Option Int) := do
  let rest ←
    match cs with
    | c :: rest =>
        if c == 'T' || c == 't' then some rest
        else if isWhite c then some (rest.dropWhile isWhite)
        else none
    | [] => none
  let (hour, rest) ← oneOrTwo rest
  let (minute, rest) ← two (← expect ':' rest)
  let (second, rest) ← two (← expect ':' rest)
  let (fraction, rest) :=
    match rest with
    | '.' :: rest => (rest.takeWhile Char.isDigit, rest.dropWhile Char.isDigit)
    | rest => ([], rest)
  let offset ← offset? rest
  return (number hour, number minute, number second, fraction, offset)

/-- Recognises a day or a moment. -/
def ofChars? (cs : List Char) : Option Timestamp := do
  let year := cs.take 4
  if !(year.length == 4 && year.all Char.isDigit) then none
  else
    let (month, rest) ← oneOrTwo (← expect '-' (cs.drop 4))
    let (day, rest) ← oneOrTwo (← expect '-' rest)
    let isPadded := month.length == 2 && day.length == 2
    if rest.isEmpty then return ⟨number year, number month, number day, none, isPadded⟩
    else return ⟨number year, number month, number day, some (← time? rest), isPadded⟩

/-- Whether a plain scalar is read as a day or a moment. A day alone needs all its digits. -/
def isImplicit (t : Timestamp) : Bool := t.time.isSome || t.isPadded

end Timestamp

namespace Tag

/-- A text without one line feed at its end. -/
def withoutFinalBreak (cs : List Char) : List Char :=
  if cs.getLast? == some '\n' then cs.dropLast else cs

/-- The tag of a plain scalar. -/
def ofPlain (text : List Char) : Tag :=
  let cs := withoutFinalBreak text
  if text.isEmpty then .null
  else if isTruthWord cs then .bool
  else if isFloat cs then .float
  else if isInteger cs then .int
  else if cs == ['<', '<'] then .merge
  else if !cs.isEmpty && isNullWord cs then .null
  else if (Timestamp.ofChars? cs).any Timestamp.isImplicit then .timestamp
  else if cs == ['='] then .value
  else if cs == ['!'] || cs == ['&'] || cs == ['*'] then .unknown
  else .str

end Tag

end ApiOutline.Yaml
