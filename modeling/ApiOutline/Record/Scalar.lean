import ApiOutline.Decimal.Read
import ApiOutline.Record.Fault
import ApiOutline.Text.Utf8
import ApiOutline.Value.Display

/-!
# Reading the members of a record

Reading is lenient where nothing is lost: an integer may be written as a text or as a number
without a fraction, a truth value as a word, a text as the bytes of one. What stands in a member
under none of these readings is a fault of the member's kind.
-/

namespace ApiOutline.Record

/-- A text, or bytes that encode one. -/
def text : Value → Checked String
  | .str s => .accepted s
  | .bytes bs =>
      match Text.decodeUtf8? bs with
      | some s => .accepted s
      | none => .fault .notUnicode
  | _ => .fault .notText

/-- White space around a number; the information separators are none. -/
private def isPadding (c : Char) : Bool :=
  Text.isBlank c && !(28 ≤ c.toNat && c.toNat ≤ 31)

private def trim (cs : List Char) : List Char :=
  ((cs.dropWhile isPadding).reverse.dropWhile isPadding).reverse

/-- A text whose underscores each stand between two other characters, without them. -/
private def joinGroups (cs : List Char) : Option (List Char) :=
  let rec paired : List Char → Bool
    | '_' :: '_' :: _ => true
    | _ :: cs => paired cs
    | [] => false
  if !cs.contains '_' || cs.head? == some '_' || cs.getLast? == some '_' || paired cs then none
  else some (cs.filter (· != '_'))

/-- Digits after an optional minus sign, without needless zeros in front. -/
private def plainInteger? (cs : List Char) : Option (Checked Int) :=
  let (negative, ds) :=
    match cs with
    | '-' :: rest => (true, rest)
    | rest => (false, rest)
  if ds.isEmpty || !ds.all Char.isDigit || (ds.head? == some '0' && 1 < ds.length) then none
  else if Decimal.digitLimit < ds.length then some (.fault .oversizedInteger)
  else
    let n : Int := Decimal.ofDigits 10 ds
    some (.accepted (if negative then -n else n))

/-- Zeros in front of a number, and underscores among them. One zero stays before a point and at
the end. -/
private def dropZeros : List Char → Option (List Char)
  | [] => none
  | '0' :: rest => go rest
  | c :: rest => if c.isDigit || c == '-' then some (c :: rest) else none
where
  go : List Char → Option (List Char)
    | [] => some ['0']
    | c :: rest =>
        if c == '0' || c == '_' then go rest
        else if c.isDigit then some (c :: rest)
        else if c == '.' then some ('0' :: c :: rest)
        else none

/-- A number without a point that only zeros follow. -/
private def dropPoint (cs : List Char) : List Char :=
  if (cs.dropWhile (· != '.')).drop 1 |>.all (· == '0') then cs.takeWhile (· != '.') else cs

/-- A text as an integer: blanks around it, a plus sign, zeros in front, a point with zeros and
single underscores inside are allowed. -/
def integerOfText (cs : List Char) : Checked Int :=
  let outcome : Option (Checked Int) :=
    match plainInteger? cs with
    | some r => some r
    | none => do
        let cs := trim cs
        let cs ←
          match cs with
          | '+' :: '-' :: _ => none
          | '+' :: rest => some rest
          | rest => some rest
        let cs := dropPoint (← dropZeros cs)
        plainInteger? ((joinGroups cs).getD cs)
  outcome.getD (.fault .unreadableInteger)

/-- The integer that a double is. -/
def integerOfFloat (x : Float) : Checked Int :=
  if x.isNaN || x.isInf then .fault .notFinite
  else if x != x.floor then .fault .fractionalInteger
  else
    let bits := x.toBits.toNat
    let b := Decimal.Binary.ofBits (bits % Decimal.pow2 63)
    let n := b.mantissa * Decimal.pow2 b.exponent.toNat / Decimal.pow2 (-b.exponent).toNat
    if n < Decimal.pow2 63 then .accepted (if Decimal.pow2 63 ≤ bits then -(n : Int) else n)
    else .fault .oversizedInteger

/-- An integer, or what denotes one without loss. -/
def integer : Value → Checked Int
  | .int n => .accepted n
  | .bool b => .accepted (Value.ofBool b)
  | .float x => integerOfFloat x
  | .str s => integerOfText s.toList
  | .bytes bs =>
      match Text.decodeUtf8? bs with
      | some s => integerOfText s.toList
      | none => .fault .unreadableInteger
  | _ => .fault .notInteger

/-- A text as a floating-point number. -/
def floatOfText (cs : List Char) : Checked Float :=
  match Decimal.float? (trim cs) with
  | some x => .accepted x
  | none =>
      match (joinGroups cs).bind Decimal.float? with
      | some x => .accepted x
      | none => .fault .unreadableNumber

/-- A floating-point number, or what denotes one. -/
def float : Value → Checked Float
  | .float x => .accepted x
  | .int n => .accepted (Decimal.toFloat (n < 0) n.natAbs 0)
  | .bool b => .accepted (if b then 1.0 else 0.0)
  | .str s => floatOfText s.toList
  | .bytes bs =>
      match Text.decodeUtf8? bs with
      | some s => floatOfText s.toList
      | none => .fault .unreadableNumber
  | _ => .fault .notNumber

/-- The words for the truth values. -/
def truthOfText (s : String) : Checked Bool :=
  let word := String.ofList (s.toList.map Char.toLower)
  if ["1", "on", "t", "true", "y", "yes"].contains word then .accepted true
  else if ["0", "off", "f", "false", "n", "no"].contains word then .accepted false
  else .fault .unreadableTruthValue

/-- The truth value that one and zero count as. -/
def truthOfInteger (n : Int) : Checked Bool :=
  if n = 0 then .accepted false
  else if n = 1 then .accepted true
  else if -0x8000000000000000 ≤ n ∧ n < 0x8000000000000000 then .fault .unreadableTruthValue
  else .fault .notTruthValue

/-- A truth value, a word for one, or zero or one. -/
def truth : Value → Checked Bool
  | .bool b => .accepted b
  | .int n => truthOfInteger n
  | .float x =>
      match integerOfFloat x with
      | .accepted n => truthOfInteger n
      | .refused _ => .fault .notTruthValue
  | .str s => truthOfText s
  | .bytes bs =>
      match Text.decodeUtf8? bs with
      | some s => truthOfText s
      | none => .fault .unreadableTruthValue
  | _ => .fault .notTruthValue

/-- A number that keeps the kind it was written in. -/
inductive Number where
  | int (n : Int)
  | float (x : Float)

/-- A number: written as one it keeps its kind, otherwise the reading as an integer goes first. -/
def number : Value → Checked Number
  | .int n => .accepted (.int n)
  | .float x => .accepted (.float x)
  | v =>
      match integer v with
      | .accepted n => .accepted (.int n)
      | .refused fs =>
          match float v with
          | .accepted x => .accepted (.float x)
          | .refused gs =>
              .refused (fs.map (fun f => { f with path := .member "int" :: f.path }) ++
                gs.map (fun f => { f with path := .member "float" :: f.path }))

/-- A member that may be null. -/
def nullable {α : Type} (read : Value → Checked α) : Value → Checked (Option α)
  | .null => .accepted none
  | v => some <$> read v

/-- The elements of a list or a set, each read in the same way. -/
def listOf {α : Type} (read : Value → Checked α) : Value → Checked (List α)
  | .list items => .elements read 0 items
  | .set items => .elements read 0 items
  | _ => .fault .notList

/-- The same for members whose fault is that of a tuple. -/
def tupleOf {α : Type} (read : Value → Checked α) : Value → Checked (List α)
  | .list items => .elements read 0 items
  | .set items => .elements read 0 items
  | _ => .fault .notTuple

/-- The step that a key of a mapping is. -/
def stepOf : Value → Step
  | .str s => .member s
  | .int n => .element n
  | .bool b => .element (Value.ofBool b)
  | v => .member v.shown

/-- A mapping from texts, its values read in one way. A fault of a key is marked as such. -/
def mappingOf {α : Type} (read : Value → Checked α) : Value → Checked (List (String × α))
  | .map _ ms => members ms
  | _ => .fault .notMapping
where
  members : List (Value × Value) → Checked (List (String × α))
    | [] => .accepted []
    | (k, v) :: rest =>
        let name := ((text k).under (.member "[key]")).under (stepOf k)
        let entry := (fun n x => (n, x)) <$> name <*> (read v).under (stepOf k)
        List.cons <$> entry <*> members rest

/-- A value that is kept as it is. -/
def anything (v : Value) : Checked Value :=
  .accepted v

/-- The first of several spellings under which a member is present. -/
def spelled (ms : Members) : List String → Option (String × Value)
  | [] => none
  | n :: rest =>
      match Members.find? ms n with
      | some v => some (n, v)
      | none => spelled ms rest

/-- A member that has to be present under one of its spellings. A missing one is reported under
the first. -/
def required {α : Type} (ms : Members) (name : String) (others : List String)
    (read : Value → Checked α) : Checked α :=
  match spelled ms (name :: others) with
  | some (n, v) => (read v).under (.member n)
  | none => (Checked.fault .missing).under (.member name)

/-- A member that may be absent. -/
def optional {α : Type} (ms : Members) (name : String) (others : List String) (absent : α)
    (read : Value → Checked α) : Checked α :=
  match spelled ms (name :: others) with
  | some (n, v) => (read v).under (.member n)
  | none => .accepted absent

end ApiOutline.Record
