import ApiOutline.Calendar
import ApiOutline.Text.Quoted

/-!
# Documents as values

An API description is read into a `Value`: scalars, lists, and mappings whose members keep the
order in which they were written. Keys are values themselves, since one of the two notations
allows numbers and dates as keys; two keys are one when they denote the same scalar, so `1`,
`1.0` and `true` share a member.

The same notation lets one mapping stand in several places. A mapping therefore has an optional
`cell`: two mappings with one cell are one mapping seen from two places, and what is written into
it is seen from both. `Value.unshared` forgets the cells.
-/

namespace ApiOutline

/-- A scalar, a list, a set, or a mapping in the order of its members. -/
inductive Value where
  | null
  | bool (b : Bool)
  | int (n : Int)
  | float (x : Float)
  | str (s : String)
  | bytes (bs : List UInt8)
  | date (d : Date)
  | moment (t : Moment)
  | list (items : List Value)
  | set (items : List Value)
  | map (cell : Option Nat) (members : List (Value × Value))
  deriving Inhabited

/-- The members of a mapping, in order. -/
abbrev Members := List (Value × Value)

namespace Value

/-- A mapping that stands in one place only. -/
abbrev ofMembers (ms : Members) : Value := .map none ms

/-- Whether a finite double is exactly the integer. -/
def floatIsInt (x : Float) (n : Int) : Bool :=
  if x.isNaN || x.isInf then false
  else
    let bits := x.toBits.toNat
    let b := Decimal.Binary.ofBits (bits % Decimal.pow2 63)
    let negative := decide (Decimal.pow2 63 ≤ bits)
    (decide (n < 0) == negative || n == 0) &&
      b.mantissa * Decimal.pow2 b.exponent.toNat ==
        n.natAbs * Decimal.pow2 (-b.exponent).toNat

/-- The integer that a truth value counts as. -/
def ofBool (b : Bool) : Int := if b then 1 else 0

/-- Whether two scalars are one key. Numbers are compared by what they denote, whether they are
written as integers, with a point or as truth values. Lists, sets and mappings are no keys. -/
def sameKey : Value → Value → Bool
  | .null, .null => true
  | .bool a, .bool b => a == b
  | .bool a, .int n | .int n, .bool a => ofBool a == n
  | .bool a, .float x | .float x, .bool a => floatIsInt x (ofBool a)
  | .int a, .int b => a == b
  | .int n, .float x | .float x, .int n => floatIsInt x n
  | .float x, .float y => x == y || (x.isNaN && y.isNaN)
  | .str a, .str b => a == b
  | .bytes a, .bytes b => a == b
  | .date a, .date b => a == b
  | .moment a, .moment b => a.same b
  | _, _ => false

/-- Whether a value can be a key. -/
def isKey : Value → Bool
  | .list _ | .set _ | .map _ _ => false
  | _ => true

/-- What counts as absent where a default may stand in: null, false, zero and everything empty. -/
def isTruthy : Value → Bool
  | .null => false
  | .bool b => b
  | .int n => n != 0
  | .float x => !(x == 0.0)
  | .str s => s != ""
  | .bytes bs => !bs.isEmpty
  | .date _ | .moment _ => true
  | .list items => !items.isEmpty
  | .set items => !items.isEmpty
  | .map _ ms => !ms.isEmpty

/-- Whether a value is a text. -/
def isText : Value → Bool
  | .str _ => true
  | _ => false

/-- Whether a value is a text with exactly these characters. -/
def isStr (v : Value) (s : String) : Bool :=
  match v with
  | .str t => t == s
  | _ => false

/-- Whether a value is the truth value `true` itself. -/
def isTrue : Value → Bool
  | .bool b => b
  | _ => false

/-- The word for the kind of a value in messages. -/
def kindName : Value → String
  | .null => "NoneType"
  | .bool _ => "bool"
  | .int _ => "int"
  | .float _ => "float"
  | .str _ => "str"
  | .bytes _ => "bytes"
  | .date _ => "date"
  | .moment _ => "datetime"
  | .list _ => "list"
  | .set _ => "set"
  | .map _ _ => "dict"

end Value

namespace Members

/-- The value of a key, if it has one. -/
def get? (ms : Members) (key : Value) : Option Value :=
  (ms.find? fun m => m.1.sameKey key).map (·.2)

/-- The value of a text key, if it has one. -/
def find? (ms : Members) (key : String) : Option Value :=
  get? ms (.str key)

/-- The value of a text key, and null where it has none. -/
def find (ms : Members) (key : String) : Value :=
  (find? ms key).getD .null

/-- Whether a key has a value. -/
def has (ms : Members) (key : Value) : Bool :=
  ms.any fun m => m.1.sameKey key

/-- Gives a key a value. A key that is there keeps its place and its spelling. -/
def put (ms : Members) (key v : Value) : Members :=
  match ms with
  | [] => [(key, v)]
  | m :: rest => if m.1.sameKey key then (m.1, v) :: rest else m :: put rest key v

/-- Gives a text key a value. -/
def set (ms : Members) (key : String) (v : Value) : Members :=
  put ms (.str key) v

/-- Takes a text key out. -/
def erase (ms : Members) (key : String) : Members :=
  ms.filter fun m => !m.1.isStr key

/-- Members written one after the other: the first spelling of a key stays, its last value wins. -/
def ofList (ms : Members) : Members :=
  ms.foldl (fun acc m => put acc m.1 m.2) []

/-- Members overlaid by others. -/
def overlay (base upper : Members) : Members :=
  upper.foldl (fun acc m => put acc m.1 m.2) base

end Members

namespace Value

mutual

/-- The document in which nothing is shared, equal in every other way. -/
def unshared : Value → Value
  | .list items => .list (unsharedList items)
  | .set items => .set (unsharedList items)
  | .map _ ms => .map none (unsharedMembers ms)
  | .null => .null
  | .bool b => .bool b
  | .int n => .int n
  | .float x => .float x
  | .str s => .str s
  | .bytes bs => .bytes bs
  | .date d => .date d
  | .moment t => .moment t

def unsharedList : List Value → List Value
  | [] => []
  | v :: rest => unshared v :: unsharedList rest

def unsharedMembers : List (Value × Value) → List (Value × Value)
  | [] => []
  | (k, v) :: rest => (unshared k, unshared v) :: unsharedMembers rest

end

mutual

/-- The document after a text member has been written into the mapping of one cell, wherever that
mapping stands. -/
def writeAt (cell : Nat) (key text : String) : Value → Value
  | .list items => .list (writeAtList cell key text items)
  | .set items => .set items
  | .map c ms =>
      let inner := writeAtMembers cell key text ms
      .map c (if c = some cell then Members.set inner key (.str text) else inner)
  | .null => .null
  | .bool b => .bool b
  | .int n => .int n
  | .float x => .float x
  | .str s => .str s
  | .bytes bs => .bytes bs
  | .date d => .date d
  | .moment t => .moment t

def writeAtList (cell : Nat) (key text : String) : List Value → List Value
  | [] => []
  | v :: rest => writeAt cell key text v :: writeAtList cell key text rest

def writeAtMembers (cell : Nat) (key text : String) :
    List (Value × Value) → List (Value × Value)
  | [] => []
  | (k, v) :: rest => (k, writeAt cell key text v) :: writeAtMembers cell key text rest

end

end Value

end ApiOutline
