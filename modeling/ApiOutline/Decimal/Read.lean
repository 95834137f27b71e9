/-!
# Reading numbers

Digits, signs and exponents are recognised by the formats that hold them; here the recognised
parts become numbers. A floating-point number is the double nearest to the decimal one, and the
exponents far outside its range are settled before any power of ten is computed.
-/

namespace ApiOutline.Decimal

/-- The value of a digit in bases up to sixteen. -/
def digitValue (c : Char) : Nat :=
  if c.isDigit then c.toNat - '0'.toNat
  else if 'a' ≤ c ∧ c ≤ 'f' then c.toNat - 'a'.toNat + 10
  else if 'A' ≤ c ∧ c ≤ 'F' then c.toNat - 'A'.toNat + 10
  else 0

/-- The number that a digit sequence writes in a base. -/
def ofDigits (base : Nat) (ds : List Char) : Nat :=
  ds.foldl (fun n c => n * base + digitValue c) 0

/-- Whether a character is a digit of base sixteen. -/
def isHexDigit (c : Char) : Bool :=
  c.isDigit || ('a' ≤ c && c ≤ 'f') || ('A' ≤ c && c ≤ 'F')

/-- A number of digits that no integer text may exceed. -/
def digitLimit : Nat := 4300

/-- The double nearest to `digits * 10 ^ exponent`. -/
def toFloat (negative : Bool) (digits : Nat) (exponent : Int) : Float :=
  let places := (Nat.toDigits 10 digits).length
  let magnitude : Float :=
    if digits = 0 then 0.0
    else if 400 < (places : Int) + exponent then 1.0 / 0.0
    else if (places : Int) + exponent < -400 then 0.0
    else if exponent < 0 then Float.ofScientific digits true exponent.natAbs
    else Float.ofScientific digits false exponent.natAbs
  if negative then -magnitude else magnitude

/-- The double nearest to the decimal number with these digits before and after the point. -/
def ofParts (negative : Bool) (whole fraction : List Char) (exponent : Int) : Float :=
  toFloat negative (ofDigits 10 (whole ++ fraction)) (exponent - fraction.length)

/-- The parts of an unsigned decimal number: digits, a point, an exponent, of which either side of
the point may be empty but not both. -/
structure Parts where
  whole : List Char
  fraction : List Char
  exponent : Int

/-- Splits off a sign. -/
def splitSign : List Char → Bool × List Char
  | '-' :: cs => (true, cs)
  | '+' :: cs => (false, cs)
  | cs => (false, cs)

/-- Recognises the whole of a text as an unsigned decimal number. -/
def parts? (cs : List Char) : Option Parts :=
  let whole := cs.takeWhile Char.isDigit
  let afterWhole := cs.dropWhile Char.isDigit
  let (fraction, rest) :=
    match afterWhole with
    | '.' :: r => (r.takeWhile Char.isDigit, r.dropWhile Char.isDigit)
    | r => ([], r)
  if whole.isEmpty && fraction.isEmpty then none
  else
    match rest with
    | [] => some ⟨whole, fraction, 0⟩
    | c :: r =>
        if c = 'e' ∨ c = 'E' then
          let (negative, ds) := splitSign r
          if ds.isEmpty || !ds.all Char.isDigit then none
          else
            let n : Int := ofDigits 10 ds
            some ⟨whole, fraction, if negative then -n else n⟩
        else none

/-- Recognises a text as a floating-point number, the spelled-out values among them. -/
def float? (cs : List Char) : Option Float :=
  let (negative, body) := splitSign cs
  match parts? body with
  | some p => some (ofParts negative p.whole p.fraction p.exponent)
  | none =>
      let word := String.ofList (body.map Char.toLower)
      if word = "inf" ∨ word = "infinity" then
        some (if negative then -(1.0 / 0.0) else 1.0 / 0.0)
      else if word = "nan" then some (0.0 / 0.0)
      else none

end ApiOutline.Decimal
