import ApiOutline.Decimal.Shortest

/-!
# How numbers are written

A `Notation` fixes what the shortest digits leave open: where positional notation ends, what marks
an exponent, and how the values that are no numbers are spelled. All numbers of this library's
output share one.
-/

namespace ApiOutline.Decimal

/-- The choices of a way to write floating-point numbers. -/
structure Notation where
  /-- The least power of ten of a first digit that is written positionally. -/
  leastPlace : Int
  /-- The first power of ten of a first digit that is no longer written positionally. -/
  endPlace : Int
  /-- What stands before an exponent. -/
  mark : String
  /-- The least number of digits of an exponent. -/
  exponentWidth : Nat
  nan : String
  infinity : String

/-- Positional from a ten-thousandth up to sixteen places, with at least one decimal; beyond that
an exponent with its sign and at least two digits. -/
def plainNotation : Notation where
  leastPlace := -4
  endPlace := 16
  mark := "e"
  exponentWidth := 2
  nan := "nan"
  infinity := "inf"

/-- The spelling that JSON readers of the same family accept for the values outside the grammar. -/
def jsonNotation : Notation :=
  { plainNotation with nan := "NaN", infinity := "Infinity" }

/-- So many zeros. -/
def zeros (n : Nat) : String :=
  String.ofList (List.replicate n '0')

/-- The decimal digits of a number. -/
def natText (n : Nat) : String :=
  String.ofList (Nat.toDigits 10 n)

/-- The decimal digits of an integer after its sign. -/
def intText (n : Int) : String :=
  if n < 0 then "-" ++ natText n.natAbs else natText n.natAbs

/-- A digit sequence without its trailing zeros, except for the last digit. -/
def significant (ds : List Char) : List Char :=
  match (ds.reverse.dropWhile (· == '0')).reverse with
  | [] => ['0']
  | kept => kept

/-- Writes digits whose first one has the power of ten `place`. -/
def Notation.place (f : Notation) (ds : List Char) (place : Int) : String :=
  if f.leastPlace ≤ place ∧ place < f.endPlace then
    if place < 0 then "0." ++ zeros (-place - 1).toNat ++ String.ofList ds
    else
      let n := place.toNat + 1
      let whole := String.ofList (ds.take n) ++ zeros (n - ds.length)
      let rest := ds.drop n
      whole ++ "." ++ (if rest.isEmpty then "0" else String.ofList rest)
  else
    let head := String.ofList (ds.take 1)
    let rest := ds.drop 1
    let exponent := natText place.natAbs
    head ++ (if rest.isEmpty then "" else "." ++ String.ofList rest) ++ f.mark ++
      (if place < 0 then "-" else "+") ++ zeros (f.exponentWidth - exponent.length) ++ exponent

/-- The text of a floating-point number. -/
def Notation.write (f : Notation) (x : Float) : String :=
  if x.isNaN then f.nan
  else
    let bits := x.toBits.toNat
    let sign := if pow2 63 ≤ bits then "-" else ""
    let magnitude := bits % pow2 63
    if x.isInf then sign ++ f.infinity
    else if magnitude = 0 then sign ++ f.place ['0'] 0
    else
      let s := (Binary.ofBits magnitude).shortest
      let ds := Nat.toDigits 10 s.digits
      sign ++ f.place (significant ds) (s.exponent + ds.length - 1)

end ApiOutline.Decimal
