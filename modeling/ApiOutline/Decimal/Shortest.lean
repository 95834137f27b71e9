/-!
# The fewest digits that read back

A finite binary number has many decimal neighbours that round to it. The one to print is the
nearest among those with the fewest digits.

The search is over decimal grids, coarse to fine. On a grid only the two points around the number
can be nearest, so each grid is settled by two comparisons, and all of them are made in natural
numbers: the number and the ends of the interval that rounds to it are quarters of its last
binary place.
-/

namespace ApiOutline.Decimal

/-- The number `mantissa * 2 ^ exponent`. -/
structure Binary where
  mantissa : Nat
  exponent : Int
  deriving Repr, DecidableEq

/-- The number `digits * 10 ^ exponent`. -/
structure Scientific where
  digits : Nat
  exponent : Int
  deriving Repr, DecidableEq

/-- A power of two. -/
def pow2 (n : Nat) : Nat := Nat.pow 2 n

/-- A power of ten. -/
def pow10 (n : Nat) : Nat := Nat.pow 10 n

/-- The magnitude of a finite double, from its bit pattern without the sign. -/
def Binary.ofBits (bits : Nat) : Binary :=
  let fraction : Nat := bits % pow2 52
  let biased : Nat := bits / pow2 52 % pow2 11
  if biased = 0 then ⟨fraction, -1074⟩ else ⟨pow2 52 + fraction, (biased : Int) - 1075⟩

/-- Compares `a * 10 ^ e` with `b * 2 ^ q`. -/
def compareScaled (a : Nat) (e : Int) (b : Nat) (q : Int) : Ordering :=
  compare (a * pow10 e.toNat * pow2 (-q).toNat) (b * pow2 q.toNat * pow10 (-e).toNat)

/-- The quarters of the last binary place: the lower end of the interval that rounds to the
number. It lies closer where the spacing changes, just above a power of two. -/
def Binary.lowerQuarters (b : Binary) : Nat :=
  if b.mantissa = pow2 52 ∧ -1074 < b.exponent then 4 * b.mantissa - 1 else 4 * b.mantissa - 2

/-- The upper end of that interval, in the same quarters. -/
def Binary.upperQuarters (b : Binary) : Nat :=
  4 * b.mantissa + 2

/-- Whether a decimal number rounds to the binary one. The ends belong to the even mantissas. -/
def Binary.holds (b : Binary) (s : Scientific) : Bool :=
  let ends := b.mantissa % 2 == 0
  let q := b.exponent - 2
  (match compareScaled s.digits s.exponent b.lowerQuarters q with
    | .gt => true
    | .eq => ends
    | .lt => false) &&
  (match compareScaled s.digits s.exponent b.upperQuarters q with
    | .lt => true
    | .eq => ends
    | .gt => false)

/-- The position of the first significant digit: the greatest `e` with `10 ^ e` at most the
number. Below one it is found by counting how often the number has to be made tenfold. -/
def Binary.leadingPlace (b : Binary) : Int :=
  let num := b.mantissa * pow2 b.exponent.toNat
  let den := pow2 (-b.exponent).toNat
  if den ≤ num then ((Nat.toDigits 10 (num / den)).length : Int) - 1
  else -(raise 400 num den 0 : Int)
where
  raise : Nat → Nat → Nat → Nat → Nat
    | 0, _, _, k => k
    | fuel + 1, num, den, k => if den ≤ num then k else raise fuel (num * 10) den (k + 1)

/-- The two points of the grid `10 ^ e` around the number, the lower one first. -/
def Binary.around (b : Binary) (e : Int) : Scientific × Scientific :=
  let num := b.mantissa * pow2 b.exponent.toNat * pow10 (-e).toNat
  let den := pow2 (-b.exponent).toNat * pow10 e.toNat
  (⟨num / den, e⟩, ⟨num / den + 1, e⟩)

/-- Whether the lower of two neighbours is nearer; a number half way goes to the even one. -/
def Binary.prefersLower (b : Binary) (low : Scientific) : Bool :=
  match compareScaled (2 * low.digits + 1) low.exponent (2 * b.mantissa) b.exponent with
  | .gt => true
  | .lt => false
  | .eq => low.digits % 2 == 0

/-- The nearest point of a grid that rounds to the number, if one does. -/
def Binary.onGrid (b : Binary) (e : Int) : Option Scientific :=
  let (low, high) := b.around e
  match b.holds low, b.holds high with
  | true, true => some (if b.prefersLower low then low else high)
  | true, false => some low
  | false, true => some high
  | false, false => none

/-- The nearest of the shortest decimal numbers that round to a positive number. Seventeen digits
always suffice, so the last grid needs no test. -/
def Binary.shortest (b : Binary) : Scientific :=
  let first := b.leadingPlace
  match (List.range 17).findSome? fun n : Nat => b.onGrid (first - n) with
  | some s => s
  | none => (b.around (first - 16)).1

/-- A number that a grid offers rounds to the number it was asked for. -/
theorem holds_of_onGrid {b : Binary} {e : Int} {s : Scientific} (h : b.onGrid e = some s) :
    b.holds s = true := by
  unfold Binary.onGrid at h
  simp only at h
  split at h
  · next h₁ h₂ =>
      simp only [Option.some.injEq] at h
      split at h <;> (subst h; assumption)
  · next h₁ h₂ => simp_all
  · next h₁ h₂ => simp_all
  · simp at h

example : (Binary.ofBits (0.1 : Float).toBits.toNat).shortest = ⟨1, -1⟩ := by decide +kernel
example : (Binary.ofBits 1).shortest = ⟨5, -324⟩ := by decide +kernel

end ApiOutline.Decimal
