import ApiOutline.Text.CaseTable

/-!
# Upper and lower case

The full case mappings: one character may become several. ASCII letters are answered without
looking at the tables, which is most of what a template or an operation name holds.

A mapping never depends on the neighbours of a character here. The one rule of the standard that
does, the final sigma, concerns whole words; the names of this library lower a first letter only.
-/

namespace ApiOutline.Text

/-- The image of a code point under the first run that holds it. -/
def shiftBy (runs : List CaseRun) (n : Nat) : Option Nat :=
  (runs.find? fun r => r.first ≤ n && n ≤ r.last && (n - r.first) % r.step == 0).map
    fun r => ((n : Int) + r.shift).toNat

/-- A case mapping from its two tables. A character outside both is its own image. -/
def mapCase (runs : List CaseRun) (sequences : List (Nat × List Nat)) (c : Char) : List Char :=
  match sequences.lookup c.toNat with
  | some image => image.map Char.ofNat
  | none =>
      match shiftBy runs c.toNat with
      | some n => [Char.ofNat n]
      | none => [c]

/-- The upper case of a character. -/
def upperChar (c : Char) : List Char :=
  if c.toNat < 128 then [c.toUpper] else mapCase upperRuns upperSequences c

/-- The lower case of a character. -/
def lowerChar (c : Char) : List Char :=
  if c.toNat < 128 then [c.toLower] else mapCase lowerRuns lowerSequences c

/-- The lower case of a character as one character. The one image of two characters is a letter
and its dot, of which the letter counts. -/
def smallLetter (c : Char) : Char := (lowerChar c).headD c

/-- The code points that a run moves to a code point. -/
def CaseRun.preimage? (r : CaseRun) (n : Nat) : Option Nat :=
  let x := ((n : Int) - r.shift).toNat
  if r.first ≤ x ∧ x ≤ r.last ∧ (x - r.first) % r.step = 0 then some x else none

/-- The characters with the same upper case as a small letter, itself among them. -/
def sameUpper (c : Char) : List Char :=
  let image := upperChar c
  let single :=
    match image with
    | [u] => upperRuns.filterMap fun r => r.preimage? u.toNat
    | _ => []
  let longer := (upperSequences.filter fun p => p.2 = image.map Char.toNat).map (·.1)
  c :: (single ++ longer).map Char.ofNat

/-- The characters whose small letter a character is, itself among them. -/
def sameSmall (c : Char) : List Char :=
  c :: ((lowerRuns.filterMap fun r => r.preimage? c.toNat).map Char.ofNat ++
    ((lowerSequences.filter fun p => p.2.head? = some c.toNat).map fun p => Char.ofNat p.1))

/-- The characters that differ from a character at most in case. -/
def caseVariants (c : Char) : List Char := (sameUpper (smallLetter c)).flatMap sameSmall

/-- Every character in upper case. -/
def upper (s : String) : String :=
  String.ofList (s.toList.flatMap upperChar)

/-- Every character in lower case. -/
def lower (s : String) : String :=
  String.ofList (s.toList.flatMap lowerChar)

example : upper "straße" = "STRASSE" := by decide +kernel
example : lower "\u0130" = "i\u0307" := by decide +kernel
example : upper "\u01c6\u0149" = "\u01c4\u02bcN" := by decide +kernel

end ApiOutline.Text
