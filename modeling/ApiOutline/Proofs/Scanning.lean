import ApiOutline.Decimal.Read

/-!
# What scanners leave

A scanner takes characters from the front of a text. So what it leaves is an
end of the text, and if it fails there is a place in the text that explains the
error. `Scans` says both at once; it is kept by sequencing, and what explains an
error in the rest of a text explains it in the text.
-/

namespace ApiOutline

variable {ε α β : Type} {left : α → List Char} {leftAfter : β → List Char}
  {Arises : ε → List Char → Prop} {text inner : List Char} {x : Except ε α} {a : α} {e : ε}

/-- A result leaves an end of the text, and an error arises at a place in the text. -/
def Scans (left : α → List Char) (Arises : ε → List Char → Prop) (text : List Char) :
    Except ε α → Prop
  | .ok a => left a <:+ text
  | .error e => ∃ place, place <:+ text ∧ Arises e place

namespace Scans

theorem ok (h : left a <:+ text) : Scans left Arises text (.ok a) := h

theorem error (h : Arises e inner) (hinner : inner <:+ text) : Scans left Arises text (.error e) :=
  ⟨inner, hinner, h⟩

theorem suffix (h : Scans left Arises text x) (hx : x = .ok a) : left a <:+ text := by
  subst hx
  exact h

theorem failed (h : Scans left Arises text x) (hx : x = .error e) :
    Scans leftAfter Arises text (.error e) := by
  subst hx
  exact h

theorem cause (h : Scans left Arises text x) (hx : x = .error e) :
    ∃ place, place <:+ text ∧ Arises e place := by
  subst hx
  exact h

theorem mono (h : Scans left Arises inner x) (hinner : inner <:+ text) :
    Scans left Arises text x := by
  cases x with
  | ok a => exact List.IsSuffix.trans h hinner
  | error e =>
      obtain ⟨place, hplace, he⟩ := h
      exact ⟨place, hplace.trans hinner, he⟩

theorem bind {f : α → Except ε β} (hx : Scans left Arises text x)
    (hf : ∀ a, left a <:+ text → Scans leftAfter Arises text (f a)) :
    Scans leftAfter Arises text (x >>= f) := by
  cases x with
  | ok a => exact hf a hx
  | error e => exact hx

end Scans

/-- A run of more digits than an integer may have. -/
def IsLongRun (digits : List Char) : Prop :=
  (∀ d ∈ digits, d.isDigit = true) ∧ Decimal.digitLimit < digits.length

end ApiOutline
