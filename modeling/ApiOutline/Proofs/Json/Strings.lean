import ApiOutline.Json.Reader
import ApiOutline.Json.Writer
import ApiOutline.Proofs.Decimal.Digits

/-!
# Texts in JSON, read back

A text between quotes is read character by character, and whatever stands for a
character is read as that character (`stringBody_escape`), under either style
of writing. Of the characters beyond the first plane the two halves are put
together again; no character is half of such a pair itself, so none is taken
for one. The escapes by number are read only where something follows them. In a
text that is written so, the closing quote does.
-/

namespace ApiOutline.Json

variable {start fuel n : Nat} {acc rest : List Char} {c : Char}

theorem fourDigits_hex (h : n < 0x10000) (rest : List Char) :
    fourDigits (Text.hex 4 n ++ rest) = some (n, rest) := by
  have hdigits := fun c => Text.isHexDigit_of_mem_hex (n := n) (c := c)
  have hvalue := Text.ofDigits_hex (n := n)
  obtain ⟨a, b, c, d, habcd⟩ : ∃ a b c d, Text.hex 4 n = [a, b, c, d] := by
    have hlength := Text.length_hex h
    match Text.hex 4 n, hlength with
    | [a, b, c, d], _ => exact ⟨a, b, c, d, rfl⟩
  rw [habcd] at hdigits hvalue ⊢
  have hall : [a, b, c, d].all Decimal.isHexDigit = true := List.all_eq_true.2 hdigits
  show (if [a, b, c, d].all Decimal.isHexDigit then _ else none) = _
  rw [if_pos hall, hvalue]
  rfl

theorem isHighSurrogate_toNat (c : Char) : isHighSurrogate c.toNat = false := by
  have hvalid : c.toNat < 0xd800 ∨ (0xdfff < c.toNat ∧ c.toNat < 0x110000) := c.valid
  simp only [isHighSurrogate, Bool.and_eq_false_iff, decide_eq_false_iff_not]
  omega

theorem loneUnit_toNat (c : Char) : loneUnit c.toNat = c := by
  have hvalid : c.toNat < 0xd800 ∨ (0xdfff < c.toNat ∧ c.toNat < 0x110000) := c.valid
  rw [loneUnit, if_neg (by omega), Char.ofNat_toNat]

/-- An escape in one part is read as its character. -/
theorem unicodeEscape_plane (hc : c.toNat < 0x10000) (hrest : rest ≠ []) :
    unicodeEscape (Text.hex 4 c.toNat ++ rest) = .ok (c, rest) := by
  have hnonempty : rest.isEmpty = false := by simpa using hrest
  rw [unicodeEscape, fourDigits_hex hc]
  simp only [hnonempty, isHighSurrogate_toNat, loneUnit_toNat, Bool.false_eq_true, if_false]

/-- Whether two numbers of sixteen bits are the halves of a character beyond the first plane. -/
structure IsPair (c : Char) (a b : Nat) : Prop where
  high : isHighSurrogate a = true
  low : isLowSurrogate b = true
  joined : 0x10000 + (a - 0xd800) * 0x400 + (b - 0xdc00) = c.toNat

/-- An escape in two halves is read as the character that they make together. -/
theorem unicodeEscape_pair {a b : Nat} (h : IsPair c a b) (hrest : rest ≠ []) :
    unicodeEscape (Text.hex 4 a ++ '\\' :: 'u' :: (Text.hex 4 b ++ rest)) = .ok (c, rest) := by
  have ha : a < 0x10000 := by
    have hhigh := h.high
    simp only [isHighSurrogate, Bool.and_eq_true, decide_eq_true_eq] at hhigh
    omega
  have hb : b < 0x10000 := by
    have hlow := h.low
    simp only [isLowSurrogate, Bool.and_eq_true, decide_eq_true_eq] at hlow
    omega
  have hlong : ¬ (Text.hex 4 b ++ rest).length ≤ 4 := by
    have := List.length_pos_iff.2 hrest
    rw [List.length_append, Text.length_hex hb]
    omega
  rw [unicodeEscape, fourDigits_hex ha]
  simp only [List.isEmpty_cons, Bool.false_eq_true, if_false, h.high, if_true, if_neg hlong,
    fourDigits_hex hb, h.low, h.joined, Char.ofNat_toNat]

theorem unitEscape_plane (hc : c.toNat < 0x10000) :
    unitEscape c = ['\\', 'u'] ++ Text.hex 4 c.toNat := by
  unfold unitEscape
  exact if_pos hc

theorem exists_unitEscape_pair (hc : 0x10000 ≤ c.toNat) :
    ∃ a b, IsPair c a b ∧
      unitEscape c = ['\\', 'u'] ++ Text.hex 4 a ++ ['\\', 'u'] ++ Text.hex 4 b := by
  have hvalid : c.toNat < 0xd800 ∨ (0xdfff < c.toNat ∧ c.toNat < 0x110000) := c.valid
  refine ⟨_, _, ⟨?_, ?_, ?_⟩, if_neg (Nat.not_lt.2 hc)⟩
  · simp only [isHighSurrogate, Bool.and_eq_true, decide_eq_true_eq]
    omega
  · simp only [isLowSurrogate, Bool.and_eq_true, decide_eq_true_eq]
    omega
  · omega

theorem unitEscape_ne_nil (c : Char) : unitEscape c ≠ [] := by
  rcases Nat.lt_or_ge c.toNat 0x10000 with hplane | hbeyond
  · rw [unitEscape_plane hplane]
    exact List.cons_ne_nil _ _
  · obtain ⟨a, b, -, hescape⟩ := exists_unitEscape_pair hbeyond
    rw [hescape]
    exact List.cons_ne_nil _ _

theorem stringBody_unicode {cs after : List Char} (h : unicodeEscape cs = .ok (c, after)) :
    stringBody start (fuel + 1) acc ('\\' :: 'u' :: cs) =
      stringBody start fuel (c :: acc) after := by
  simp only [stringBody, Char.reduceEq, if_false, if_true, h]

theorem stringBody_simple {e : Char} (h : simpleEscape e = some c) (he : e ≠ 'u') :
    stringBody start (fuel + 1) acc ('\\' :: e :: rest) =
      stringBody start fuel (c :: acc) rest := by
  simp only [stringBody, Char.reduceEq, if_false, if_true, if_neg he, h]

theorem stringBody_unitEscape (c : Char) (hrest : rest ≠ []) :
    stringBody start (fuel + 1) acc (unitEscape c ++ rest) =
      stringBody start fuel (c :: acc) rest := by
  rcases Nat.lt_or_ge c.toNat 0x10000 with hplane | hbeyond
  · rw [unitEscape_plane hplane]
    exact stringBody_unicode (unicodeEscape_plane hplane hrest)
  · obtain ⟨a, b, hpair, hescape⟩ := exists_unitEscape_pair hbeyond
    simp only [hescape, List.append_assoc, List.cons_append, List.nil_append]
    exact stringBody_unicode (unicodeEscape_pair hpair hrest)

/-- What stands for a character inside a string is read as that character. -/
theorem stringBody_escape (asciiOnly : Bool) (c : Char) (hrest : rest ≠ []) :
    stringBody start (fuel + 1) acc (escape asciiOnly c ++ rest) =
      stringBody start fuel (c :: acc) rest := by
  unfold escape
  split
  · next h => subst h; exact stringBody_simple rfl (by decide)
  split
  · next h => subst h; exact stringBody_simple rfl (by decide)
  split
  · next h => subst h; exact stringBody_simple rfl (by decide)
  split
  · next h => subst h; exact stringBody_simple rfl (by decide)
  split
  · next h => subst h; exact stringBody_simple rfl (by decide)
  split
  · next h => subst h; exact stringBody_simple rfl (by decide)
  split
  · next h => subst h; exact stringBody_simple rfl (by decide)
  split
  · exact stringBody_unitEscape c hrest
  split
  · exact stringBody_unitEscape c hrest
  · next hquote hbackslash _ _ _ _ _ hcontrol _ =>
      simp only [List.cons_append, List.nil_append, stringBody, if_neg hquote, if_neg hbackslash,
        if_neg hcontrol]

theorem stringBody_written (asciiOnly : Bool) (cs : List Char) (rest : List Char)
    (hfuel : cs.length < fuel) :
    stringBody start fuel acc (cs.flatMap (escape asciiOnly) ++ '"' :: rest) =
      .ok (String.ofList (acc.reverse ++ cs), rest) := by
  induction cs generalizing fuel acc with
  | nil =>
      obtain ⟨fuel, rfl⟩ : ∃ k, fuel = k + 1 := ⟨fuel - 1, by simp at hfuel; omega⟩
      simp [stringBody]
  | cons c cs ih =>
      obtain ⟨fuel, rfl⟩ : ∃ k, fuel = k + 1 := ⟨fuel - 1, by simp at hfuel; omega⟩
      rw [List.flatMap_cons, List.append_assoc, stringBody_escape asciiOnly c (by simp),
        ih (by simpa using hfuel)]
      simp

theorem escape_ne_nil (asciiOnly : Bool) (c : Char) : escape asciiOnly c ≠ [] := by
  unfold escape
  repeat' split
  case isFalse.isFalse.isFalse.isFalse.isFalse.isFalse.isFalse.isTrue => exact unitEscape_ne_nil c
  case isFalse.isFalse.isFalse.isFalse.isFalse.isFalse.isFalse.isFalse.isTrue =>
    exact unitEscape_ne_nil c
  all_goals exact List.cons_ne_nil _ _

theorem length_le_flatMap_escape (asciiOnly : Bool) (cs : List Char) :
    cs.length ≤ (cs.flatMap (escape asciiOnly)).length := by
  induction cs with
  | nil => exact Nat.zero_le _
  | cons c cs ih =>
      have hpos := List.length_pos_iff.2 (escape_ne_nil asciiOnly c)
      rw [List.flatMap_cons, List.length_append, List.length_cons]
      omega

/-- A text is read as it was before it was written between quotes. -/
theorem string_writeString (asciiOnly : Bool) (s : String) (rest : List Char) :
    string (s.toList.flatMap (escape asciiOnly) ++ '"' :: rest) = .ok (s, rest) := by
  have hlength := length_le_flatMap_escape asciiOnly s.toList
  rw [string, stringBody_written asciiOnly s.toList rest (by
    rw [List.length_append, List.length_cons]
    omega)]
  simp

end ApiOutline.Json
