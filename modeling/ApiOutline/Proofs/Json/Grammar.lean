import ApiOutline.Json.Reader
import ApiOutline.Decimal.Read

/-!
# The grammar of JSON

What a text in JSON is, rule by rule and without a reader: blanks, the words,
numbers, strings, lists and objects. Each symbol of the grammar is a relation
between a text and what is left of it behind the symbol, so that a rule needs no
more than the texts between its parts.

The grammar is stricter than the reader. It has no words for numbers that are
none, and no text of it has a capital letter outside its strings but for the mark
of an exponent. That is what sets the words of the reader apart: each of them has
a capital letter that is no such mark (`capitals_of_derives`).
-/

namespace ApiOutline.Json.Grammar

variable {p : Char → Bool} {cs rest mid : List Char} {c : Char} {n : Nat}

/-! ## Characters -/

/-- Characters of a kind, as many as are taken. -/
inductive Run (p : Char → Bool) : List Char → List Char → Prop
  | stop {rest : List Char} : Run p rest rest
  | next {c : Char} {cs rest : List Char} (first : p c = true) (more : Run p cs rest) :
      Run p (c :: cs) rest

/-- Blanks between the symbols. -/
abbrev Blanks : List Char → List Char → Prop := Run isSpace

/-- Digits, at least one. -/
inductive Digits : List Char → List Char → Prop
  | intro {c : Char} {cs rest : List Char} (first : c.isDigit = true)
      (more : Run Char.isDigit cs rest) : Digits (c :: cs) rest

/-! ## Numbers -/

/-- The digits before the point. A zero in front of others is none of them. -/
inductive Whole : List Char → List Char → Prop
  | zero {rest : List Char} : Whole ('0' :: rest) rest
  | digits {c : Char} {cs rest : List Char} (first : c.isDigit = true) (nonzero : c ≠ '0')
      (more : Run Char.isDigit cs rest) : Whole (c :: cs) rest

inductive Fraction : List Char → List Char → Prop
  | absent {rest : List Char} : Fraction rest rest
  | point {cs rest : List Char} (digits : Digits cs rest) : Fraction ('.' :: cs) rest

inductive Exponent : List Char → List Char → Prop
  | absent {rest : List Char} : Exponent rest rest
  | unsigned {mark : Char} {cs rest : List Char} (hmark : mark = 'e' ∨ mark = 'E')
      (digits : Digits cs rest) : Exponent (mark :: cs) rest
  | signed {mark sign : Char} {cs rest : List Char} (hmark : mark = 'e' ∨ mark = 'E')
      (hsign : sign = '+' ∨ sign = '-') (digits : Digits cs rest) :
      Exponent (mark :: sign :: cs) rest

inductive Unsigned : List Char → List Char → Prop
  | intro {cs₁ cs₂ cs₃ rest : List Char} (whole : Whole cs₁ cs₂) (fraction : Fraction cs₂ cs₃)
      (exponent : Exponent cs₃ rest) : Unsigned cs₁ rest

inductive Number : List Char → List Char → Prop
  | positive {cs rest : List Char} (h : Unsigned cs rest) : Number cs rest
  | negative {cs rest : List Char} (h : Unsigned cs rest) : Number ('-' :: cs) rest

/-! ## Strings -/

/-- Whether a character stands for itself in a string. -/
def isUnescaped (c : Char) : Bool := 0x20 ≤ c.toNat && c != '"' && c != '\\'

/-- The letters that may follow a backslash, but for that of an escape by number. -/
def escapes : List Char := ['"', '\\', '/', 'b', 'f', 'n', 'r', 't']

/-- The rest of a string, behind the quote that opens it. -/
inductive Body : List Char → List Char → Prop
  | close {rest : List Char} : Body ('"' :: rest) rest
  | unescaped {c : Char} {cs rest : List Char} (hc : isUnescaped c = true) (body : Body cs rest) :
      Body (c :: cs) rest
  | escaped {c : Char} {cs rest : List Char} (hc : c ∈ escapes) (body : Body cs rest) :
      Body ('\\' :: c :: cs) rest
  | numbered {ds : List Char} {cs rest : List Char} (four : ds.length = 4)
      (hexadecimal : ∀ d ∈ ds, Decimal.isHexDigit d = true) (body : Body cs rest) :
      Body ('\\' :: 'u' :: (ds ++ cs)) rest

/-! ## Values -/

/-- The symbols that refer to each other. -/
inductive Symbol
  | value
  /-- A value with blanks around it. -/
  | element
  /-- Elements with commas between them. -/
  | elements
  /-- A string and an element with a colon between them. -/
  | member
  | members

/-- Whether a text begins with a symbol that leaves a rest. -/
inductive Derives : Symbol → List Char → List Char → Prop
  | word {w : String} {rest : List Char} (h : w ∈ ["null", "true", "false"]) :
      Derives .value (w.toList ++ rest) rest
  | number {cs rest : List Char} (h : Number cs rest) : Derives .value cs rest
  | string {cs rest : List Char} (body : Body cs rest) : Derives .value ('"' :: cs) rest
  | emptyList {cs rest : List Char} (blanks : Blanks cs (']' :: rest)) :
      Derives .value ('[' :: cs) rest
  | list {cs rest : List Char} (elements : Derives .elements cs (']' :: rest)) :
      Derives .value ('[' :: cs) rest
  | emptyObject {cs rest : List Char} (blanks : Blanks cs ('\x7d' :: rest)) :
      Derives .value ('\x7b' :: cs) rest
  | object {cs rest : List Char} (members : Derives .members cs ('\x7d' :: rest)) :
      Derives .value ('\x7b' :: cs) rest
  | element {cs₁ cs₂ cs₃ rest : List Char} (before : Blanks cs₁ cs₂)
      (value : Derives .value cs₂ cs₃) (after : Blanks cs₃ rest) : Derives .element cs₁ rest
  | lastElement {cs rest : List Char} (last : Derives .element cs rest) : Derives .elements cs rest
  | moreElements {cs₁ cs₂ rest : List Char} (first : Derives .element cs₁ (',' :: cs₂))
      (more : Derives .elements cs₂ rest) : Derives .elements cs₁ rest
  | member {cs₁ cs₂ cs₃ cs₄ rest : List Char} (before : Blanks cs₁ ('"' :: cs₂))
      (key : Body cs₂ cs₃) (after : Blanks cs₃ (':' :: cs₄)) (value : Derives .element cs₄ rest) :
      Derives .member cs₁ rest
  | lastMember {cs rest : List Char} (last : Derives .member cs rest) : Derives .members cs rest
  | moreMembers {cs₁ cs₂ rest : List Char} (first : Derives .member cs₁ (',' :: cs₂))
      (more : Derives .members cs₂ rest) : Derives .members cs₁ rest

/-- Whether the whole of a text is one value, with blanks around it. -/
def IsText (cs : List Char) : Prop := Derives .element cs []

/-! ## Parts that are put together -/

theorem run_append (h : ∀ c ∈ cs, p c = true) (rest : List Char) : Run p (cs ++ rest) rest := by
  induction cs with
  | nil => exact .stop
  | cons c cs ih =>
      obtain ⟨hc, hcs⟩ := List.forall_mem_cons.1 h
      exact .next hc (ih hcs)

theorem digits_append (hne : cs ≠ []) (h : ∀ c ∈ cs, c.isDigit = true) (rest : List Char) :
    Digits (cs ++ rest) rest := by
  cases cs with
  | nil => exact absurd rfl hne
  | cons c cs =>
      obtain ⟨hc, hcs⟩ := List.forall_mem_cons.1 h
      exact .intro hc (run_append hcs rest)

/-! ## Capital letters outside strings -/

/-- Whether a character begins a word for a number that is none. -/
def isCapital (c : Char) : Bool := c == 'N' || c == 'I'

/-- The number of such letters outside the strings of a text. The flag says whether the text begins
inside a string. -/
def capitals : Bool → List Char → Nat
  | _, [] => 0
  | true, '\\' :: _ :: cs => capitals true cs
  | inside, '"' :: cs => capitals (!inside) cs
  | true, _ :: cs => capitals true cs
  | false, c :: cs => capitals false cs + if isCapital c then 1 else 0

theorem capitals_quote (inside : Bool) (cs : List Char) :
    capitals inside ('"' :: cs) = capitals (!inside) cs := by
  cases inside <;> simp [capitals]

theorem capitals_outside (hc : c ≠ '"') (cs : List Char) :
    capitals false (c :: cs) = capitals false cs + if isCapital c then 1 else 0 := by
  rw [capitals]
  · exact hc

theorem capitals_inside (hc : c ≠ '"') (hc' : c ≠ '\\') (cs : List Char) :
    capitals true (c :: cs) = capitals true cs := by
  rw [capitals] <;> simp_all

theorem capitals_plain (hc : c ≠ '"') (hplain : isCapital c = false) (cs : List Char) :
    capitals false (c :: cs) = capitals false cs := by
  rw [capitals_outside hc, hplain]
  rfl

theorem capitals_run (hp : ∀ c, p c = true → c ≠ '"' ∧ isCapital c = false) (h : Run p cs rest) :
    capitals false cs = capitals false rest := by
  induction h with
  | stop => rfl
  | next first _ ih =>
      obtain ⟨hne, hplain⟩ := hp _ first
      rw [capitals_plain hne hplain, ih]

theorem capitals_blanks (h : Blanks cs rest) : capitals false cs = capitals false rest := by
  refine capitals_run (fun c hc => ?_) h
  rw [isSpace, decide_eq_true_iff] at hc
  rcases hc with rfl | rfl | rfl | rfl <;> decide

theorem plain_of_isDigit (h : c.isDigit = true) : c ≠ '"' ∧ isCapital c = false := by
  refine ⟨?_, Bool.eq_false_iff.2 fun hcapital => ?_⟩
  · rintro rfl
    cases h
  · rw [isCapital, Bool.or_eq_true, beq_iff_eq, beq_iff_eq] at hcapital
    rcases hcapital with rfl | rfl <;> cases h

theorem capitals_digits (h : Digits cs rest) : capitals false cs = capitals false rest := by
  cases h with
  | intro first more => exact capitals_run (fun _ => plain_of_isDigit) (.next first more)

theorem plain_of_mark (h : c = 'e' ∨ c = 'E') : c ≠ '"' ∧ isCapital c = false := by
  rcases h with rfl | rfl <;> decide

theorem plain_of_sign (h : c = '+' ∨ c = '-') : c ≠ '"' ∧ isCapital c = false := by
  rcases h with rfl | rfl <;> decide

theorem capitals_exponent (h : Exponent cs rest) : capitals false cs = capitals false rest := by
  cases h with
  | absent => rfl
  | unsigned hmark digits =>
      obtain ⟨hne, hplain⟩ := plain_of_mark hmark
      rw [capitals_plain hne hplain, capitals_digits digits]
  | signed hmark hsign digits =>
      obtain ⟨hne, hplain⟩ := plain_of_mark hmark
      obtain ⟨hne', hplain'⟩ := plain_of_sign hsign
      rw [capitals_plain hne hplain, capitals_plain hne' hplain', capitals_digits digits]

theorem capitals_unsigned (h : Unsigned cs rest) : capitals false cs = capitals false rest := by
  obtain ⟨whole, fraction, exponent⟩ := h
  have hwhole : ∀ {cs rest : List Char}, Whole cs rest → capitals false cs = capitals false rest
    | _, _, .zero => capitals_plain (by decide) (by decide) _
    | _, _, .digits first _ more => capitals_run (fun _ => plain_of_isDigit) (.next first more)
  have hfraction : ∀ {cs rest : List Char}, Fraction cs rest →
      capitals false cs = capitals false rest
    | _, _, .absent => rfl
    | _, _, .point digits => by
        rw [capitals_plain (by decide) (by decide), capitals_digits digits]
  rw [hwhole whole, hfraction fraction, capitals_exponent exponent]

theorem capitals_number (h : Number cs rest) : capitals false cs = capitals false rest := by
  cases h with
  | positive h => exact capitals_unsigned h
  | negative h => rw [capitals_plain (by decide) (by decide), capitals_unsigned h]

theorem capitals_hexDigits (h : ∀ d ∈ cs, Decimal.isHexDigit d = true) (rest : List Char) :
    capitals true (cs ++ rest) = capitals true rest := by
  induction cs with
  | nil => rfl
  | cons d cs ih =>
      obtain ⟨hd, hcs⟩ := List.forall_mem_cons.1 h
      have hquote : d ≠ '"' := by
        rintro rfl
        exact absurd hd (by decide)
      have hbackslash : d ≠ '\\' := by
        rintro rfl
        exact absurd hd (by decide)
      rw [List.cons_append, capitals_inside hquote hbackslash, ih hcs]

theorem capitals_of_body (h : Body cs rest) : capitals true cs = capitals false rest := by
  induction h with
  | close => exact capitals_quote true _
  | unescaped hc _ ih =>
      rw [isUnescaped, Bool.and_eq_true, Bool.and_eq_true, bne_iff_ne, bne_iff_ne] at hc
      rw [capitals_inside hc.1.2 hc.2, ih]
  | escaped _ _ ih => exact ih
  | numbered _ hexadecimal _ ih => exact (capitals_hexDigits hexadecimal _).trans ih

/-- No symbol has a capital letter of that kind outside its strings. -/
theorem capitals_of_derives {s : Symbol} (h : Derives s cs rest) :
    capitals false cs = capitals false rest := by
  induction h with
  | word hw =>
      simp only [List.mem_cons, List.not_mem_nil, or_false] at hw
      rcases hw with rfl | rfl | rfl <;> simp [capitals, isCapital]
  | number hnumber => exact capitals_number hnumber
  | string body => rw [capitals_quote, Bool.not_false, capitals_of_body body]
  | emptyList blanks | emptyObject blanks =>
      rw [capitals_plain (by decide) (by decide), capitals_blanks blanks,
        capitals_plain (by decide) (by decide)]
  | list _ ih | object _ ih =>
      rw [capitals_plain (by decide) (by decide), ih, capitals_plain (by decide) (by decide)]
  | element before _ after ih => rw [capitals_blanks before, ih, capitals_blanks after]
  | lastElement _ ih | lastMember _ ih => exact ih
  | moreElements _ _ ihfirst ihmore | moreMembers _ _ ihfirst ihmore =>
      rw [ihfirst, capitals_plain (by decide) (by decide), ihmore]
  | member before key after _ ih =>
      rw [capitals_blanks before, capitals_quote, Bool.not_false, capitals_of_body key,
        capitals_blanks after, capitals_plain (by decide) (by decide), ih]

/-! ## What a part of a text adds -/

/-- Whether a text has so many of these letters outside its strings, all of which it closes. -/
def Adds (n : Nat) (cs : List Char) : Prop :=
  ∀ rest, capitals false (cs ++ rest) = n + capitals false rest

theorem Adds.append {m : Nat} (hcs : Adds n cs) (hmid : Adds m mid) : Adds (n + m) (cs ++ mid) := by
  intro rest
  rw [List.append_assoc, hcs, hmid, Nat.add_assoc]

theorem Adds.cons (hc : c ≠ '"') (hplain : isCapital c = false) (h : Adds n cs) :
    Adds n (c :: cs) := by
  intro rest
  rw [List.cons_append, capitals_plain hc hplain, h]

theorem adds_of_derives {s : Symbol} (h : ∀ rest, Derives s (cs ++ rest) rest) : Adds 0 cs := by
  intro rest
  rw [capitals_of_derives (h rest), Nat.zero_add]

theorem adds_blanks (h : ∀ c ∈ cs, isSpace c = true) : Adds 0 cs := by
  intro rest
  rw [capitals_blanks (run_append h rest), Nat.zero_add]

/-- A text of the grammar has none of them. -/
theorem Adds.eq_zero (hadds : Adds n cs) (h : IsText cs) : n = 0 := by
  have hcount := capitals_of_derives h
  have hall := hadds []
  rw [List.append_nil, hcount] at hall
  omega

end ApiOutline.Json.Grammar
