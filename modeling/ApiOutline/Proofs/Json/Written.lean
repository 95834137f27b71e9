import ApiOutline.Proofs.Json.Strings
import ApiOutline.Proofs.Value.Plain

/-!
# Values in JSON, read back

A value without doubles whose integers are not too long is read from its text
as it was, keys in order, under every layout (`parse_render`). A value is never
read alone: what follows it in the text has to be unable to go on with a number
(`EndsNumber`), and every layout puts a blank or a sign there.

The budget of the reader is measured in characters. Two steps for each of them
are enough, which holds of a value if it holds of its parts, since between two
parts there is a comma at least.
-/

namespace ApiOutline

/-- Whether a value is all that its text says: there is no double in it, no
integer with more digits than are read, no key twice, and nothing shared. -/
inductive Value.IsExact : Value → Prop
  | null : IsExact .null
  | bool (b : Bool) : IsExact (.bool b)
  | int {n : Int} (short : (Nat.toDigits 10 n.natAbs).length ≤ Decimal.digitLimit) :
      IsExact (.int n)
  | str (s : String) : IsExact (.str s)
  | list {items : List Value} (elements : ∀ v ∈ items, IsExact v) : IsExact (.list items)
  | map {ms : List (Value × Value)} (named : Members.Named ms) (values : ∀ m ∈ ms, IsExact m.2) :
      IsExact (.map none ms)

namespace Json

variable {style : Style} {level fuel : Nat} {v : Value} {items : List Value} {ms : Members}
  {cs rest : List Char}

/-! ## Blanks -/

theorem skipSpace_append (h : ∀ c ∈ cs, isSpace c = true) (rest : List Char) :
    skipSpace (cs ++ rest) = skipSpace rest :=
  List.dropWhile_append_of_pos h

theorem isSpace_of_mem_newline {c : Char} (h : c ∈ style.newline level) : isSpace c = true := by
  unfold Style.newline at h
  split at h
  · cases h
  · rcases List.mem_cons.1 h with rfl | hspace
    · decide
    · rw [List.eq_of_mem_replicate hspace]
      decide

theorem exists_separator (style : Style) (level : Nat) :
    ∃ blanks, style.separator level = ',' :: blanks ∧ ∀ c ∈ blanks, isSpace c = true := by
  unfold Style.separator
  split
  · exact ⟨[' '], rfl, List.forall_mem_singleton.2 rfl⟩
  · exact ⟨_, rfl, fun c hc => isSpace_of_mem_newline hc⟩

/-! ## Numbers -/

/-- Whether nothing that goes on with a number comes first. -/
def EndsNumber (cs : List Char) : Prop :=
  ∀ c ∈ cs.head?, c.isDigit = false ∧ c ≠ '.' ∧ c ≠ 'e' ∧ c ≠ 'E'

theorem endsNumber_cons {c : Char}
    (h : c.isDigit = false ∧ c ≠ '.' ∧ c ≠ 'e' ∧ c ≠ 'E') : EndsNumber (c :: cs) := by
  simpa [EndsNumber] using h

theorem endsNumber_newline_append (h : EndsNumber rest) :
    EndsNumber (style.newline level ++ rest) := by
  unfold Style.newline
  split
  · exact h
  · exact endsNumber_cons (by decide)

theorem takeWhile_digits (hcs : ∀ c ∈ cs, c.isDigit = true) (h : EndsNumber rest) :
    (cs ++ rest).takeWhile Char.isDigit = cs ∧ (cs ++ rest).dropWhile Char.isDigit = rest := by
  rw [List.takeWhile_append_of_pos hcs, List.dropWhile_append_of_pos hcs]
  cases rest with
  | nil => exact ⟨List.append_nil cs, rfl⟩
  | cons c rest =>
      have hc : ¬ c.isDigit = true := by simp [(h c rfl).1]
      rw [List.takeWhile_cons_of_neg hc, List.dropWhile_cons_of_neg hc, List.append_nil]
      exact ⟨rfl, rfl⟩

theorem isDigit_of_mem_toDigits {n : Nat} {c : Char} (h : c ∈ Nat.toDigits 10 n) :
    c.isDigit = true :=
  Nat.isDigit_of_mem_toDigits (by decide) (by decide) h

theorem wholeDigits_toDigits (n : Nat) (h : EndsNumber rest) :
    wholeDigits (Nat.toDigits 10 n ++ rest) = some (Nat.toDigits 10 n, rest) := by
  rcases Nat.eq_zero_or_pos n with rfl | hpos
  · rfl
  · have hhead : (Nat.toDigits 10 n).head? ≠ some '0' :=
      Decimal.head?_toDigits_ne_zero (by decide) (Nat.ne_of_gt hpos)
    have hdigits := fun c => isDigit_of_mem_toDigits (n := n) (c := c)
    cases hds : Nat.toDigits 10 n with
    | nil => exact absurd hds Nat.toDigits_ne_nil
    | cons d ds =>
        rw [hds] at hhead hdigits
        obtain ⟨hd, hrest⟩ := List.forall_mem_cons.1 hdigits
        obtain ⟨htake, hdrop⟩ := takeWhile_digits hrest h
        rw [List.cons_append, wholeDigits]
        · rw [if_pos hd, htake, hdrop]
        · rintro rfl
          exact hhead rfl

theorem fractionDigits_of_endsNumber (h : EndsNumber cs) : fractionDigits cs = none := by
  unfold fractionDigits
  split
  · exact absurd rfl (h '.' rfl).2.1
  · rfl

theorem exponentDigits_of_endsNumber (h : EndsNumber cs) : exponentDigits cs = none := by
  cases cs with
  | nil => rfl
  | cons c cs =>
      obtain ⟨-, -, hsmall, hcapital⟩ := h c rfl
      rw [exponentDigits, if_neg (by simp [hsmall, hcapital])]

theorem unsigned_toDigits {n : Nat} (negative : Bool)
    (hshort : (Nat.toDigits 10 n).length ≤ Decimal.digitLimit) (h : EndsNumber rest) :
    unsigned negative (Nat.toDigits 10 n ++ rest) =
      some (.ok (.int (if negative then -(n : Int) else n), rest)) := by
  have hvalue : Decimal.ofDigits 10 (Nat.toDigits 10 n) = n :=
    Decimal.ofDigits_toDigits (by decide) (by decide) n
  rw [unsigned, wholeDigits_toDigits n h]
  simp only [Option.map_some, fractionDigits_of_endsNumber h, Option.elim,
    exponentDigits_of_endsNumber h, if_neg (Nat.not_lt.2 hshort),
    hvalue]

/-- What begins with a digit is none of the words. -/
theorem find?_words_of_isDigit {c : Char} (h : c.isDigit = true) :
    (words.find? fun w => w.1.isPrefixOf (c :: cs)) = none := by
  rw [List.find?_eq_none]
  intro w hw hprefix
  simp only [words, List.mem_cons, List.not_mem_nil, or_false] at hw
  rcases hw with rfl | rfl | rfl | rfl | rfl | rfl <;>
    · simp [List.isPrefixOf] at hprefix
      rw [← hprefix.1] at h
      cases h

theorem find?_words_of_minus {c : Char} (h : c.isDigit = true) :
    (words.find? fun w => w.1.isPrefixOf ('-' :: c :: cs)) = none := by
  have hc : c ≠ 'I' := by
    rintro rfl
    cases h
  simp [words, List.isPrefixOf, hc.symm]

theorem scalar_of_isDigit {c : Char} {answer : Except Stop (Value × List Char)}
    (hc : c.isDigit = true) (h : unsigned false (c :: cs) = some answer) :
    scalar (c :: cs) = answer := by
  have hminus : c ≠ '-' := by
    rintro rfl
    cases hc
  rw [scalar, find?_words_of_isDigit hc]
  · simp only [h]
  · rintro _ heq
    exact hminus (List.cons.inj heq).1

theorem scalar_of_minus {c : Char} {answer : Except Stop (Value × List Char)}
    (hc : c.isDigit = true) (h : unsigned true (c :: cs) = some answer) :
    scalar ('-' :: c :: cs) = answer := by
  rw [scalar, find?_words_of_minus hc]
  simp only [h]

theorem toList_intText (n : Int) : (Decimal.intText n).toList =
    if n < 0 then '-' :: Nat.toDigits 10 n.natAbs else Nat.toDigits 10 n.natAbs := by
  unfold Decimal.intText Decimal.natText
  split
  · simp only [String.toList_append, String.toList_ofList]
    rfl
  · exact String.toList_ofList

theorem scalar_intText {n : Int}
    (hshort : (Nat.toDigits 10 n.natAbs).length ≤ Decimal.digitLimit) (h : EndsNumber rest) :
    scalar ((Decimal.intText n).toList ++ rest) = .ok (.int n, rest) := by
  have hdigits := fun c => isDigit_of_mem_toDigits (n := n.natAbs) (c := c)
  have hread := fun negative => unsigned_toDigits negative hshort h
  rw [toList_intText]
  cases hds : Nat.toDigits 10 n.natAbs with
  | nil => exact absurd hds Nat.toDigits_ne_nil
  | cons d ds =>
      rw [hds] at hdigits hread
      have hd := hdigits d List.mem_cons_self
      simp only [List.cons_append] at hread
      split
      · next hneg =>
          have habs : -(n.natAbs : Int) = n := by omega
          rw [List.cons_append, List.cons_append, scalar_of_minus hd (hread true), if_pos rfl, habs]
      · next hneg =>
          have habs : (n.natAbs : Int) = n := by omega
          rw [List.cons_append, scalar_of_isDigit hd (hread false), if_neg Bool.false_ne_true, habs]

/-! ## One value after the other -/

/-- Whether a value may begin here: no blank comes first, no bracket that ends something, and no
byte order mark. -/
def StartsValue (cs : List Char) : Prop :=
  ∃ c rest, cs = c :: rest ∧ isSpace c = false ∧ c ≠ ']' ∧ c ≠ '\ufeff'

theorem StartsValue.skipSpace_append (h : StartsValue cs) (rest : List Char) :
    skipSpace (cs ++ rest) = cs ++ rest := by
  obtain ⟨c, cs, rfl, hc, -⟩ := h
  exact List.dropWhile_cons_of_neg (by simp [hc])

theorem StartsValue.append (h : StartsValue cs) (rest : List Char) : StartsValue (cs ++ rest) := by
  obtain ⟨c, cs, rfl, hc⟩ := h
  exact ⟨c, cs ++ rest, rfl, hc⟩

theorem startsValue_digits (n : Nat) : StartsValue (Nat.toDigits 10 n) := by
  have hdigits := fun c => isDigit_of_mem_toDigits (n := n) (c := c)
  cases hds : Nat.toDigits 10 n with
  | nil => exact absurd hds Nat.toDigits_ne_nil
  | cons d ds =>
      rw [hds] at hdigits
      have hd := hdigits d List.mem_cons_self
      refine ⟨d, ds, rfl, ?_, ?_, ?_⟩
      · rw [isSpace, decide_eq_false_iff_not]
        rintro (rfl | rfl | rfl | rfl) <;> cases hd
      · rintro rfl
        cases hd
      · rintro rfl
        cases hd

theorem startsValue_bracket {opening closing : Char} (parts : List (List Char))
    (h : isSpace opening = false) (hne : opening ≠ ']' ∧ opening ≠ '\ufeff') :
    StartsValue (style.bracket level opening closing parts) := by
  unfold Style.bracket
  split
  · exact ⟨_, _, rfl, h, hne⟩
  · exact ⟨_, _, rfl, h, hne⟩

theorem startsValue_write (style : Style) (h : v.IsExact) (level : Nat) :
    StartsValue (write style level v) := by
  cases h with
  | null => exact ⟨_, _, rfl, by decide, by decide⟩
  | bool b => cases b <;> exact ⟨_, _, rfl, by decide, by decide⟩
  | int _ =>
      rw [write, toList_intText]
      split
      · exact ⟨_, _, rfl, by decide, by decide⟩
      · exact startsValue_digits _
  | str s => exact ⟨_, _, rfl, by decide, by decide⟩
  | list _ => exact startsValue_bracket _ (by decide) (by decide)
  | map _ _ => exact startsValue_bracket _ (by decide) (by decide)

/-- Whether a value is read back from its text, with a budget of two steps for each character. -/
def ReadsBack (style : Style) (v : Value) : Prop :=
  ∀ level fuel rest, 2 * (write style level v).length ≤ fuel → EndsNumber rest →
    value none fuel (write style level v ++ rest) = .ok (v, rest)

theorem skipSpace_cons {c : Char} (h : isSpace c = false) : skipSpace (c :: cs) = c :: cs :=
  List.dropWhile_cons_of_neg (by simp [h])

theorem value_of_scalar {c : Char} (h : c ≠ '"' ∧ c ≠ '\x7b' ∧ c ≠ '[') (cs : List Char) :
    value none (fuel + 1) (c :: cs) = scalar (c :: cs) := by
  obtain ⟨hquote, hbrace, hbracket⟩ := h
  unfold value
  split
  · next hfuel => cases hfuel
  · next heq => exact absurd (List.cons.inj heq).1 hquote
  · next heq => exact absurd (List.cons.inj heq).1 hbrace
  · next heq => exact absurd (List.cons.inj heq).1 hbracket
  · rfl

theorem readsBack_of_scalar {c : Char} {v : Value} (hc : c ≠ '"' ∧ c ≠ '\x7b' ∧ c ≠ '[')
    (hwrite : ∀ level, write style level v = c :: cs)
    (h : ∀ rest, EndsNumber rest → scalar (c :: cs ++ rest) = .ok (v, rest)) :
    ReadsBack style v := by
  intro level fuel rest hfuel hrest
  rw [hwrite] at hfuel ⊢
  obtain ⟨fuel, rfl⟩ : ∃ k, fuel = k + 1 := ⟨fuel - 1, by simp at hfuel; omega⟩
  rw [List.cons_append, value_of_scalar hc]
  exact h rest hrest

theorem readsBack_int {n : Int} (hshort : (Nat.toDigits 10 n.natAbs).length ≤ Decimal.digitLimit) :
    ReadsBack style (.int n) := by
  have hdigits := fun c => isDigit_of_mem_toDigits (n := n.natAbs) (c := c)
  obtain ⟨c, cs, hwrite, hc⟩ : ∃ c cs, (Decimal.intText n).toList = c :: cs ∧
      (c ≠ '"' ∧ c ≠ '\x7b' ∧ c ≠ '[') := by
    rw [toList_intText]
    split
    · exact ⟨_, _, rfl, by decide⟩
    · cases hds : Nat.toDigits 10 n.natAbs with
      | nil => exact absurd hds Nat.toDigits_ne_nil
      | cons d ds =>
          rw [hds] at hdigits
          refine ⟨d, ds, rfl, ?_⟩
          refine ⟨?_, ?_, ?_⟩ <;>
            · rintro rfl
              cases hdigits _ List.mem_cons_self
  refine readsBack_of_scalar hc (fun _ => by rw [write, hwrite]) fun rest hrest => ?_
  rw [← hwrite]
  exact scalar_intText hshort hrest

theorem readsBack_str (s : String) : ReadsBack style (.str s) := by
  intro level fuel rest hfuel _
  rw [write, writeString] at hfuel ⊢
  obtain ⟨fuel, rfl⟩ : ∃ k, fuel = k + 1 := ⟨fuel - 1, by simp at hfuel; omega⟩
  simp only [List.cons_append, List.append_assoc, List.nil_append, value, string_writeString]

/-! ## Lists -/

/-- What is written of some items after each other begins as the first of them. -/
theorem startsValue_intercalate {separator part : List Char} (parts : List (List Char))
    (h : StartsValue part) : StartsValue (separator.intercalate (part :: parts)) := by
  obtain ⟨c, cs, rfl, hc⟩ := h
  cases parts with
  | nil => exact ⟨c, cs, List.intercalate_singleton, hc⟩
  | cons next parts =>
      rw [List.intercalate_cons_cons, List.cons_append, List.cons_append]
      exact ⟨c, _, rfl, hc⟩

theorem elements_written (level fuel : Nat) (blanks rest : List Char) (hne : items ≠ [])
    (h : ∀ v ∈ items, v.IsExact ∧ ReadsBack style v)
    (hfuel : 2 * ((style.separator level).intercalate (writeItems style level items)).length <
      fuel) (hblanks : ∀ c ∈ blanks, isSpace c = true)
    (hends : ∀ rest, EndsNumber rest → EndsNumber (blanks ++ rest)) :
    elements none fuel ((style.separator level).intercalate (writeItems style level items) ++
      (blanks ++ ']' :: rest)) = .ok (items, rest) := by
  obtain ⟨gap, hseparator, hgap⟩ := exists_separator style level
  induction items generalizing fuel with
  | nil => exact absurd rfl hne
  | cons v items ih =>
      obtain ⟨fuel, rfl⟩ : ∃ k, fuel = k + 1 := ⟨fuel - 1, by omega⟩
      obtain ⟨⟨-, hread⟩, hrest⟩ := List.forall_mem_cons.1 h
      have hclose : EndsNumber (blanks ++ ']' :: rest) := hends _ (endsNumber_cons (by decide))
      cases items with
      | nil =>
          simp only [writeItems, List.intercalate_singleton] at hfuel ⊢
          rw [elements, hread level fuel _ (by omega) hclose]
          simp only [skipSpace_append hblanks, skipSpace_cons (c := ']') (by decide)]
      | cons w more =>
          have hstart : StartsValue ((style.separator level).intercalate
              (writeItems style level (w :: more))) :=
            startsValue_intercalate _ (startsValue_write style (hrest w List.mem_cons_self).1 level)
          have hnext := ih fuel (by simp) hrest
          rw [writeItems] at hstart hnext
          rw [writeItems, writeItems, List.intercalate_cons_cons] at hfuel ⊢
          rw [List.length_append, List.length_append, hseparator, List.length_cons] at hfuel
          rw [hseparator] at hnext hstart
          rw [elements, hseparator, List.append_assoc, List.append_assoc, List.cons_append,
            hread level fuel _ (by omega) (endsNumber_cons (by decide))]
          simp only [skipSpace_cons (c := ',') (by decide), skipSpace_append hgap,
            hstart.skipSpace_append, hnext (by omega)]

theorem bracket_append (style : Style) (level : Nat) (opening closing : Char)
    {parts : List (List Char)} (hne : parts ≠ []) (rest : List Char) :
    style.bracket level opening closing parts ++ rest =
      opening :: (style.newline (level + 1) ++ ((style.separator (level + 1)).intercalate parts ++
        (style.newline level ++ closing :: rest))) := by
  have hparts : parts.isEmpty = false := by simpa using hne
  rw [Style.bracket, hparts, if_neg Bool.false_ne_true]
  simp only [List.cons_append, List.append_assoc, List.nil_append]

theorem length_bracket (style : Style) (level : Nat) (opening closing : Char)
    {parts : List (List Char)} (hne : parts ≠ []) :
    ((style.separator (level + 1)).intercalate parts).length + 2 ≤
      (style.bracket level opening closing parts).length := by
  have h := congrArg List.length (bracket_append style level opening closing hne [])
  simp only [List.append_nil, List.length_cons, List.length_append, List.length_nil] at h
  omega

theorem value_list {blanks body : List Char} (hblanks : ∀ c ∈ blanks, isSpace c = true)
    (hstart : StartsValue body) (h : elements none fuel body = .ok (items, rest)) :
    value none (fuel + 1) ('[' :: (blanks ++ body)) = .ok (.list items, rest) := by
  obtain ⟨c, cs, rfl, hspace, hclose, -⟩ := hstart
  rw [value, if_neg (by simp), skipSpace_append hblanks, skipSpace_cons hspace]
  split
  · next heq => exact absurd (List.cons.inj heq).1 hclose
  · rw [Room.within_none, h]

theorem readsBack_list (h : ∀ v ∈ items, v.IsExact ∧ ReadsBack style v) :
    ReadsBack style (.list items) := by
  intro level fuel rest hfuel _
  rw [write] at hfuel ⊢
  cases items with
  | nil =>
      obtain ⟨fuel, rfl⟩ : ∃ k, fuel = k + 1 := ⟨fuel - 1, by
        simp [writeItems, Style.bracket] at hfuel
        omega⟩
      rfl
  | cons v items =>
      have hne : writeItems style (level + 1) (v :: items) ≠ [] := List.cons_ne_nil _ _
      have hlength := length_bracket style level '[' ']' hne
      obtain ⟨fuel, rfl⟩ : ∃ k, fuel = k + 1 := ⟨fuel - 1, by omega⟩
      have hread := elements_written (level + 1) fuel (style.newline level) rest
        (List.cons_ne_nil v items) h (by omega)
        (fun _ => isSpace_of_mem_newline) fun _ => endsNumber_newline_append
      have hstart : StartsValue ((style.separator (level + 1)).intercalate
          (writeItems style (level + 1) (v :: items))) :=
        startsValue_intercalate _ (startsValue_write style (h v List.mem_cons_self).1 (level + 1))
      rw [bracket_append _ _ _ _ hne]
      exact value_list (fun _ => isSpace_of_mem_newline) (hstart.append _) hread

/-! ## Mappings -/

section Member

variable {s : String} {body after : List Char} (asciiOnly : Bool)

theorem members_last (hstart : StartsValue body)
    (h : value none fuel (body ++ after) = .ok (v, after))
    (hafter : skipSpace after = '\x7d' :: rest) :
    members none (fuel + 1) (writeString asciiOnly s ++ [':', ' '] ++ body ++ after) =
      .ok ([(.str s, v)], rest) := by
  have hbody : skipSpace (' ' :: (body ++ after)) = body ++ after := hstart.skipSpace_append after
  simp only [writeString, List.cons_append, List.append_assoc, List.nil_append]
  rw [members, string_writeString]
  simp only [skipSpace_cons (c := ':') (by decide), hbody, h, hafter]

theorem members_more (hstart : StartsValue body)
    (h : value none fuel (body ++ after) = .ok (v, after)) {next : List Char}
    (hafter : skipSpace after = ',' :: next)
    (hnext : members none fuel (skipSpace next) = .ok (ms, rest)) :
    members none (fuel + 1) (writeString asciiOnly s ++ [':', ' '] ++ body ++ after) =
      .ok ((.str s, v) :: ms, rest) := by
  have hbody : skipSpace (' ' :: (body ++ after)) = body ++ after := hstart.skipSpace_append after
  simp only [writeString, List.cons_append, List.append_assoc, List.nil_append]
  rw [members, string_writeString]
  simp only [skipSpace_cons (c := ':') (by decide), hbody, h, hafter, hnext]

end Member

theorem members_written (level fuel : Nat) (blanks rest : List Char) (hne : ms ≠ [])
    (hkeys : ∀ m ∈ ms, m.1.isText = true) (h : ∀ m ∈ ms, m.2.IsExact ∧ ReadsBack style m.2)
    (hfuel : 2 * ((style.separator level).intercalate (writeMembers style level ms)).length <
      fuel) (hblanks : ∀ c ∈ blanks, isSpace c = true)
    (hends : ∀ rest, EndsNumber rest → EndsNumber (blanks ++ rest)) :
    members none fuel ((style.separator level).intercalate (writeMembers style level ms) ++
      (blanks ++ '\x7d' :: rest)) = .ok (ms, rest) := by
  obtain ⟨gap, hseparator, hgap⟩ := exists_separator style level
  induction ms generalizing fuel with
  | nil => exact absurd rfl hne
  | cons m ms ih =>
      obtain ⟨k, v⟩ := m
      obtain ⟨fuel, rfl⟩ : ∃ k, fuel = k + 1 := ⟨fuel - 1, by omega⟩
      obtain ⟨⟨hexact, hread⟩, hrest⟩ := List.forall_mem_cons.1 h
      obtain ⟨htext, hkeysRest⟩ := List.forall_mem_cons.1 hkeys
      obtain ⟨s, rfl⟩ := Members.eq_str_of_isText htext
      have hstart := startsValue_write style hexact level
      have hclose : EndsNumber (blanks ++ '\x7d' :: rest) := hends _ (endsNumber_cons (by decide))
      simp only [] at hstart hread
      cases ms with
      | nil =>
          simp only [writeMembers, List.intercalate_singleton, keyName] at hfuel ⊢
          rw [List.length_append, List.length_append] at hfuel
          exact members_last _ hstart (hread level fuel _ (by omega) hclose)
            (skipSpace_append hblanks _)
      | cons next more =>
          have hnext := ih fuel (List.cons_ne_nil _ _) hkeysRest hrest
          have hname : StartsValue ((style.separator level).intercalate
              (writeMembers style level (next :: more))) := by
            obtain ⟨k, w⟩ := next
            exact startsValue_intercalate _ ⟨'"', _, rfl, by decide, by decide⟩
          simp only [writeMembers, List.intercalate_cons_cons, keyName] at hfuel hnext hname ⊢
          rw [List.length_append, List.length_append, List.length_append, List.length_append,
            hseparator, List.length_cons] at hfuel
          rw [hseparator] at hnext hname ⊢
          rw [List.append_assoc, List.append_assoc, List.cons_append]
          refine members_more _ hstart (hread level fuel _ (by omega) (endsNumber_cons (by decide)))
            (skipSpace_cons (by decide)) ?_
          rw [skipSpace_append hgap, hname.skipSpace_append]
          exact hnext (by omega)

theorem value_map {blanks body : List Char} (hblanks : ∀ c ∈ blanks, isSpace c = true)
    (h : members none fuel ('"' :: body) = .ok (ms, rest)) :
    value none (fuel + 1) ('\x7b' :: (blanks ++ '"' :: body)) =
      .ok (.ofMembers (Members.ofList ms), rest) := by
  rw [value, if_neg (by simp), skipSpace_append hblanks, skipSpace_cons (by decide)]
  split
  · next heq => exact absurd (List.cons.inj heq).1 (by decide)
  · rw [Room.within_none, h]

theorem readsBack_map (hnamed : Members.Named ms)
    (h : ∀ m ∈ ms, m.2.IsExact ∧ ReadsBack style m.2) : ReadsBack style (.map none ms) := by
  intro level fuel rest hfuel _
  rw [write] at hfuel ⊢
  cases ms with
  | nil =>
      obtain ⟨fuel, rfl⟩ : ∃ k, fuel = k + 1 := ⟨fuel - 1, by
        simp [writeMembers, Style.bracket] at hfuel
        omega⟩
      rfl
  | cons m ms =>
      have hne : writeMembers style (level + 1) (m :: ms) ≠ [] := List.cons_ne_nil _ _
      have hlength := length_bracket style level '\x7b' '\x7d' hne
      obtain ⟨fuel, rfl⟩ : ∃ k, fuel = k + 1 := ⟨fuel - 1, by omega⟩
      have hread := members_written (level + 1) fuel (style.newline level) rest
        (List.cons_ne_nil m ms) hnamed.keys h (by omega)
        (fun _ => isSpace_of_mem_newline) fun _ => endsNumber_newline_append
      obtain ⟨cs, hcs⟩ : ∃ cs, (style.separator (level + 1)).intercalate
          (writeMembers style (level + 1) (m :: ms)) = '"' :: cs := by
        obtain ⟨k, v⟩ := m
        cases ms with
        | nil => exact ⟨_, List.intercalate_singleton⟩
        | cons => exact ⟨_, List.intercalate_cons_cons⟩
      rw [bracket_append _ _ _ _ hne]
      rw [hcs] at hread ⊢
      rw [List.cons_append] at hread ⊢
      rw [value_map (fun _ => isSpace_of_mem_newline) hread, hnamed.ofList]

/-! ## Whole texts -/

theorem readsBack_of_isExact (style : Style) (h : v.IsExact) : ReadsBack style v := by
  induction h with
  | null => exact readsBack_of_scalar (by decide) (fun _ => rfl) fun _ _ => rfl
  | bool b =>
      cases b with
      | true => exact readsBack_of_scalar (by decide) (fun _ => rfl) fun _ _ => rfl
      | false => exact readsBack_of_scalar (by decide) (fun _ => rfl) fun _ _ => rfl
  | int hshort => exact readsBack_int hshort
  | str s => exact readsBack_str s
  | list helements ih => exact readsBack_list fun v hv => ⟨helements v hv, ih v hv⟩
  | map hnamed hvalues ih => exact readsBack_map hnamed fun m hm => ⟨hvalues m hm, ih m hm⟩

/-- A value that its text says in full is read back from it, with any blanks after it. -/
theorem parse_render (style : Style) (blanks : List Char) (h : v.IsExact)
    (hblanks : ∀ c ∈ blanks, isSpace c = true) (hends : EndsNumber blanks) :
    parse (render style v ++ String.ofList blanks) = .ok v := by
  have hstart := startsValue_write style h 0
  have hread := readsBack_of_isExact style h 0
    (2 * (write style 0 v ++ blanks).length + 2) blanks (by
      rw [List.length_append]
      omega) hends
  have hnone : skipSpace blanks = [] := by
    have := skipSpace_append hblanks []
    rwa [List.append_nil] at this
  obtain ⟨c, cs, hwrite, hspace, -, hmark⟩ := hstart
  unfold parse parseWithin
  simp only [render, String.toList_append, String.toList_ofList]
  rw [hwrite, List.cons_append] at hread ⊢
  split
  · next heq => exact absurd (List.cons.inj heq).1 hmark
  · rw [skipSpace_cons hspace, hread]
    simp only [hnone]

/-! ## No carriage returns

A reader of files changes carriage returns. No text written here has one: in a
string it is written as an escape, and the layouts use none. -/

theorem notMem_unitEscape (c : Char) : '\r' ∉ unitEscape c := by
  have hhex : ∀ n, '\r' ∉ Text.hex 4 n := fun n hmem => by cases Text.isHexDigit_of_mem_hex hmem
  rcases Nat.lt_or_ge c.toNat 0x10000 with hplane | hbeyond
  · simp [unitEscape_plane hplane, hhex]
  · obtain ⟨a, b, -, hescape⟩ := exists_unitEscape_pair hbeyond
    simp [hescape, hhex]

theorem notMem_escape (asciiOnly : Bool) (c : Char) : '\r' ∉ escape asciiOnly c := by
  unfold escape
  split
  · decide
  split
  · decide
  split
  · decide
  split
  · decide
  split
  · decide
  split
  · decide
  split
  · decide
  split
  · exact notMem_unitEscape c
  split
  · exact notMem_unitEscape c
  · next hreturn _ _ _ _ _ => exact fun hmem => hreturn (List.mem_singleton.1 hmem).symm

theorem notMem_writeString (asciiOnly : Bool) (s : String) : '\r' ∉ writeString asciiOnly s := by
  have hbody : '\r' ∉ s.toList.flatMap (escape asciiOnly) := fun hmem =>
    let ⟨c, _, hc⟩ := List.mem_flatMap.1 hmem
    notMem_escape asciiOnly c hc
  simp [writeString, hbody]

theorem notMem_newline : '\r' ∉ style.newline level := by
  unfold Style.newline
  split
  · exact List.not_mem_nil
  · simp

theorem notMem_separator (style : Style) (level : Nat) : '\r' ∉ style.separator level := by
  unfold Style.separator
  split
  · decide
  · simp [notMem_newline]

theorem notMem_intercalate {c : Char} {separator : List Char} {parts : List (List Char)}
    (hseparator : c ∉ separator) (h : ∀ p ∈ parts, c ∉ p) : c ∉ separator.intercalate parts := by
  induction parts with
  | nil => exact List.not_mem_nil
  | cons part parts ih =>
      obtain ⟨hpart, hrest⟩ := List.forall_mem_cons.1 h
      cases parts with
      | nil => simpa using hpart
      | cons next parts =>
          rw [List.intercalate_cons_cons]
          simp [hpart, hseparator, ih hrest]

theorem notMem_bracket {opening closing : Char} {parts : List (List Char)}
    (hbrackets : '\r' ∉ [opening, closing]) (h : ∀ p ∈ parts, '\r' ∉ p) :
    '\r' ∉ style.bracket level opening closing parts := by
  have hparts := notMem_intercalate (notMem_separator style (level + 1)) h
  unfold Style.bracket
  split
  · exact hbrackets
  · simp only [List.mem_cons, List.not_mem_nil, or_false, not_or] at hbrackets
    simp [hbrackets, hparts, notMem_newline]

theorem writeItems_eq_map (level : Nat) (items : List Value) :
    writeItems style level items = items.map (write style level) := by
  induction items with
  | nil => rfl
  | cons v items ih => rw [writeItems, ih, List.map_cons]

theorem writeMembers_eq_map (level : Nat) (ms : Members) :
    writeMembers style level ms = ms.map fun m =>
      writeString style.asciiOnly (keyName m.1) ++ [':', ' '] ++ write style level m.2 := by
  induction ms with
  | nil => rfl
  | cons m ms ih => rw [writeMembers, ih, List.map_cons]

/-- What is written has no carriage return in it. -/
theorem notMem_write (style : Style) (h : v.IsExact) (level : Nat) :
    '\r' ∉ write style level v := by
  induction h generalizing level with
  | null => simp [write]
  | bool b => cases b <;> simp [write]
  | @int n _ =>
      have hdigits : '\r' ∉ Nat.toDigits 10 n.natAbs := fun hmem => by
        cases isDigit_of_mem_toDigits hmem
      rw [write, toList_intText]
      split
      · simp [hdigits]
      · exact hdigits
  | str s => exact notMem_writeString _ s
  | list _ ih =>
      rw [write, writeItems_eq_map]
      exact notMem_bracket (by decide) (List.forall_mem_map.2 fun v hv => ih v hv _)
  | map _ _ ih =>
      rw [write, writeMembers_eq_map]
      refine notMem_bracket (by decide) (List.forall_mem_map.2 fun m hm => ?_)
      simp [notMem_writeString, ih m hm]

/-! ## Files of one value

What is written into a file is the text of a value with a line end. -/

theorem parse_renderLine (style : Style) (h : v.IsExact) : parse (render style v ++ "\n") = .ok v :=
  parse_render style ['\n'] h (List.forall_mem_singleton.2 rfl) (endsNumber_cons (by decide))

theorem notMem_renderLine (style : Style) (h : v.IsExact) :
    '\r' ∉ (render style v ++ "\n").toList := by
  rw [render, String.toList_append, String.toList_ofList, List.mem_append]
  rintro (hmem | hmem)
  · exact notMem_write style h 0 hmem
  · revert hmem
    decide

end Json

end ApiOutline
