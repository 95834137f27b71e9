import ApiOutline.Proofs.Decimal.Notation
import ApiOutline.Proofs.Json.Written

/-!
# Which texts are in the grammar

A written value is a text in the grammar of JSON exactly if all its numbers are
finite (`isText_write_iff`). The keys of its mappings do not matter: a key that
is no text is written in quotes, and so is its word if it is no number.

Where all numbers are finite, the text is derived along the value, each part with
any rest behind it. Where one is not, its word has a capital letter that stands
outside all strings, and no part of the text opens a string that it does not
close, so that the letter is counted wherever the word stands.
-/

namespace ApiOutline.Json

open Grammar

variable {style : Style} {level : Nat} {v : Value} {cs after rest lead trail blanks : List Char}
  {parts : List (List Char)}

/-! ## Strings -/

theorem body_hex {n : Nat} (h : n < 0x10000) (body : Body cs rest) :
    Body ('\\' :: 'u' :: (Text.hex 4 n ++ cs)) rest :=
  .numbered (Text.length_hex h) (fun _ => Text.isHexDigit_of_mem_hex) body

theorem body_unitEscape (c : Char) (body : Body cs rest) : Body (unitEscape c ++ cs) rest := by
  rcases Nat.lt_or_ge c.toNat 0x10000 with hplane | hbeyond
  · rw [unitEscape_plane hplane]
    exact body_hex hplane body
  · obtain ⟨a, b, hpair, hescape⟩ := exists_unitEscape_pair hbeyond
    have hhigh := hpair.high
    have hlow := hpair.low
    simp only [isHighSurrogate, isLowSurrogate, Bool.and_eq_true, decide_eq_true_eq] at hhigh hlow
    simp only [hescape, List.append_assoc, List.cons_append, List.nil_append]
    exact body_hex (by omega) (body_hex (by omega) body)

/-- What stands for a character inside a string is a part of a string. -/
theorem body_escape (asciiOnly : Bool) (c : Char) (body : Body cs rest) :
    Body (escape asciiOnly c ++ cs) rest := by
  unfold escape
  split
  · exact .escaped (by decide) body
  split
  · exact .escaped (by decide) body
  split
  · exact .escaped (by decide) body
  split
  · exact .escaped (by decide) body
  split
  · exact .escaped (by decide) body
  split
  · exact .escaped (by decide) body
  split
  · exact .escaped (by decide) body
  split
  · exact body_unitEscape c body
  split
  · exact body_unitEscape c body
  · next hquote hbackslash _ _ _ _ _ hcontrol _ =>
      exact .unescaped (by simp [isUnescaped, hquote, hbackslash, Nat.le_of_not_lt hcontrol]) body

theorem body_written (asciiOnly : Bool) (cs rest : List Char) :
    Body (cs.flatMap (escape asciiOnly) ++ '"' :: rest) rest := by
  induction cs with
  | nil => exact .close
  | cons c cs ih =>
      rw [List.flatMap_cons, List.append_assoc]
      exact body_escape asciiOnly c ih

theorem derives_writeString (asciiOnly : Bool) (s : String) (rest : List Char) :
    Derives .value (writeString asciiOnly s ++ rest) rest := by
  have hbody := body_written asciiOnly s.toList rest
  rw [writeString, List.cons_append, List.cons_append, List.append_assoc]
  exact .string hbody

/-! ## Integers -/

theorem number_intText (n : Int) (rest : List Char) :
    Number ((Decimal.intText n).toList ++ rest) rest := by
  have hunsigned : Unsigned (Nat.toDigits 10 n.natAbs ++ rest) rest := by
    refine .intro ?_ .absent .absent
    rcases Nat.eq_zero_or_pos n.natAbs with hzero | hpos
    · rw [hzero]
      exact .zero
    · cases hds : Nat.toDigits 10 n.natAbs with
      | nil => exact absurd hds Nat.toDigits_ne_nil
      | cons d ds =>
          have hpositive := Decimal.startsPositive_toDigits (Nat.ne_of_gt hpos)
          rw [hds] at hpositive
          obtain ⟨hd, hne, hmore⟩ := hpositive
          exact .digits hd hne (run_append hmore rest)
  rw [toList_intText]
  split
  · exact .negative hunsigned
  · exact .positive hunsigned

/-! ## Brackets -/

theorem element_append (h : ∀ rest, Derives .value (cs ++ rest) rest)
    (hlead : ∀ c ∈ lead, isSpace c = true) (hafter : Blanks after rest) :
    Derives .element (lead ++ (cs ++ after)) rest :=
  .element (run_append hlead _) (h after) hafter

theorem member_append (asciiOnly : Bool) (s : String)
    (h : ∀ rest, Derives .value (cs ++ rest) rest) (hlead : ∀ c ∈ lead, isSpace c = true)
    (hafter : Blanks after rest) :
    Derives .member (lead ++ (writeString asciiOnly s ++ [':', ' '] ++ cs ++ after)) rest := by
  have hkey := body_written asciiOnly s.toList (':' :: ' ' :: (cs ++ after))
  have hvalue : Derives .element ([' '] ++ (cs ++ after)) rest :=
    element_append h (List.forall_mem_singleton.2 (by decide)) hafter
  simp only [writeString, List.cons_append, List.append_assoc, List.nil_append]
  exact .member (run_append hlead _) hkey .stop hvalue

/-- How a pair of brackets is used, around parts that are separated by commas. -/
structure Encloses (opening closing : Char) (part parts : Symbol) : Prop where
  empty : ∀ {rest : List Char}, Derives .value (opening :: closing :: rest) rest
  full : ∀ {cs rest : List Char}, Derives parts cs (closing :: rest) →
    Derives .value (opening :: cs) rest
  last : ∀ {cs rest : List Char}, Derives part cs rest → Derives parts cs rest
  more : ∀ {cs₁ cs₂ rest : List Char}, Derives part cs₁ (',' :: cs₂) → Derives parts cs₂ rest →
    Derives parts cs₁ rest

theorem encloses_list : Encloses '[' ']' .element .elements :=
  ⟨.emptyList .stop, .list, .lastElement, .moreElements⟩

theorem encloses_object : Encloses '\x7b' '\x7d' .member .members :=
  ⟨.emptyObject .stop, .object, .lastMember, .moreMembers⟩

section Brackets

variable {opening closing : Char} {one many : Symbol}
  (hbrackets : Encloses opening closing one many)
  (h : ∀ p ∈ parts, ∀ lead after rest, (∀ c ∈ lead, isSpace c = true) → Blanks after rest →
    Derives one (lead ++ (p ++ after)) rest)

include hbrackets h

theorem derives_intercalate (hne : parts ≠ []) (hblanks : ∀ c ∈ blanks, isSpace c = true)
    (hlead : ∀ c ∈ lead, isSpace c = true) (hafter : Blanks after rest) :
    Derives many (lead ++ ((',' :: blanks).intercalate parts ++ after)) rest := by
  induction parts generalizing lead with
  | nil => exact absurd rfl hne
  | cons p parts ih =>
      obtain ⟨hp, hparts⟩ := List.forall_mem_cons.1 h
      cases parts with
      | nil =>
          rw [List.intercalate_singleton]
          exact hbrackets.last (hp _ _ _ hlead hafter)
      | cons q parts =>
          rw [List.intercalate_cons_cons, List.append_assoc, List.append_assoc]
          exact hbrackets.more (hp _ _ _ hlead .stop)
            (ih hparts (List.cons_ne_nil q parts) hblanks)

theorem derives_bracket (level : Nat) (rest : List Char) :
    Derives .value (style.bracket level opening closing parts ++ rest) rest := by
  cases parts with
  | nil => exact hbrackets.empty
  | cons p parts =>
      obtain ⟨blanks, hseparator, hblanks⟩ := exists_separator style (level + 1)
      rw [bracket_append style level opening closing (List.cons_ne_nil p parts), hseparator]
      exact hbrackets.full (derives_intercalate hbrackets h (List.cons_ne_nil p parts) hblanks
        (fun _ => isSpace_of_mem_newline) (run_append (fun _ => isSpace_of_mem_newline) _))

end Brackets

/-! ## Values -/

theorem sizeOf_item_lt {items : List Value} (hv : v ∈ items) :
    sizeOf v < sizeOf (Value.list items) ∧ sizeOf v < sizeOf (Value.set items) := by
  have hsize := List.sizeOf_lt_of_mem hv
  simp only [Value.list.sizeOf_spec, Value.set.sizeOf_spec]
  omega

theorem sizeOf_value_lt {c : Option Nat} {ms : List (Value × Value)} {m : Value × Value}
    (hm : m ∈ ms) : sizeOf m.2 < sizeOf (Value.map c ms) := by
  have hsize := List.sizeOf_lt_of_mem hm
  obtain ⟨k, v⟩ := m
  simp only [Prod.mk.sizeOf_spec, Value.map.sizeOf_spec] at hsize ⊢
  omega

/-- A value whose numbers are finite is written in the grammar. -/
theorem derives_write (style : Style) (v : Value) (h : v.isFinite = true) (level : Nat)
    (rest : List Char) : Derives .value (write style level v ++ rest) rest := by
  match v, h with
  | .null, _ => exact .word (by decide)
  | .bool b, _ => cases b <;> exact .word (by decide)
  | .int n, _ => exact .number (number_intText n rest)
  | .float x, h => exact .number (Decimal.number_write h rest)
  | .str s, _ => exact derives_writeString _ s rest
  | .bytes bs, _ => exact derives_writeString _ _ rest
  | .date d, _ => exact derives_writeString _ _ rest
  | .moment t, _ => exact derives_writeString _ _ rest
  | .list items, h | .set items, h =>
      rw [Value.isFinite, Value.areFinite_iff] at h
      rw [write, writeItems_eq_map]
      refine derives_bracket encloses_list (List.forall_mem_map.2 ?_) level rest
      exact fun x hx _ _ _ hlead hafter =>
        element_append (derives_write style x (h x hx) (level + 1)) hlead hafter
  | .map c ms, h =>
      rw [Value.isFinite, Value.haveFinite_iff] at h
      rw [write, writeMembers_eq_map]
      refine derives_bracket encloses_object (List.forall_mem_map.2 ?_) level rest
      exact fun m hm _ _ _ hlead hafter =>
        member_append _ _ (derives_write style m.2 (h m hm) (level + 1)) hlead hafter
termination_by sizeOf v
decreasing_by
  · exact (sizeOf_item_lt hx).1
  · exact (sizeOf_item_lt hx).2
  · exact sizeOf_value_lt hm

/-! ## Words for numbers that are none -/

/-- Whether the capital letters outside the strings of a text are told by a truth: there are none
exactly if it holds. -/
def AddsUnless (ok : Prop) (cs : List Char) : Prop := ∃ n, Adds n cs ∧ (n = 0 ↔ ok)

theorem AddsUnless.append {ok ok' : Prop} {cs ds : List Char} (hcs : AddsUnless ok cs)
    (hds : AddsUnless ok' ds) : AddsUnless (ok ∧ ok') (cs ++ ds) := by
  obtain ⟨n, hn, hok⟩ := hcs
  obtain ⟨m, hm, hok'⟩ := hds
  exact ⟨n + m, hn.append hm, by rw [← hok, ← hok', Nat.add_eq_zero_iff]⟩

theorem Grammar.Adds.unless {ok : Prop} {cs : List Char} (h : Adds 0 cs) (hok : ok) :
    AddsUnless ok cs :=
  ⟨0, h, iff_of_true rfl hok⟩

theorem adds_bracket {c : Char} (h : c ∈ ['[', ']', '\x7b', '\x7d']) : Adds 0 [c] := by
  intro rest
  simp only [List.mem_cons, List.not_mem_nil, or_false] at h
  rcases h with rfl | rfl | rfl | rfl <;> simp [capitals, isCapital]

section Parts

variable {α : Type} {ok : α → Prop} {part : α → List Char} {xs : List α}

theorem addsUnless_intercalate {sep : List Char} (hsep : Adds 0 sep)
    (h : ∀ x ∈ xs, AddsUnless (ok x) (part x)) :
    AddsUnless (∀ x ∈ xs, ok x) (sep.intercalate (xs.map part)) := by
  induction xs with
  | nil => exact Adds.unless (fun rest => (Nat.zero_add _).symm) (by simp)
  | cons x xs ih =>
      obtain ⟨hx, hxs⟩ := List.forall_mem_cons.1 h
      cases xs with
      | nil =>
          rw [List.map_singleton, List.intercalate_singleton, List.forall_mem_singleton]
          exact hx
      | cons y xs =>
          have hrest := ih hxs
          rw [List.map_cons] at hrest
          rw [List.map_cons, List.map_cons, List.intercalate_cons_cons, List.append_assoc,
            List.forall_mem_cons]
          have hall := hx.append ((hsep.unless trivial).append hrest)
          rwa [true_and] at hall

theorem addsUnless_bracket (style : Style) (level : Nat) {opening closing : Char}
    (hbrackets : opening ∈ ['[', ']', '\x7b', '\x7d'] ∧ closing ∈ ['[', ']', '\x7b', '\x7d'])
    (h : ∀ x ∈ xs, AddsUnless (ok x) (part x)) :
    AddsUnless (∀ x ∈ xs, ok x) (style.bracket level opening closing (xs.map part)) := by
  obtain ⟨blanks, hseparator, hblanks⟩ := exists_separator style (level + 1)
  have hsep : Adds 0 (style.separator (level + 1)) := by
    rw [hseparator]
    exact (adds_blanks hblanks).cons (by decide) (by decide)
  have hnewline : ∀ level, Adds 0 (style.newline level) := fun _ =>
    adds_blanks fun _ => isSpace_of_mem_newline
  have hopening := adds_bracket hbrackets.1
  have hclosing := adds_bracket hbrackets.2
  have hparts := addsUnless_intercalate hsep h
  unfold Style.bracket
  split
  · next hempty =>
      obtain rfl : xs = [] := by simpa using hempty
      exact (hopening.append hclosing).unless (by simp)
  · have hall := (((hopening.append (hnewline (level + 1))).unless trivial).append hparts).append
      (((hnewline level).append hclosing).unless trivial)
    rw [true_and, and_true, ← List.append_assoc] at hall
    exact hall

end Parts

/-- The capital letters outside the strings of a written value tell whether its numbers are
finite. -/
theorem addsUnless_write (style : Style) (v : Value) (level : Nat) :
    AddsUnless (v.isFinite = true) (write style level v) := by
  have hfinite : v.isFinite = true → AddsUnless (v.isFinite = true) (write style level v) :=
    fun h => (adds_of_derives (derives_write style v h level)).unless h
  match v, hfinite with
  | .null, hfinite | .bool _, hfinite | .int _, hfinite | .str _, hfinite | .bytes _, hfinite
  | .date _, hfinite | .moment _, hfinite => exact hfinite rfl
  | .float x, hfinite =>
      cases hx : isNumber x with
      | true => exact hfinite hx
      | false =>
          obtain ⟨n, hpos, hadds⟩ := Decimal.exists_adds_write hx
          refine ⟨n, hadds, iff_of_false (Nat.ne_of_gt hpos) ?_⟩
          rw [Value.isFinite, hx]
          exact Bool.false_ne_true
  | .list items, _ | .set items, _ =>
      rw [Value.isFinite, Value.areFinite_iff, write, writeItems_eq_map]
      exact addsUnless_bracket style level (by decide) fun x hx =>
        addsUnless_write style x (level + 1)
  | .map c ms, _ =>
      rw [Value.isFinite, Value.haveFinite_iff, write, writeMembers_eq_map]
      refine addsUnless_bracket style level (by decide) fun m hm => ?_
      have hblank : Adds 0 [' '] := adds_blanks (List.forall_mem_singleton.2 (by decide))
      have hkey : Adds 0 (writeString style.asciiOnly (keyName m.1) ++ [':', ' ']) :=
        (adds_of_derives (derives_writeString _ _)).append (hblank.cons (by decide) (by decide))
      have hmember := (hkey.unless trivial).append (addsUnless_write style m.2 (level + 1))
      rwa [true_and] at hmember
termination_by sizeOf v
decreasing_by
  · exact (sizeOf_item_lt hx).1
  · exact (sizeOf_item_lt hx).2
  · exact sizeOf_value_lt hm

/-- A written value is a text of the grammar, whatever blanks follow it, exactly if its numbers are
finite. -/
theorem isText_write_iff (htrail : ∀ c ∈ trail, isSpace c = true) :
    IsText (write style level v ++ trail) ↔ v.isFinite = true := by
  constructor
  · intro h
    obtain ⟨n, hn, hiff⟩ := (addsUnless_write style v level).append
      ((adds_blanks htrail).unless trivial)
    exact (hiff.1 (hn.eq_zero h)).1
  · intro h
    have htext : IsText ([] ++ (write style level v ++ (trail ++ []))) :=
      element_append (derives_write style v h level) (by simp) (run_append htrail [])
    rwa [List.append_nil] at htext

end ApiOutline.Json
