import ApiOutline.Proofs.Decimal.Digits
import ApiOutline.Proofs.Scanning
import ApiOutline.Yaml.Token
import Mathlib.Data.List.Basic

/-!
# Scanners of YAML

Every scanner of YAML leaves an end of the text where it began, and if it fails
there is a place that says why (`ArisesAt`). Nearly always the grammar is broken
there. Two texts keep it and are refused all the same: a character written by a
number beyond all characters, and a version with too many digits. There is one
lemma for each scanner; a recursive one follows its recursion.
-/

namespace ApiOutline.Yaml

variable {α : Type} {c after : Cursor} {text : List Char}

/-- Why an error arises at a place. -/
inductive ArisesAt : Error → List Char → Prop where
  | grammar (place : List Char) : ArisesAt .malformed place
  | character {digits : List Char} (hcount : digits.length = 8)
      (hdigits : digits.all Decimal.isHexDigit = true)
      (hlarge : 0x110000 ≤ Decimal.ofDigits 16 digits) (rest : List Char) :
      ArisesAt (if 0x80000000 ≤ Decimal.ofDigits 16 digits then .tooLarge else .outOfRange)
        ('\\' :: 'U' :: (digits ++ rest))
  | version {run : List Char} (h : IsLongRun run) (rest : List Char) :
      ArisesAt .outOfRange (run ++ rest)

/-- What scans a part of a text and returns where it ends. -/
abbrev Reads (text : List Char) (x : Except Error (α × Cursor)) : Prop :=
  Scans (fun a => a.2.rest) ArisesAt text x

theorem scans_malformed {left : α → List Char} : Scans left ArisesAt text (.error .malformed) :=
  Scans.error (.grammar text) (List.suffix_refl text)

namespace Cursor

theorem rest_next (c : Cursor) : c.next.rest = c.rest.tail := by
  unfold next
  split
  · next hnil => rw [hnil, List.tail_nil]
  · next ch rest hcons =>
      rw [hcons]
      split <;> rfl

theorem rest_eq_of_peek {ch : Char} (h : c.peek = some ch) : c.rest = ch :: c.next.rest := by
  rw [rest_next]
  exact (List.cons_head?_tail h).symm

theorem next_suffix (c : Cursor) : c.next.rest <:+ c.rest := by
  rw [rest_next]
  exact List.tail_suffix c.rest

theorem optional_suffix {b : Bool} (h : c.rest <:+ text) :
    (if b then c.next else c).rest <:+ text := by
  split
  · exact c.next_suffix.trans h
  · exact h

theorem forward_suffix (n : Nat) (c : Cursor) : (forward n c).rest <:+ c.rest := by
  induction n generalizing c with
  | zero => exact List.suffix_refl c.rest
  | succ n ih => exact (ih c.next).trans c.next_suffix

theorem span_suffix (p : Char → Bool) (c : Cursor) : (c.span p).2.rest <:+ c.rest :=
  forward_suffix _ c

theorem skip_suffix (p : Char → Bool) (c : Cursor) : (c.skip p).rest <:+ c.rest :=
  c.span_suffix p

theorem lineBreak_suffix {b : Char} (h : c.lineBreak = some (b, after)) :
    after.rest <:+ c.rest := by
  unfold lineBreak at h
  split at h
  · cases h
    exact forward_suffix 2 c
  · split at h
    · cases h
      exact c.next_suffix
    · cases h
  · cases h

theorem skipComment_suffix (c : Cursor) : c.skipComment.rest <:+ c.rest := by
  have hspaces := c.skip_suffix (· == ' ')
  unfold skipComment
  simp only []
  split
  · exact (skip_suffix _ _).trans hspaces
  · exact hspaces

theorem scans_endLine (c : Cursor) : Scans rest ArisesAt c.rest c.endLine := by
  have hcomment := c.skipComment_suffix
  unfold endLine
  simp only []
  split
  · cases hbreak : c.skipComment.lineBreak with
    | none => exact hcomment
    | some found =>
        obtain ⟨b, after⟩ := found
        exact (lineBreak_suffix hbreak).trans hcomment
  · exact scans_malformed

end Cursor

/-! ## Quoted scalars -/

namespace Quoted

theorem reads_breaks (fuel : Nat) (c : Cursor) : Reads c.rest (breaks fuel c) := by
  induction fuel generalizing c with
  | zero => exact List.suffix_refl c.rest
  | succ fuel ih =>
      unfold breaks
      split
      · exact scans_malformed
      · have hwhite := c.skip_suffix isWhite
        simp only []
        split
        · exact hwhite
        · next b after hbreak =>
            have hafter := (Cursor.lineBreak_suffix hbreak).trans hwhite
            have hmore := (ih after).mono hafter
            split
            · next more last hread =>
                have hlast := hmore.suffix hread
                exact hlast
            · next e hread => exact hmore.failed hread

theorem digitCount_cases {ch : Char} {n : Nat} (h : digitCount ch = some n) :
    n ≤ 4 ∨ (ch = 'U' ∧ n = 8) := by
  unfold digitCount at h
  split at h
  · cases h
    exact .inl (by decide)
  · cases h
    exact .inl (by decide)
  · cases h
    exact .inr ⟨rfl, rfl⟩
  · cases h

/-- An escape by number fails only where the number is that of no character, and only the escape
with eight digits has room for one. -/
theorem arisesAt_of_numbered {ch : Char} {n : Nat} {digits : List Char} {e : Error}
    (hcount : digitCount ch = some n) (hlength : digits.length = n)
    (hdigits : digits.all Decimal.isHexDigit = true)
    (h : numbered (Decimal.ofDigits 16 digits) = .error e) (rest : List Char) :
    ArisesAt e ('\\' :: ch :: (digits ++ rest)) := by
  unfold numbered at h
  split at h
  · next hlarge =>
      cases h
      rcases digitCount_cases hcount with hsmall | ⟨rfl, rfl⟩
      · have hbound := Decimal.ofDigits_lt digits
        have hpow : 16 ^ digits.length ≤ 16 ^ 4 :=
          Nat.pow_le_pow_right (by decide) (hlength ▸ hsmall)
        omega
      · exact .character hlength hdigits hlarge rest
  · cases h

/-- An escape is part of a text that has the backslash in front of it. -/
theorem reads_escape (c : Cursor) : Reads ('\\' :: c.rest) (escape c) := by
  have hback := List.suffix_cons '\\' c.rest
  have hnext := c.next_suffix.trans hback
  unfold escape
  split
  · exact scans_malformed
  · next ch hpeek =>
      split
      · exact hnext
      · next n _ hcount =>
          simp only []
          split
          · next hdigits =>
              have hcons := Cursor.rest_eq_of_peek hpeek
              split
              · exact (Cursor.forward_suffix n c.next).trans hnext
              · next e hnumber =>
                  rw [Bool.and_eq_true, beq_iff_eq] at hdigits
                  refine ⟨_, List.suffix_refl _, ?_⟩
                  have harises := arisesAt_of_numbered hcount hdigits.1 hdigits.2 hnumber
                    (c.next.rest.drop n)
                  rwa [List.take_append_drop, ← hcons] at harises
          · exact scans_malformed
      · split
        · next b after hbreak =>
            exact (reads_breaks _ after).mono ((Cursor.lineBreak_suffix hbreak).trans hback)
        · exact scans_malformed

theorem reads_blanks (c : Cursor) : Reads c.rest (blanks c) := by
  have hwhite := c.span_suffix isWhite
  unfold blanks
  simp only []
  split
  · exact scans_malformed
  · exact hwhite
  · next b after hbreak _ =>
      have hmore :=
        (reads_breaks (after.rest.length + 1) after).mono
          ((Cursor.lineBreak_suffix hbreak).trans hwhite)
      split
      · next more last hread =>
          have hlast := hmore.suffix hread
          exact hlast
      · next e hread => exact hmore.failed hread

theorem reads_body (quote : Char) (fuel : Nat) (done : List (List Char)) (c : Cursor) :
    Reads c.rest (body quote fuel done c) := by
  induction fuel generalizing done c with
  | zero => exact scans_malformed
  | succ fuel ih =>
      unfold body
      split
      · exact scans_malformed
      · next ch hpeek =>
          have hcons := Cursor.rest_eq_of_peek hpeek
          split
          · split
            · exact (ih _ _).mono (Cursor.forward_suffix 2 c)
            · exact c.next_suffix
          · split
            · next hescape =>
                rw [Bool.and_eq_true, beq_iff_eq, beq_iff_eq] at hescape
                have himage := reads_escape c.next
                rw [← hescape.2, ← hcons] at himage
                split
                · next image after hread => exact (ih _ after).mono (himage.suffix hread)
                · next e hread => exact himage.failed hread
            · split
              · have hwhite := reads_blanks c
                split
                · next white after hread => exact (ih _ after).mono (hwhite.suffix hread)
                · next e hread => exact hwhite.failed hread
              · exact (ih _ _).mono c.next_suffix

theorem reads_scan (quote : Char) (c : Cursor) : Reads c.rest (scan quote c) :=
  (reads_body quote _ [] c.next).mono c.next_suffix

end Quoted

/-! ## Block scalars -/

namespace Block

theorem scans_indentation? (c : Cursor) :
    Scans (fun _ => text) ArisesAt text (indentation? c) := by
  unfold indentation?
  split
  · split
    · exact scans_malformed
    · split <;> exact List.suffix_refl text
  · exact List.suffix_refl text

theorem reads_header (c : Cursor) : Reads c.rest (header c) := by
  have hend (h : Header) {last : Cursor} (hlast : last.rest <:+ c.rest) :
      Reads c.rest (if endsWord last.peek then do return (h, ← last.endLine)
        else throw .malformed) := by
    split
    · exact (last.scans_endLine.mono hlast).bind fun after hafter => Scans.ok hafter
    · exact scans_malformed
  unfold header
  refine (scans_indentation? _).bind fun indentation _ => ?_
  exact hend _ (Cursor.optional_suffix (Cursor.optional_suffix (Cursor.optional_suffix
    (List.suffix_refl c.rest))))

theorem leading_suffix (fuel furthest : Nat) (c : Cursor) :
    (leading fuel furthest c).2.2.rest <:+ c.rest := by
  induction fuel generalizing furthest c with
  | zero => exact List.suffix_refl c.rest
  | succ fuel ih =>
      unfold leading
      split
      · exact (ih _ c.next).trans c.next_suffix
      · split
        · exact List.suffix_refl c.rest
        · next b after hbreak => exact (ih _ after).trans (Cursor.lineBreak_suffix hbreak)

theorem indentTo_suffix (column : Nat) (c : Cursor) : (indentTo column c).rest <:+ c.rest :=
  Cursor.forward_suffix _ c

theorem breaks_suffix (indent fuel : Nat) (c : Cursor) :
    (breaks indent fuel c).2.rest <:+ c.rest := by
  induction fuel generalizing c with
  | zero => exact List.suffix_refl c.rest
  | succ fuel ih =>
      have hindent := indentTo_suffix indent c
      unfold breaks
      simp only []
      split
      · exact hindent
      · next b after hbreak =>
          exact (ih after).trans ((Cursor.lineBreak_suffix hbreak).trans hindent)

theorem lines_suffix (isFolded : Bool) (indent fuel : Nat) (done : List (List Char))
    (before : List Char) (c : Cursor) :
    (lines isFolded indent fuel done before c).cursor.rest <:+ c.rest := by
  induction fuel generalizing done before c with
  | zero => exact List.suffix_refl c.rest
  | succ fuel ih =>
      have hline := c.span_suffix fun ch => !isBreak ch
      unfold lines
      cases hbreak : (c.span fun ch => !isBreak ch).2.lineBreak with
      | none =>
          have hmore := fun n => (breaks_suffix indent n _).trans hline
          simp only [hbreak]
          split
          · exact (ih _ _ _).trans (hmore _)
          · exact hmore _
      | some found =>
          obtain ⟨b, after⟩ := found
          have hafter := (Cursor.lineBreak_suffix hbreak).trans hline
          have hmore := fun n => (breaks_suffix indent n _).trans hafter
          simp only [hbreak]
          split
          · exact (ih _ _ _).trans (hmore _)
          · exact hmore _

theorem reads_scan (isFolded : Bool) (surrounding : Int) (c : Cursor) :
    Reads c.rest (scan isFolded surrounding c) := by
  unfold scan
  refine ((reads_header c.next).mono c.next_suffix).bind fun found hfound => ?_
  obtain ⟨h, start⟩ := found
  have hlines (indent fuel : Nat) (before : List Char) {first : Cursor}
      (hfirst : first.rest <:+ start.rest) :
      (if atLine indent first then lines isFolded indent fuel [] before first
        else ⟨[], [], before, first⟩).cursor.rest <:+ c.rest := by
    split
    · exact (lines_suffix _ _ _ _ _ _).trans (hfirst.trans hfound)
    · exact hfirst.trans hfound
  cases hindentation : h.indentation with
  | some n =>
      simp only [hindentation]
      exact hlines _ _ _ (breaks_suffix _ _ start)
  | none =>
      simp only [hindentation]
      exact hlines _ _ _ (leading_suffix _ _ start)

end Block

/-! ## Plain scalars -/

namespace Plain

theorem breaks_suffix (fuel : Nat) (c : Cursor) : (breaks fuel c).2.rest <:+ c.rest := by
  induction fuel generalizing c with
  | zero => exact List.suffix_refl c.rest
  | succ fuel ih =>
      unfold breaks
      split
      · exact (ih c.next).trans c.next_suffix
      · split
        · exact List.suffix_refl c.rest
        · next b after hbreak =>
            have hafter := Cursor.lineBreak_suffix hbreak
            split
            · exact hafter
            · exact (ih after).trans hafter

theorem gap_suffix (c : Cursor) : (gap c).cursor.rest <:+ c.rest := by
  have hspaces := c.span_suffix (· == ' ')
  unfold gap
  simp only []
  split
  · exact hspaces
  · next b after hbreak =>
      have hafter := (Cursor.lineBreak_suffix hbreak).trans hspaces
      split
      · exact hafter
      · exact (breaks_suffix _ after).trans hafter

theorem words_suffix (inFlow : Bool) (indent : Int) (fuel : Nat) (done : List (List Char))
    (before : Gap) : (words inFlow indent fuel done before).cursor.rest <:+ before.cursor.rest := by
  induction fuel generalizing done before with
  | zero => exact List.suffix_refl _
  | succ fuel ih =>
      have hafter := fun n => (gap_suffix _).trans (Cursor.forward_suffix n before.cursor)
      unfold words
      simp only []
      split
      · exact List.suffix_refl _
      · split
        · exact hafter _
        · exact (ih _ _).trans (hafter _)

theorem scan_suffix (inFlow : Bool) (indent : Int) (c : Cursor) :
    (scan inFlow indent c).cursor.rest <:+ c.rest :=
  words_suffix _ _ _ _ _

end Plain

/-! ## Tokens of more than a sign -/

namespace Token

theorem reads_escapedBytes (fuel : Nat) (c : Cursor) : Reads c.rest (escapedBytes fuel c) := by
  induction fuel generalizing c with
  | zero => exact List.suffix_refl c.rest
  | succ fuel ih =>
      unfold escapedBytes
      split
      · simp only []
        split
        · exact ((ih _).mono (Cursor.forward_suffix 3 c)).bind fun more hmore => Scans.ok hmore
        · exact scans_malformed
      · exact List.suffix_refl c.rest

theorem reads_addressParts (fuel : Nat) (c : Cursor) : Reads c.rest (addressParts fuel c) := by
  induction fuel generalizing c with
  | zero => exact List.suffix_refl c.rest
  | succ fuel ih =>
      unfold addressParts
      split
      · refine (reads_escapedBytes _ c).bind fun bytes hbytes => ?_
        simp only []
        split
        · exact scans_malformed
        · exact ((ih bytes.2).mono hbytes).bind fun more hmore => Scans.ok hmore
      · split
        · exact ((ih c.next).mono c.next_suffix).bind fun more hmore => Scans.ok hmore
        · exact List.suffix_refl c.rest
      · exact List.suffix_refl c.rest

theorem reads_address (c : Cursor) : Reads c.rest (address c) := by
  unfold address
  refine (reads_addressParts _ c).bind fun parts hparts => ?_
  simp only []
  split
  · exact scans_malformed
  · exact Scans.ok hparts

theorem reads_handle (c : Cursor) : Reads c.rest (handle c) := by
  unfold handle
  split
  · split
    · exact c.next_suffix
    · have hname := (c.next.span_suffix isNameChar).trans c.next_suffix
      simp only []
      split
      · exact (Cursor.next_suffix _).trans hname
      · exact scans_malformed
  · exact scans_malformed

/-- The digits of a version stand where it is read. -/
theorem reads_versionNumber (c : Cursor) : Reads c.rest (versionNumber c) := by
  unfold versionNumber
  simp only []
  split
  · exact scans_malformed
  · split
    · next hlimit =>
        have hrun : IsLongRun (c.span Char.isDigit).1 :=
          ⟨List.all_eq_true.1 List.all_takeWhile, hlimit⟩
        refine ⟨c.rest, List.suffix_refl c.rest, ?_⟩
        have harises := ArisesAt.version hrun (c.rest.dropWhile Char.isDigit)
        rwa [Cursor.span, List.takeWhile_append_dropWhile] at harises
    · exact c.span_suffix Char.isDigit

theorem reads_versionValue (c : Cursor) : Reads c.rest (versionValue c) := by
  unfold versionValue
  refine ((reads_versionNumber _).mono (c.skip_suffix _)).bind fun major hmajor => ?_
  simp only []
  split
  · have hnext := major.2.next_suffix.trans hmajor
    refine ((reads_versionNumber _).mono hnext).bind fun minor hminor => ?_
    split
    · exact Scans.ok hminor
    · exact scans_malformed
  · exact scans_malformed

theorem reads_tagValue (c : Cursor) : Reads c.rest (tagValue c) := by
  unfold tagValue
  refine ((reads_handle _).mono (c.skip_suffix _)).bind fun name hname => ?_
  simp only []
  split
  · have haddress := (name.2.skip_suffix (· == ' ')).trans hname
    refine ((reads_address _).mono haddress).bind fun start hstart => ?_
    split
    · exact Scans.ok hstart
    · exact scans_malformed
  · exact scans_malformed

theorem reads_scanDirective (c : Cursor) : Reads c.rest (scanDirective c) := by
  have hname := (c.next.span_suffix isNameChar).trans c.next_suffix
  have hvalue {value : Except Error (Directive × Cursor)} (h : Reads c.rest value) :
      Reads c.rest (value >>= fun found => do
        return (Token.directive found.1, ← found.2.endLine)) :=
    h.bind fun found hfound =>
      (found.2.scans_endLine.mono hfound).bind fun after hafter => Scans.ok hafter
  unfold scanDirective
  simp only []
  split
  · exact scans_malformed
  · split
    · exact hvalue ((reads_versionValue _).mono hname)
    · split
      · exact hvalue ((reads_tagValue _).mono hname)
      · exact hvalue (Scans.ok ((Cursor.skip_suffix _ _).trans hname))

theorem reads_scanName (c : Cursor) : Reads c.rest (scanName c) := by
  unfold scanName
  simp only []
  split
  · exact scans_malformed
  · exact (c.next.span_suffix isNameChar).trans c.next_suffix

theorem reads_scanTag (c : Cursor) : Reads c.rest (scanTag c) := by
  have hend {tag : Except Error (Token × Cursor)} (h : Reads c.rest tag) :
      Reads c.rest (tag >>= fun found =>
        if endsWord found.2.peek then pure (found.1, found.2) else throw .malformed) := by
    refine h.bind fun found hfound => ?_
    split
    · exact Scans.ok hfound
    · exact scans_malformed
  unfold scanTag
  split
  · have haddress := (reads_address _).mono (Cursor.forward_suffix 2 c)
    refine haddress.bind fun suffix hsuffix => ?_
    simp only []
    split
    · exact hend (Scans.ok (suffix.2.next_suffix.trans hsuffix))
    · exact hend scans_malformed
  · split
    · exact hend (Scans.ok c.next_suffix)
    · split
      · refine (reads_handle c).bind fun name hname => ?_
        refine ((reads_address name.2).mono hname).bind fun suffix hsuffix => ?_
        exact hend (Scans.ok hsuffix)
      · refine ((reads_address _).mono c.next_suffix).bind fun suffix hsuffix => ?_
        exact hend (Scans.ok hsuffix)

end Token

end ApiOutline.Yaml
