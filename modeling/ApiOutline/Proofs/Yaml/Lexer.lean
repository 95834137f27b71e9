import ApiOutline.Proofs.Yaml.Scanning
import ApiOutline.Yaml.Token.Lexer

/-!
# Why cutting into tokens stops

The lexer only moves forward: each of its steps leaves an end of the text where
it stood, or fails for a reason that stands there. So whatever is wrong after
the last token is explained by a place in the text (`exists_place_of_stop`).
Steps that keep the place where they stand are passed through without a lemma
of their own, except those that close and open blocks.
-/

namespace ApiOutline.Yaml

namespace Lexer

variable {l : Lexer} {text : List Char} {x : Except Error Lexer}

/-- What moves the lexer forward within a text. -/
abbrev Moves (text : List Char) (x : Except Error Lexer) : Prop :=
  Scans (fun l => l.cursor.rest) ArisesAt text x

theorem cursor_closeTo_go (column : Int) (outer : List Int) (l : Lexer) :
    (closeTo.go column outer l).cursor = l.cursor := by
  induction outer generalizing l with
  | nil => rfl
  | cons i rest ih =>
      unfold closeTo.go
      split
      · exact ih _
      · rfl

@[simp] theorem cursor_closeTo (column : Int) (l : Lexer) :
    (l.closeTo column).cursor = l.cursor := by
  unfold closeTo
  split
  · rfl
  · exact cursor_closeTo_go column l.outer l

@[simp] theorem cursor_openAt (column : Int) (l : Lexer) :
    (l.openAt column).2.cursor = l.cursor := by
  unfold openAt
  split <;> rfl

theorem moves_forgetStale (l : Lexer) : Moves l.cursor.rest l.forgetStale := by
  unfold forgetStale
  simp only []
  split
  · exact scans_malformed
  · exact List.suffix_refl _

theorem moves_forgetKey (l : Lexer) : Moves l.cursor.rest l.forgetKey := by
  unfold forgetKey
  split
  · exact scans_malformed
  · exact List.suffix_refl _

theorem moves_markKey (l : Lexer) : Moves l.cursor.rest l.markKey := by
  unfold markKey
  split
  · exact l.moves_forgetKey.bind fun l' hl' => Scans.ok hl'
  · exact List.suffix_refl _

theorem skipToToken_suffix (fuel : Nat) (l : Lexer) :
    (skipToToken fuel l).cursor.rest <:+ l.cursor.rest := by
  induction fuel generalizing l with
  | zero => exact List.suffix_refl _
  | succ fuel ih =>
      have hcomment := l.cursor.skipComment_suffix
      unfold skipToToken
      simp only []
      split
      · exact hcomment
      · next b c hbreak =>
          refine (ih _).trans (List.IsSuffix.trans ?_
            ((Cursor.lineBreak_suffix hbreak).trans hcomment))
          split <;> exact List.suffix_refl _

theorem moves_advance (l : Lexer) : Moves l.cursor.rest l.advance := by
  have hskip {first : Lexer} (hfirst : first.cursor.rest <:+ l.cursor.rest) :
      Moves l.cursor.rest (do
        let l ← (skipToToken (first.cursor.rest.length + 1) first).forgetStale
        return l.closeTo l.column) := by
    refine ((moves_forgetStale _).mono ((skipToToken_suffix _ _).trans hfirst)).bind
      fun l' hl' => Scans.ok ?_
    rwa [cursor_closeTo]
  refine hskip ?_
  split
  · exact l.cursor.next_suffix
  · exact List.suffix_refl _

theorem moves_endBlocks (l : Lexer) : Moves l.cursor.rest l.endBlocks := by
  have hforget := moves_forgetKey (l.closeTo (-1))
  rw [cursor_closeTo] at hforget
  exact hforget.bind fun l' hl' => Scans.ok hl'

theorem moves_openHere (t : Token) (l : Lexer) : Moves l.cursor.rest (l.openHere t) := by
  have hopen : (l.openAt l.column).2.cursor.rest <:+ l.cursor.rest := by simp
  unfold openHere
  split
  · exact List.suffix_refl _
  · split
    · simp only []
      split
      · exact hopen
      · exact hopen
    · exact scans_malformed

/-! The steps for tokens. Most of them end by passing over one character. -/

theorem moves_thenNext (h : Moves text x) (t : Token) :
    Moves text (do
      let l ← x
      return (l.moveTo l.cursor.next).push t) :=
  h.bind fun l hl => Scans.ok (l.cursor.next_suffix.trans hl)

theorem moves_mark (t : Token) (l : Lexer) : Moves l.cursor.rest (l.mark t) :=
  l.moves_endBlocks.bind fun l' hl' => Scans.ok ((l'.cursor.forward_suffix 3).trans hl')

theorem moves_openBracket (t : Token) (l : Lexer) : Moves l.cursor.rest (l.openBracket t) :=
  l.moves_markKey.bind fun l' hl' => Scans.ok (l'.cursor.next_suffix.trans hl')

theorem moves_closeBracket (t : Token) (l : Lexer) : Moves l.cursor.rest (l.closeBracket t) := by
  unfold closeBracket
  split
  · exact l.moves_forgetKey.bind fun l' hl' => Scans.ok (l'.cursor.next_suffix.trans hl')
  · exact scans_malformed

theorem moves_comma (l : Lexer) : Moves l.cursor.rest l.comma :=
  moves_thenNext (moves_forgetKey _) _

theorem moves_dash (l : Lexer) : Moves l.cursor.rest l.dash :=
  (l.moves_openHere _).bind fun l' hl' =>
    moves_thenNext ((moves_forgetKey (l'.allowKey true)).mono hl') _

theorem moves_question (l : Lexer) : Moves l.cursor.rest l.question :=
  (l.moves_openHere _).bind fun l' hl' =>
    moves_thenNext ((moves_forgetKey (l'.allowKey !l'.inFlow)).mono hl') _

@[simp] theorem cursor_insertKey (k : KeyPlace) (l : Lexer) :
    (l.insertKey k).cursor = l.cursor := by
  have hopen := cursor_openAt k.column (l.insert k.token .key)
  unfold insertKey
  simp only []
  split
  · rfl
  · split
    · exact hopen
    · exact hopen

theorem moves_colon (l : Lexer) : Moves l.cursor.rest l.colon := by
  unfold colon
  split
  · next k _ =>
      have hkey : Moves l.cursor.rest (.ok (((l.setKey none).insertKey k).allowKey false)) := by
        refine Scans.ok ?_
        rw [allowKey, cursor_insertKey]
        exact List.suffix_refl _
      exact moves_thenNext hkey _
  · exact (l.moves_openHere _).bind fun l' hl' =>
      moves_thenNext ((moves_forgetKey (l'.allowKey !l'.inFlow)).mono hl') _

theorem moves_atom {scan : Cursor → Except Error (Token × Cursor)}
    (hscan : ∀ c, Reads c.rest (scan c)) (l : Lexer) : Moves l.cursor.rest (l.atom scan) :=
  l.moves_markKey.bind fun l' hl' =>
    ((hscan l'.cursor).mono hl').bind fun _ hscanned => Scans.ok hscanned

theorem reads_named (make : String → Token) (c : Cursor) : Reads c.rest (named make c) :=
  (Token.reads_scanName c).bind fun _ hname => Scans.ok hname

theorem reads_quoted (quote : Char) (c : Cursor) : Reads c.rest (quoted quote c) :=
  (Quoted.reads_scan quote c).bind fun _ htext => Scans.ok htext

theorem moves_block (isFolded : Bool) (l : Lexer) : Moves l.cursor.rest (l.block isFolded) :=
  (moves_forgetKey (l.allowKey true)).bind fun l' hl' =>
    ((Block.reads_scan isFolded l'.indent l'.cursor).mono hl').bind fun _ htext => Scans.ok htext

theorem moves_plain (l : Lexer) : Moves l.cursor.rest l.plain :=
  l.moves_markKey.bind fun l' hl' =>
    Scans.ok ((Plain.scan_suffix l'.inFlow (l'.indent + 1) l'.cursor).trans hl')

theorem moves_ite {p : Prop} [Decidable p] {y : Except Error Lexer} (hx : Moves text x)
    (hy : Moves text y) : Moves text (if p then x else y) := by
  split
  · exact hx
  · exact hy

/-- Every token is read by a step forward. -/
theorem moves_token (l : Lexer) (ch : Char) : Moves l.cursor.rest (l.token ch) := by
  unfold token
  refine moves_ite ?_ ?_
  · refine l.moves_endBlocks.bind fun l' hl' => ?_
    exact ((Token.reads_scanDirective l'.cursor).mono hl').bind fun _ hdirective =>
      Scans.ok hdirective
  refine moves_ite (l.moves_mark _) ?_
  refine moves_ite (l.moves_mark _) ?_
  refine moves_ite (l.moves_openBracket _) ?_
  refine moves_ite (l.moves_openBracket _) ?_
  refine moves_ite (l.moves_closeBracket _) ?_
  refine moves_ite (l.moves_closeBracket _) ?_
  refine moves_ite l.moves_comma ?_
  refine moves_ite l.moves_dash ?_
  refine moves_ite l.moves_question ?_
  refine moves_ite l.moves_colon ?_
  refine moves_ite (l.moves_atom (reads_named _)) ?_
  refine moves_ite (l.moves_atom (reads_named _)) ?_
  refine moves_ite (l.moves_atom Token.reads_scanTag) ?_
  refine moves_ite (l.moves_block _) ?_
  refine moves_ite (l.moves_block _) ?_
  refine moves_ite (l.moves_atom (reads_quoted _)) ?_
  exact moves_ite l.moves_plain scans_malformed

/-- A run that stops does so for a reason in the text that was left. -/
theorem exists_place_of_run {fuel : Nat} {e : Error} (h : (run fuel l).2 = some e) :
    ∃ place, place <:+ l.cursor.rest ∧ ArisesAt e place := by
  induction fuel generalizing l with
  | zero =>
      cases h
      exact ⟨_, List.suffix_refl _, .grammar _⟩
  | succ fuel ih =>
      have hadvance := l.moves_advance
      unfold run at h
      split at h
      · next e' hstop =>
          cases h
          exact hadvance.cause hstop
      · next l' hl' =>
          have hplace := hadvance.suffix hl'
          split at h
          · split at h
            · cases h
            · next e' hstop =>
                cases h
                have hforget := moves_forgetKey (l'.closeTo (-1))
                rw [cursor_closeTo] at hforget
                exact (hforget.mono hplace).cause hstop
          · next ch hpeek =>
              have htoken := (l'.moves_token ch).mono hplace
              split at h
              · next after hafter =>
                  obtain ⟨place, hrest, he⟩ := ih h
                  exact ⟨place, hrest.trans (htoken.suffix hafter), he⟩
              · next e' hstop =>
                  cases h
                  exact htoken.cause hstop

end Lexer

/-- What is wrong after the last token of a text is explained by a place in the text. -/
theorem Token.exists_place_of_stop {text : List Char} {e : Error}
    (h : (ofText text).2 = some e) : ∃ place, place <:+ text ∧ ArisesAt e place := by
  unfold ofText at h
  split at h
  · exact Lexer.exists_place_of_run h
  · cases h
    exact ⟨text, List.suffix_refl text, .grammar text⟩

end ApiOutline.Yaml
