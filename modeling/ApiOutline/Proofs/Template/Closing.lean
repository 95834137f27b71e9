import Mathlib.Data.List.Induction
import ApiOutline.Endpoint
import ApiOutline.Proofs.Template.Ending

/-!
# The tokens behind the last literal

What a template says of its last segment stands behind it: the tokens with which
the template closes. The walk that looks for the parameter after all segments
finds the first of them (`parameterAfter_eq_head?`), and in a regular template,
one that is spelled with a slash in front of each part and with braces only
around names, the parameter at the end is the last of them
(`IsRegular.trailingParameter_eq_getLast?`). The default value of that parameter
goes by the literal, however many tokens there are
(`Endpoint.defaultParameter_eq_lookup`).
-/

namespace ApiOutline

namespace Template

variable {t : String} {p literal name : List Char} {before rest ps names : List (List Char)}

/-! ## The tokens behind the last literal -/

/-- Whether a template ends in a literal and the tokens of some names, empty parts aside. -/
def ClosesWith (t : String) (literal : List Char) (names : List (List Char)) : Prop :=
  ∃ before, fullParts t = before ++ literal :: names.map token ∧ isToken literal = false

theorem exists_last_literal (h : p ∈ ps) (hp : isToken p = false) :
    ∃ before literal, ∃ names : List (List Char),
      ps = before ++ literal :: names.map token ∧ isToken literal = false := by
  induction ps using List.reverseRecOn with
  | nil => cases h
  | append_singleton ps q ih =>
      cases hq : isToken q with
      | false => exact ⟨ps, q, [], rfl, hq⟩
      | true =>
          have hmem : p ∈ ps := by
            rcases List.mem_append.1 h with hmem | hmem
            · exact hmem
            · rw [List.mem_singleton.1 hmem, hq] at hp
              cases hp
          obtain ⟨before, literal, names, rfl, hliteral⟩ := ih hmem
          refine ⟨before, literal, names ++ [inner q], ?_, hliteral⟩
          rw [List.append_assoc, List.cons_append, List.map_append, List.map_singleton,
            ← eq_token_inner hq]

theorem filter_map_token (names : List (List Char)) :
    ((names.map token).filter fun p => !isToken p) = [] := by
  rw [List.filter_eq_nil_iff]
  intro p hp
  obtain ⟨name, -, rfl⟩ := List.mem_map.1 hp
  simp [isToken_token]

theorem ClosesWith.segments_eq (h : ClosesWith t literal names) :
    ∃ before, fullParts t = before ++ literal :: names.map token ∧ isToken literal = false ∧
      segments t =
        (before.filter fun p => !isToken p).map String.ofList ++ [String.ofList literal] := by
  obtain ⟨before, hfull, hliteral⟩ := h
  refine ⟨before, hfull, hliteral, ?_⟩
  rw [segments, hfull, List.filter_append, List.filter_cons_of_pos (by simp [hliteral]),
    filter_map_token, List.map_append, List.map_singleton]

/-- The walk that counts as many literals as there are stops behind the last of them. -/
theorem tokenAfter_append (hliteral : isToken literal = false) :
    tokenAfter ((before.filter fun p => !isToken p).length + 1) (before ++ literal :: rest) =
      (rest.head?.filter isToken).map inner := by
  induction before with
  | nil =>
      rw [List.nil_append, tokenAfter.eq_def]
      simp only [hliteral, Bool.false_eq_true, if_false, List.filter_nil, List.length_nil]
      cases rest with
      | nil => rfl
      | cons next rest => cases hnext : isToken next <;> simp [hnext, Option.filter]
  | cons p before ih =>
      rw [List.cons_append, tokenAfter.eq_def]
      cases hp : isToken p with
      | true =>
          simp only [hp, if_true]
          rw [List.filter_cons_of_neg (by simp [hp])]
          exact ih
      | false =>
          simp only [hp, Bool.false_eq_true, if_false]
          rw [List.filter_cons_of_pos (by simp [hp]), List.length_cons]
          exact ih

/-- In a template that goes on behind another one, what follows the segments of that one is the
first of the tokens it closes with, if it closes with any. -/
theorem parameterAfter_of_continued {t' : String} {more : List (List Char)}
    (h : ClosesWith t literal names) (hmore : fullParts t' = fullParts t ++ more)
    (hnames : names ≠ [] ∨ more = []) :
    parameterAfter t' (segments t) = names.head?.map String.ofList := by
  obtain ⟨before, hfull, hliteral, hsegments⟩ := h.segments_eq
  rw [parameterAfter, hmore, hfull, hsegments, List.length_append, List.length_map,
    List.length_singleton, List.append_assoc, List.cons_append, tokenAfter_append hliteral]
  cases names with
  | nil =>
      rw [hnames.resolve_left fun hne => hne rfl]
      rfl
  | cons name names => simp [isToken_token, inner_token]

theorem parameterAfter_eq_head? (h : ClosesWith t literal names) :
    parameterAfter t (segments t) = names.head?.map String.ofList :=
  parameterAfter_of_continued h (List.append_nil _).symm (Or.inr rfl)

/-! ## Regular templates -/

/-- Whether a part has characters, and none of them is a brace. -/
def IsWord (p : List Char) : Prop := p ≠ [] ∧ '\x7b' ∉ p ∧ '\x7d' ∉ p

instance (p : List Char) : Decidable (IsWord p) := inferInstanceAs (Decidable (_ ∧ _ ∧ _))

/-- Whether a part is the token of a name without braces. -/
def IsNamed (p : List Char) : Prop := isToken p = true ∧ '\x7b' ∉ inner p ∧ '\x7d' ∉ inner p

instance (p : List Char) : Decidable (IsNamed p) := inferInstanceAs (Decidable (_ ∧ _ ∧ _))

/-- Whether a template has a slash in front of each part, a word for its first part, and for each
of the others a word or a named token. -/
def IsRegular (t : String) : Prop :=
  ∃ first rest, parts t = [] :: first :: rest ∧ IsWord first ∧ ∀ p ∈ rest, IsWord p ∨ IsNamed p

theorem IsWord.isToken_eq (h : IsWord p) : isToken p = false := by
  rw [isToken, Bool.and_eq_false_iff]
  refine Or.inl (beq_eq_false_iff_ne.2 fun hhead => h.2.1 ?_)
  exact List.mem_of_head? hhead

theorem IsRegular.fullParts_eq (h : IsRegular t) : parts t = [] :: fullParts t := by
  obtain ⟨first, rest, hparts, hfirst, hrest⟩ := h
  rw [fullParts, hparts, List.filter_cons_of_neg (by simp), List.filter_eq_self.2]
  intro p hp
  have hne : p ≠ [] := by
    rcases List.mem_cons.1 hp with rfl | hmem
    · exact hfirst.1
    · rcases hrest p hmem with hword | hnamed
      · exact hword.1
      · rw [eq_token_inner hnamed.1]
        exact List.cons_ne_nil _ _
  simpa using hne

theorem IsRegular.isWord_of_literal (h : IsRegular t) (hmem : p ∈ fullParts t)
    (hp : isToken p = false) : IsWord p := by
  have hfull := h.fullParts_eq
  obtain ⟨first, rest, hparts, hfirst, hrest⟩ := h
  rw [hparts, List.cons.injEq] at hfull
  rw [← hfull.2] at hmem
  rcases List.mem_cons.1 hmem with rfl | hmem
  · exact hfirst
  · refine (hrest p hmem).resolve_right ?_
    intro hnamed
    rw [hnamed.1] at hp
    cases hp

theorem IsRegular.exists_closesWith (h : IsRegular t) :
    ∃ literal names, ClosesWith t literal names := by
  have hfull := h.fullParts_eq
  obtain ⟨first, rest, hparts, hfirst, -⟩ := h
  rw [hparts, List.cons.injEq] at hfull
  have hmem : first ∈ fullParts t := hfull.2 ▸ List.mem_cons_self
  obtain ⟨before, literal, names, hclose, hliteral⟩ :=
    exists_last_literal hmem hfirst.isToken_eq
  exact ⟨literal, names, before, hclose, hliteral⟩

/-- The parameter of a regular template is the last token it closes with. -/
theorem IsRegular.trailingParameter_eq_getLast? (h : IsRegular t)
    (hclose : ClosesWith t literal names) :
    trailingParameter t = names.getLast?.map String.ofList := by
  obtain ⟨before, hfull, hliteral⟩ := hclose
  have hparts := h.fullParts_eq
  rw [hfull] at hparts
  rcases List.eq_nil_or_concat' names with rfl | ⟨init, name, rfl⟩
  · have hlast : (parts t).getLast? = some literal := by
      rw [hparts, List.map_nil, ← List.cons_append, List.getLast?_concat]
    have hword := h.isWord_of_literal (hfull ▸ List.mem_append_right _ List.mem_cons_self) hliteral
    have hfalse : isParameterized t = false := by
      rw [isParameterized_eq hlast, beq_eq_false_iff_ne]
      exact fun hbrace => hword.2.2 (List.mem_of_getLast? hbrace)
    rw [trailingParameter_eq hlast, hfalse]
    rfl
  · have hlast : (parts t).getLast? = some (token name) := by
      rw [hparts, List.map_append, List.map_singleton, ← List.cons_append, ← List.cons_append,
        ← List.append_assoc, List.getLast?_concat]
    rw [trailingParameter_eq hlast, isParameterized_of_isToken hlast (isToken_token name),
      inner_token, List.getLast?_concat]
    rfl

theorem IsRegular.names_ne_nil (h : IsRegular t) (hclose : ClosesWith t literal names)
    (hp : isParameterized t = true) : names ≠ [] := by
  rintro rfl
  obtain ⟨last, hlast⟩ := exists_getLast?_parts t
  have hnone := h.trailingParameter_eq_getLast? hclose
  rw [trailingParameter_eq hlast, if_pos hp] at hnone
  cases hnone

end Template

/-- The default of an endpoint's parameter is the one that belongs to the last literal. -/
theorem Endpoint.defaultParameter_eq_lookup {c : Conventions} {e : Endpoint} {literal : List Char}
    {names : List (List Char)} (hp : e.isParameterized = true)
    (hclose : Template.ClosesWith e.template literal names) :
    e.defaultParameter c =
      (if e.isFromRule then c.versionDefaults else c.parameterDefaults).lookup
        (String.ofList literal) := by
  obtain ⟨_, -, -, hsegments⟩ := hclose.segments_eq
  have hlast : e.segments.getLast? = some (String.ofList literal) := by
    rw [segments, hsegments, List.getLast?_concat]
  rw [defaultParameter, if_pos hp, hlast]
  cases e.isFromRule <;> rfl

end ApiOutline
