import Mathlib.Data.List.Basic
import ApiOutline.Template

/-!
# What follows the segments of a template

A token is a name between braces. Which one follows the first segments of a
template is found by walking over its parts and counting the literals among
them. What the walk finds stands at a place that can be named without it: the
token is directly behind a literal part, before which there is one literal
fewer than are counted (`tokenAfter_eq_some_iff`).
-/

namespace ApiOutline.Template

variable {part name : List Char} {p : List Char} {rest : List (List Char)} {n : Nat}

/-! ## Tokens -/

/-- The token of a name. -/
def token (name : List Char) : List Char := '\x7b' :: name ++ ['\x7d']

theorem isToken_token (name : List Char) : isToken (token name) = true := by
  rw [isToken, token, List.cons_append, List.head?_cons, ← List.cons_append,
    List.getLast?_concat]
  rfl

theorem inner_token (name : List Char) : inner (token name) = name := by
  simp [inner, token]

/-- A token is that of the name inside it. -/
theorem eq_token_inner (h : isToken part = true) : part = token (inner part) := by
  rw [isToken, Bool.and_eq_true, beq_iff_eq, beq_iff_eq] at h
  obtain ⟨hfirst, hlast⟩ := h
  cases part with
  | nil => cases hfirst
  | cons c body =>
      obtain rfl : c = '\x7b' := Option.some.inj hfirst
      -- The brace that opens is not the one that closes, so there are two of them.
      have hbody : body ≠ [] := by
        rintro rfl
        exact absurd hlast (by decide)
      have hclose : body.getLast? = some '\x7d' := by
        rwa [List.getLast?_cons_of_ne_nil hbody] at hlast
      show '\x7b' :: body = '\x7b' :: body.dropLast ++ ['\x7d']
      rw [List.cons_append, List.dropLast_append_getLast? '\x7d' hclose]

/-! ## The walk -/

/-- Whether the part directly behind the `n`-th literal one is the token of a name. -/
def TokenFollows (parts : List (List Char)) (n : Nat) (name : List Char) : Prop :=
  ∃ before literal after, parts = before ++ literal :: token name :: after ∧
    isToken literal = false ∧ (before.filter fun p => !isToken p).length + 1 = n

theorem tokenFollows_cons_of_isToken (hp : isToken p = true) :
    TokenFollows (p :: rest) n name ↔ TokenFollows rest n name := by
  constructor
  · rintro ⟨before, literal, after, hparts, hliteral, hcount⟩
    cases before with
    | nil =>
        rw [List.nil_append, List.cons.injEq] at hparts
        rw [hparts.1, hliteral] at hp
        cases hp
    | cons q before =>
        rw [List.cons_append, List.cons.injEq] at hparts
        obtain ⟨rfl, hrest⟩ := hparts
        rw [List.filter_cons_of_neg (by simp [hp])] at hcount
        exact ⟨before, literal, after, hrest, hliteral, hcount⟩
  · rintro ⟨before, literal, after, rfl, hliteral, hcount⟩
    refine ⟨p :: before, literal, after, rfl, hliteral, ?_⟩
    rwa [List.filter_cons_of_neg (by simp [hp])]

theorem tokenFollows_cons_of_literal (hp : isToken p = false) :
    TokenFollows (p :: rest) (n + 1) name ↔
      (n = 0 ∧ ∃ after, rest = token name :: after) ∨ TokenFollows rest n name := by
  constructor
  · rintro ⟨before, literal, after, hparts, hliteral, hcount⟩
    cases before with
    | nil =>
        rw [List.nil_append, List.cons.injEq] at hparts
        rw [List.filter_nil, List.length_nil] at hcount
        exact Or.inl ⟨by omega, after, hparts.2⟩
    | cons q before =>
        rw [List.cons_append, List.cons.injEq] at hparts
        obtain ⟨rfl, hrest⟩ := hparts
        rw [List.filter_cons_of_pos (by simp [hp]), List.length_cons] at hcount
        exact Or.inr ⟨before, literal, after, hrest, hliteral, by omega⟩
  · rintro (⟨rfl, after, rfl⟩ | ⟨before, literal, after, rfl, hliteral, hcount⟩)
    · exact ⟨[], p, after, rfl, hp, rfl⟩
    · refine ⟨p :: before, literal, after, rfl, hliteral, ?_⟩
      rw [List.filter_cons_of_pos (by simp [hp]), List.length_cons, hcount]

theorem not_tokenFollows_zero (parts : List (List Char)) : ¬ TokenFollows parts 0 name := by
  rintro ⟨_, _, _, -, -, hcount⟩
  cases hcount

/-- The walk finds the token that is directly behind the last literal it counts. -/
theorem tokenAfter_eq_some_iff {parts : List (List Char)} :
    tokenAfter n parts = some name ↔ TokenFollows parts n name := by
  induction parts generalizing n with
  | nil =>
      refine iff_of_false (by simp [tokenAfter]) ?_
      rintro ⟨before, literal, after, hparts, -⟩
      simp at hparts
  | cons p rest ih =>
      rw [tokenAfter.eq_def]
      cases hp : isToken p with
      | true => simp only [hp, if_true, ih, tokenFollows_cons_of_isToken hp]
      | false =>
          simp only [hp, Bool.false_eq_true, if_false]
          split
          · exact iff_of_false (by simp) (not_tokenFollows_zero _)
          · rw [tokenFollows_cons_of_literal hp, or_iff_left (not_tokenFollows_zero _),
              eq_self, true_and]
            cases rest with
            | nil => simp
            | cons next rest =>
                simp only [List.cons.injEq, exists_and_left, exists_eq', and_true]
                constructor
                · intro h
                  split at h
                  · next htoken =>
                      cases h
                      exact eq_token_inner htoken
                  · cases h
                · rintro rfl
                  rw [if_pos (isToken_token name), inner_token]
          · next k hk =>
              rw [ih, tokenFollows_cons_of_literal hp]
              exact ⟨Or.inr, fun h => h.resolve_left fun hzero => hk (by omega)⟩

/-- A parameter follows some segments where its token is directly behind the last of as many
literal parts. -/
theorem parameterAfter_eq_some_iff {t parameter : String} {before : List String} :
    parameterAfter t before = some parameter ↔
      TokenFollows (fullParts t) before.length parameter.toList := by
  rw [parameterAfter, ← tokenAfter_eq_some_iff, Option.map_eq_some_iff]
  constructor
  · rintro ⟨cs, hcs, rfl⟩
    rw [hcs, String.toList_ofList]
  · intro h
    exact ⟨parameter.toList, h, String.ofList_toList⟩

end ApiOutline.Template
