import Mathlib.Data.List.Chain
import ApiOutline.Proofs.Template
import ApiOutline.Proofs.Template.Parts

/-!
# Templates from their segments

Two walks go over the parts of a template: one keeps the literals, the other
counts them and looks at the part behind. Together they see every literal and
the token directly behind it, so what they miss is a token in front of the first
literal, a token behind another one, an empty part, and a first part without a
slash. A template without any of these is given back by what the walks find,
depth by depth, and no other template is (`rebuilt_eq_self_iff`).

The two walks are joined in `readings`, whose members are what the walks find at
one depth. Everything else is a statement about lists of parts.
-/

namespace ApiOutline.Template

variable {p : List Char} {ps rest : List (List Char)} {t : String}

/-! ## Depth by depth -/

/-- What a template says at a depth: the segment there and, if a parameter follows the segments so
far, its token, each behind a slash. -/
def atDepth (t : String) (d : Nat) : String :=
  "/" ++ ((segments t)[d - 1]?).getD "" ++
    ((parameterAfter t ((segments t).take d)).map fun p => "/\x7b" ++ p ++ "\x7d").getD ""

/-- What a template says at all depths, the first segment first. -/
def rebuilt (t : String) : String :=
  String.join ((List.range' 1 (segments t).length).map (atDepth t))

/-- The literals among some parts, each with the name of the token directly behind it. -/
def readings : List (List Char) → List (List Char × Option (List Char))
  | [] => []
  | p :: rest =>
      if isToken p then readings rest
      else (p, (rest.head?.filter isToken).map inner) :: readings rest

theorem readings_cons_of_isToken (hp : isToken p = true) : readings (p :: rest) = readings rest :=
  if_pos hp

theorem readings_cons_of_literal (hp : isToken p = false) :
    readings (p :: rest) = (p, (rest.head?.filter isToken).map inner) :: readings rest := by
  rw [readings, hp, if_neg Bool.false_ne_true]

theorem map_fst_readings (ps : List (List Char)) :
    (readings ps).map Prod.fst = ps.filter fun p => !isToken p := by
  induction ps with
  | nil => rfl
  | cons p rest ih =>
      cases hp : isToken p with
      | true => rw [readings_cons_of_isToken hp, ih, List.filter_cons_of_neg (by simp [hp])]
      | false =>
          rw [readings_cons_of_literal hp, List.map_cons, ih,
            List.filter_cons_of_pos (by simp [hp])]

/-- The walk that counts one literal more than `d` stops at the literal that has `d` in front. -/
theorem tokenAfter_succ (d : Nat) (ps : List (List Char)) :
    tokenAfter (d + 1) ps = (readings ps)[d]?.bind Prod.snd := by
  induction ps generalizing d with
  | nil => rfl
  | cons p rest ih =>
      rw [tokenAfter.eq_def]
      cases hp : isToken p with
      | true =>
          simp only [hp, if_true]
          rw [readings_cons_of_isToken hp, ih]
      | false =>
          simp only [hp, Bool.false_eq_true, if_false]
          rw [readings_cons_of_literal hp]
          cases d with
          | zero =>
              cases rest with
              | nil => rfl
              | cons next rest => cases hnext : isToken next <;> simp [hnext, Option.filter]
          | succ d => exact ih d

theorem segments_eq_map_readings (t : String) :
    segments t = (readings (fullParts t)).map fun r => String.ofList r.1 := by
  rw [segments, ← map_fst_readings, List.map_map]
  rfl

theorem length_segments (t : String) : (segments t).length = (readings (fullParts t)).length := by
  rw [segments_eq_map_readings, List.length_map]

theorem parameterAfter_take {d : Nat} (hd : d < (segments t).length) :
    parameterAfter t ((segments t).take (d + 1)) =
      ((readings (fullParts t))[d]?.bind Prod.snd).map String.ofList := by
  rw [parameterAfter, List.length_take_of_le hd, tokenAfter_succ]

/-! ## Parts as the readings spell them -/

/-- The parts that are read at one depth. -/
def spelled (r : List Char × Option (List Char)) : List (List Char) :=
  r.1 :: (r.2.map token).toList

/-- The parts that are read at all depths. -/
def respelled (ps : List (List Char)) : List (List Char) :=
  (readings ps).flatMap spelled

theorem atDepth_succ {d : Nat} (hd : d < (readings (fullParts t)).length) :
    (atDepth t (d + 1)).toList = (spelled (readings (fullParts t))[d]).flatMap ('/' :: ·) := by
  have hlength : d < (segments t).length := by rwa [length_segments]
  have hsegment : (segments t)[d]? = some (String.ofList (readings (fullParts t))[d].1) := by
    rw [segments_eq_map_readings, List.getElem?_map, List.getElem?_eq_getElem hd, Option.map_some]
  rw [atDepth, parameterAfter_take hlength, Nat.add_sub_cancel, hsegment,
    List.getElem?_eq_getElem hd, Option.bind_some, Option.getD_some, spelled, List.flatMap_cons]
  cases (readings (fullParts t))[d].2 with
  | none => simp
  | some name => simp [token]

/-- What a template says depth by depth is the text of the parts that its readings spell. -/
theorem toList_rebuilt (t : String) :
    (rebuilt t).toList = (respelled (fullParts t)).flatMap ('/' :: ·) := by
  have hdepths : (List.range' 1 (segments t).length).map (fun d => (atDepth t d).toList) =
      (readings (fullParts t)).map fun r => (spelled r).flatMap ('/' :: ·) := by
    refine List.ext_getElem (by simp [length_segments]) fun d _ hd => ?_
    rw [List.length_map] at hd
    rw [List.getElem_map, List.getElem_map, List.getElem_range', Nat.one_mul, Nat.add_comm,
      atDepth_succ hd]
  rw [rebuilt, String.toList_join, List.flatMap_map, List.flatMap_def, hdepths,
    ← List.flatMap_def, respelled, List.flatMap_assoc]

theorem mem_of_mem_respelled (h : p ∈ respelled ps) : p ∈ ps := by
  induction ps with
  | nil => cases h
  | cons q rest ih =>
      cases hq : isToken q with
      | true =>
          rw [respelled, readings_cons_of_isToken hq] at h
          exact List.mem_cons_of_mem _ (ih h)
      | false =>
          rw [respelled, readings_cons_of_literal hq, List.flatMap_cons, List.mem_append,
            spelled, List.mem_cons] at h
          rcases h with (rfl | hnext) | hrest
          · exact List.mem_cons_self
          · obtain ⟨name, hname, rfl⟩ : ∃ name, (rest.head?.filter isToken).map inner = some name ∧
                token name = p := by simpa using hnext
            obtain ⟨next, hhead, rfl⟩ := Option.map_eq_some_iff.1 hname
            obtain ⟨hhead, htoken⟩ := Option.filter_eq_some_iff.1 hhead
            rw [← eq_token_inner htoken]
            exact List.mem_cons_of_mem _ (List.mem_of_head? hhead)
          · exact List.mem_cons_of_mem _ (ih hrest)

/-! ## Where nothing is missed -/

/-- Whether some parts begin with a literal, and no token is directly behind another one. -/
structure Alternates (ps : List (List Char)) : Prop where
  first : ∀ p, ps.head? = some p → isToken p = false
  next : ps.IsChain fun p q => ¬ (isToken p = true ∧ isToken q = true)

/-- Without a token behind another one, all that is missed is a token that stands first. -/
theorem respelled_of_isChain
    (h : ps.IsChain fun p q => ¬ (isToken p = true ∧ isToken q = true)) :
    respelled ps = ps.dropWhile isToken := by
  induction ps with
  | nil => rfl
  | cons p rest ih =>
      have hrest := ih h.tail
      cases hp : isToken p with
      | true =>
          rw [respelled, readings_cons_of_isToken hp, List.dropWhile_cons_of_pos hp, ← hrest,
            respelled]
      | false =>
          rw [respelled, readings_cons_of_literal hp, List.flatMap_cons, ← respelled, hrest,
            List.dropWhile_cons_of_neg (by simp [hp])]
          cases rest with
          | nil => rfl
          | cons next rest =>
              cases hnext : isToken next with
              | true =>
                  -- The part behind this token is no token, so nothing else is dropped.
                  have hdrop : rest.dropWhile isToken = rest := by
                    cases rest with
                    | nil => rfl
                    | cons q rest =>
                        have hapart := (List.isChain_cons_cons.1 h.tail).1
                        exact List.dropWhile_cons_of_neg fun hq => hapart ⟨hnext, hq⟩
                  rw [List.dropWhile_cons_of_pos hnext, hdrop]
                  simp [spelled, Option.filter, hnext, ← eq_token_inner hnext]
              | false =>
                  rw [List.dropWhile_cons_of_neg (by simp [hnext])]
                  simp [spelled, Option.filter, hnext]

theorem alternates_respelled (ps : List (List Char)) : Alternates (respelled ps) := by
  have hliteral : ∀ r ∈ readings ps, isToken r.1 = false := by
    intro r hr
    have hmem : r.1 ∈ ps.filter fun p => !isToken p := by
      rw [← map_fst_readings]
      exact List.mem_map_of_mem hr
    simpa using (List.mem_filter.1 hmem).2
  rw [respelled]
  generalize readings ps = rs at hliteral
  induction rs with
  | nil => exact ⟨by simp, List.IsChain.nil⟩
  | cons r rs ih =>
      obtain ⟨hr, hrs⟩ := List.forall_mem_cons.1 hliteral
      obtain ⟨hfirst, hnext⟩ := ih hrs
      rw [List.flatMap_cons]
      refine ⟨fun p hp => ?_, ?_⟩
      · obtain rfl : r.1 = p := Option.some.inj hp
        exact hr
      · rw [spelled]
        cases r.2 with
        | none => exact List.isChain_cons.2 ⟨fun q _ hboth => by simp [hr] at hboth, hnext⟩
        | some name =>
            refine List.isChain_cons_cons.2 ⟨fun hboth => by simp [hr] at hboth, ?_⟩
            refine List.isChain_cons.2 ⟨fun q hq hboth => ?_, hnext⟩
            rw [hfirst q hq] at hboth
            cases hboth.2

theorem respelled_eq_self_iff : respelled ps = ps ↔ Alternates ps := by
  constructor
  · intro h
    rw [← h]
    exact alternates_respelled ps
  · rintro ⟨hfirst, hnext⟩
    rw [respelled_of_isChain hnext]
    cases ps with
    | nil => rfl
    | cons p rest => exact List.dropWhile_cons_of_neg (by simp [hfirst p rfl])

/-! ## Templates that are given back -/

/-- Whether a template has a slash in front of each part, has parts and none that is empty, begins
with a literal, and has no token directly behind another one. -/
def IsAlternating (t : String) : Prop :=
  ∃ ps, parts t = [] :: ps ∧ ps ≠ [] ∧ (∀ p ∈ ps, p ≠ []) ∧ Alternates ps

theorem IsAlternating.rebuilt_eq (h : IsAlternating t) : rebuilt t = t := by
  obtain ⟨ps, hparts, -, hfull, halternates⟩ := h
  have hfullParts : fullParts t = ps := by
    rw [fullParts, hparts, List.filter_cons_of_neg (by simp), List.filter_eq_self]
    intro p hp
    simpa using hfull p hp
  rw [← String.toList_inj, toList_rebuilt, hfullParts, respelled_eq_self_iff.2 halternates]
  exact (Text.eq_append_of_splitOn hparts).symm

theorem isAlternating_of_rebuilt_eq (h : rebuilt t = t) (hne : t ≠ "") : IsAlternating t := by
  have htext := toList_rebuilt t
  rw [h] at htext
  have hmem : ∀ p ∈ respelled (fullParts t), p ∈ parts t ∧ p ≠ [] := fun p hp => by
    simpa [fullParts] using mem_of_mem_respelled hp
  have hslash : ∀ p ∈ respelled (fullParts t), '/' ∉ p := fun p hp =>
    Text.not_mem_of_mem_splitOn _ (hmem p hp).1
  refine ⟨respelled (fullParts t), ?_, ?_, fun p hp => (hmem p hp).2, alternates_respelled _⟩
  · rw [parts, htext]
    exact Text.splitOn_append_flatMap [] hslash
  · intro hnil
    rw [hnil, List.flatMap_nil, String.toList_eq_nil_iff] at htext
    exact hne htext

theorem rebuilt_eq_self_iff (t : String) : rebuilt t = t ↔ t = "" ∨ IsAlternating t := by
  constructor
  · intro h
    by_cases hempty : t = ""
    · exact Or.inl hempty
    · exact Or.inr (isAlternating_of_rebuilt_eq h hempty)
  · rintro (rfl | h)
    · rfl
    · exact h.rebuilt_eq

/-- What is said at each depth follows from the segments and the parameters behind them. -/
theorem rebuilt_congr {t' : String} (hsegments : segments t' = segments t)
    (hparameters : ∀ d, parameterAfter t' ((segments t').take d) =
      parameterAfter t ((segments t).take d)) : rebuilt t' = rebuilt t := by
  have hdepth : atDepth t' = atDepth t := by
    funext d
    rw [atDepth, atDepth, hparameters, hsegments]
  rw [rebuilt, rebuilt, hdepth, hsegments]

/-- Depth by depth, the segments of a template and the parameters that follow them give it back
exactly if it is empty or alternating: a slash in front of each part, no part empty, a literal
first, and no token directly behind another one. So they tell any two such templates apart. -/
theorem segments_and_parameters_determine (t : String) :
    (rebuilt t = t ↔ t = "" ∨ IsAlternating t) ∧
    ∀ t', IsAlternating t → IsAlternating t' → segments t' = segments t →
      (∀ d, parameterAfter t' ((segments t').take d) = parameterAfter t ((segments t).take d)) →
      t' = t := by
  refine ⟨rebuilt_eq_self_iff t, fun t' h h' hsegments hparameters => ?_⟩
  calc t' = rebuilt t' := h'.rebuilt_eq.symm
    _ = rebuilt t := rebuilt_congr hsegments hparameters
    _ = t := h.rebuilt_eq

/-- A template in which a literal stands twice and a token has no name. -/
def repeatedTemplate : String := "/a/\x7bx\x7d/a/b/\x7b\x7d"

theorem segments_and_parameters_determine_repeated :
    IsAlternating repeatedTemplate ∧ segments repeatedTemplate = ["a", "a", "b"] ∧
    rebuilt repeatedTemplate = repeatedTemplate := by
  have halternates : Alternates [['a'], token ['x'], ['a'], ['b'], token []] := by
    refine ⟨fun p hp => ?_, by decide⟩
    cases hp
    rfl
  have halternating : IsAlternating repeatedTemplate :=
    ⟨_, by decide, by decide, by decide, halternates⟩
  exact ⟨halternating, by decide,
    (segments_and_parameters_determine repeatedTemplate).1.2 (Or.inr halternating)⟩

end ApiOutline.Template
