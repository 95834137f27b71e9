import Mathlib.Data.List.Basic
import ApiOutline.Template

/-!
# Templates and their parts

A template and the list of its parts say the same: the parts are what stands
between the slashes, and the template is the first part followed by a slash and
a part for each of the others (`eq_append_of_splitOn`, `splitOn_append_flatMap`).
What is said about a place in the text can so be said about a place in the list:
there are as many parts up to it as there are slashes, and one (`length_splitOn`).
-/

namespace ApiOutline

namespace Text

variable {sep : Char} {cs part : List Char} {ps : List (List Char)}

theorem exists_splitOn_eq_cons (sep : Char) (cs : List Char) :
    ∃ p ps, splitOn sep cs = p :: ps :=
  List.exists_cons_of_ne_nil (splitOn_ne_nil sep cs)

/-! ## Cutting what is put together -/

theorem splitOn_append (before after : List Char) :
    splitOn sep (before ++ sep :: after) = splitOn sep before ++ splitOn sep after := by
  induction before with
  | nil => rw [List.nil_append, splitOn_sep]; rfl
  | cons c before ih =>
      rw [List.cons_append, splitOn, splitOn]
      split
      · rw [ih, List.cons_append]
      · obtain ⟨p, ps, hparts⟩ := exists_splitOn_eq_cons sep before
        rw [ih, hparts]
        rfl

/-- What stands in front of a text and has no separator goes to its first part. -/
theorem splitOn_append_of_notMem (h : sep ∉ part) (after : List Char) :
    splitOn sep (part ++ after) = (splitOn sep after).modifyHead (part ++ ·) := by
  obtain ⟨p, ps, hparts⟩ := exists_splitOn_eq_cons sep after
  rw [hparts, List.modifyHead_cons]
  induction part with
  | nil => exact hparts
  | cons c part ih =>
      rw [List.mem_cons, not_or] at h
      rw [List.cons_append, splitOn, if_neg (Ne.symm h.1), ih h.2]
      rfl

/-- Parts that are put behind a text, each behind a separator, are its last parts. -/
theorem splitOn_append_flatMap (before : List Char) (h : ∀ p ∈ ps, sep ∉ p) :
    splitOn sep (before ++ ps.flatMap (sep :: ·)) = splitOn sep before ++ ps := by
  induction ps generalizing before with
  | nil => rw [List.flatMap_nil, List.append_nil, List.append_nil]
  | cons p ps ih =>
      rw [List.forall_mem_cons] at h
      rw [List.flatMap_cons, ← List.append_assoc, ih _ h.2, splitOn_append,
        splitOn_of_not_mem h.1, List.append_assoc, List.singleton_append]

/-- What is joined is the first part followed by a separator and a part for each of the others. -/
theorem intercalate_cons (sep : Char) (part : List Char) (ps : List (List Char)) :
    [sep].intercalate (part :: ps) = part ++ ps.flatMap (sep :: ·) := by
  induction ps generalizing part with
  | nil => simp [List.intercalate]
  | cons p ps ih =>
      rw [List.flatMap_cons, List.cons_append, ← ih p]
      simp [List.intercalate]

/-- A text is its first part followed by a separator and a part for each of the others. -/
theorem eq_append_of_splitOn (h : splitOn sep cs = part :: ps) :
    cs = part ++ ps.flatMap (sep :: ·) := by
  rw [← intercalate_cons, ← h, intercalate_splitOn]

theorem length_splitOn (cs : List Char) : (splitOn sep cs).length = cs.count sep + 1 := by
  induction cs with
  | nil => rfl
  | cons c cs ih =>
      rw [splitOn]
      split
      · next hc => rw [List.length_cons, ih, hc, List.count_cons_self]
      · next hc =>
          obtain ⟨p, ps, hparts⟩ := exists_splitOn_eq_cons sep cs
          rw [List.count_cons_of_ne hc, ← ih, hparts]
          rfl

end Text

namespace Template

variable {t : String} {last : List Char}

theorem parts_ne_nil (t : String) : parts t ≠ [] := Text.splitOn_ne_nil _ _

/-- A template is its last part, or has a slash in front of it. -/
theorem toList_of_getLast?_parts (h : (parts t).getLast? = some last) :
    t.toList = last ∨ ∃ before, t.toList = before ++ '/' :: last := by
  obtain ⟨p, ps, hparts⟩ := Text.exists_splitOn_eq_cons '/' t.toList
  have htext := Text.eq_append_of_splitOn hparts
  rw [parts, hparts] at h
  rcases List.eq_nil_or_concat' ps with rfl | ⟨init, q, rfl⟩
  · obtain rfl : p = last := Option.some.inj h
    exact Or.inl (by rw [htext, List.flatMap_nil, List.append_nil])
  · rw [← List.cons_append, List.getLast?_concat] at h
    obtain rfl : q = last := Option.some.inj h
    refine Or.inr ⟨p ++ init.flatMap ('/' :: ·), ?_⟩
    rw [htext, List.flatMap_append, List.flatMap_singleton, List.append_assoc]

/-- A template ends in a closing brace where its last part does. -/
theorem isParameterized_eq (h : (parts t).getLast? = some last) :
    isParameterized t = (last.getLast? == some '\x7d') := by
  rw [isParameterized]
  rcases toList_of_getLast?_parts h with htext | ⟨before, htext⟩
  · rw [htext]
  · rw [htext]
    cases last with
    | nil => rw [List.getLast?_concat]; rfl
    | cons c rest => rw [List.getLast?_append_cons, List.getLast?_cons_cons]

end Template

end ApiOutline
