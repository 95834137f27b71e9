import ApiOutline.Proofs.Template
import ApiOutline.Proofs.Template.Parts

/-!
# How a template ends

Whether a template takes a parameter at its end is read off its last character,
and the parameter's name off whatever stands behind the last slash. Its segments
are read off its parts, the empty ones left out. The two readings agree on the
templates that end plainly: a part in front of a closing slash is no token, and
a last part that ends in a closing brace is one. On all others they differ
(`isReadByLastToken_iff`), since each of the two exceptions is seen by one
reading and not by the other.
-/

namespace ApiOutline.Template

variable {t : String} {last p name : List Char}

/-- Whether a template ends in the token of a name, empty parts aside. -/
def EndsInToken (t : String) (name : List Char) : Prop :=
  (fullParts t).getLast? = some (token name)

/-- Whether a template takes a parameter exactly if it ends in a token, and that one. -/
structure IsReadByLastToken (t : String) : Prop where
  parameterized : isParameterized t = true ↔ ∃ name, EndsInToken t name
  parameter : ∀ name, trailingParameter t = some (String.ofList name) ↔ EndsInToken t name

/-- Whether a template neither ends in a literal with a closing brace nor in a slash behind a
token. -/
structure EndsPlainly (t : String) : Prop where
  brace : ∀ last, (parts t).getLast? = some last → last.getLast? = some '\x7d' →
    isToken last = true
  slash : (parts t).getLast? = some [] → ∀ name, ¬ EndsInToken t name

theorem exists_getLast?_parts (t : String) : ∃ last, (parts t).getLast? = some last :=
  ⟨_, List.getLast?_eq_some_getLast (parts_ne_nil t)⟩

/-- The last part is the last one that is not empty, unless it is empty itself. -/
theorem getLast?_fullParts (h : (parts t).getLast? = some last) (hne : last ≠ []) :
    (fullParts t).getLast? = some last := by
  obtain ⟨init, hinit⟩ := List.getLast?_eq_some_iff.1 h
  rw [fullParts, hinit, List.filter_append, List.filter_cons_of_pos (by simpa using hne),
    List.filter_nil, List.getLast?_concat]

theorem trailingParameter_eq (h : (parts t).getLast? = some last) :
    trailingParameter t =
      if isParameterized t then some (String.ofList (inner last)) else none := by
  rw [trailingParameter, h]
  rfl

/-- Where the last part is not empty, the template ends in a token if that part is one. -/
theorem endsInToken_iff (h : (parts t).getLast? = some last) (hne : last ≠ []) :
    EndsInToken t name ↔ last = token name := by
  rw [EndsInToken, getLast?_fullParts h hne, Option.some.injEq]

theorem isParameterized_of_isToken (h : (parts t).getLast? = some last)
    (hlast : isToken last = true) : isParameterized t = true := by
  rw [isToken, Bool.and_eq_true] at hlast
  rw [isParameterized_eq h, hlast.2]

theorem not_endsInToken_of_literal (h : (fullParts t).getLast? = some p)
    (hp : isToken p = false) : ¬ EndsInToken t name := by
  intro hends
  obtain rfl : p = token name := Option.some.inj (h.symm.trans hends)
  rw [isToken_token] at hp
  cases hp

/-! ## The two readings -/

theorem isReadByLastToken_of_isToken (hlast : (parts t).getLast? = some last)
    (htoken : isToken last = true) : IsReadByLastToken t := by
  have hne : last ≠ [] := by
    rintro rfl
    cases htoken
  have htrue := isParameterized_of_isToken hlast htoken
  have hends : EndsInToken t (inner last) :=
    (endsInToken_iff hlast hne).2 (eq_token_inner htoken)
  refine ⟨iff_of_true htrue ⟨_, hends⟩, fun name => ?_⟩
  rw [trailingParameter_eq hlast, if_pos htrue, Option.some.injEq, String.ofList_inj,
    endsInToken_iff hlast hne]
  constructor
  · rintro rfl
    exact eq_token_inner htoken
  · intro heq
    rw [heq, inner_token]

theorem isReadByLastToken_of_forall_not (hfalse : isParameterized t = false)
    (hnone : ∀ name, ¬ EndsInToken t name) : IsReadByLastToken t := by
  refine ⟨iff_of_false (by simp [hfalse]) (by simp [hnone]), fun name => ?_⟩
  rw [trailingParameter, hfalse]
  exact iff_of_false (by simp) (hnone name)

theorem IsReadByLastToken.endsPlainly (h : IsReadByLastToken t) : EndsPlainly t := by
  refine ⟨fun last hlast hbrace => ?_, fun hnil name hends => ?_⟩
  · have htrue := isParameterized_eq hlast
    rw [hbrace] at htrue
    obtain ⟨name, hends⟩ := h.parameterized.1 htrue
    have hne : last ≠ [] := by
      rintro rfl
      cases hbrace
    rw [(endsInToken_iff hlast hne).1 hends, isToken_token]
  · have htrue := h.parameterized.2 ⟨name, hends⟩
    rw [isParameterized_eq hnil] at htrue
    cases htrue

/-- A template is read by its last token if and only if it ends plainly. -/
theorem isReadByLastToken_iff (t : String) : IsReadByLastToken t ↔ EndsPlainly t := by
  refine ⟨IsReadByLastToken.endsPlainly, fun hplain => ?_⟩
  obtain ⟨last, hlast⟩ := exists_getLast?_parts t
  cases htoken : isToken last with
  | true => exact isReadByLastToken_of_isToken hlast htoken
  | false =>
      refine isReadByLastToken_of_forall_not ?_ ?_
      · rw [isParameterized_eq hlast, beq_eq_false_iff_ne]
        intro hbrace
        rw [hplain.brace last hlast hbrace] at htoken
        cases htoken
      · by_cases hnil : last = []
        · exact hplain.slash (hnil ▸ hlast)
        · exact fun name => not_endsInToken_of_literal (getLast?_fullParts hlast hnil) htoken

/-! ## What follows from the last token -/

theorem trailingParameter_eq_none (h : IsReadByLastToken t) (hnone : ∀ name, ¬ EndsInToken t name) :
    trailingParameter t = none := by
  refine Option.eq_none_iff_forall_ne_some.2 fun s hs => ?_
  rw [← String.ofList_toList (s := s)] at hs
  exact hnone _ ((h.parameter _).1 hs)

/-- Templates that differ in empty parts only are read alike. -/
theorem IsReadByLastToken.alike {t' : String} (h : IsReadByLastToken t)
    (h' : IsReadByLastToken t') (hfull : fullParts t' = fullParts t) :
    isParameterized t' = isParameterized t ∧ trailingParameter t' = trailingParameter t := by
  have hends : ∀ name, EndsInToken t' name ↔ EndsInToken t name := fun name => by
    rw [EndsInToken, EndsInToken, hfull]
  refine ⟨Bool.eq_iff_iff.2 ?_, Option.ext fun s => ?_⟩
  · rw [h.parameterized, h'.parameterized, exists_congr hends]
  · rw [← String.ofList_toList (s := s), h.parameter,
      h'.parameter, hends]

/-- A literal that stands last is a segment and no parameter. -/
theorem IsReadByLastToken.of_literal (h : IsReadByLastToken t)
    (hlast : (fullParts t).getLast? = some p) (hp : isToken p = false) :
    isParameterized t = false ∧ trailingParameter t = none ∧ String.ofList p ∈ segments t := by
  have hnone : ∀ name, ¬ EndsInToken t name := fun _ => not_endsInToken_of_literal hlast hp
  refine ⟨?_, trailingParameter_eq_none h hnone, List.mem_map_of_mem (List.mem_filter.2 ?_)⟩
  · rw [← Bool.not_eq_true, h.parameterized]
    exact not_exists.2 hnone
  · exact ⟨List.mem_of_getLast? hlast, by rw [hp]; rfl⟩

/-- A template takes a parameter exactly if it ends in a token, and that one, just where it ends
plainly. There, empty parts make no difference, and a literal that stands last is a segment whatever
characters it has. -/
theorem parameterized_by_last_token_iff (t : String) :
    (IsReadByLastToken t ↔ EndsPlainly t) ∧
    (EndsPlainly t →
      (∀ t', EndsPlainly t' → fullParts t' = fullParts t →
        isParameterized t' = isParameterized t ∧ trailingParameter t' = trailingParameter t) ∧
      ∀ p, (fullParts t).getLast? = some p → isToken p = false →
        isParameterized t = false ∧ trailingParameter t = none ∧
          String.ofList p ∈ segments t) := by
  refine ⟨isReadByLastToken_iff t, fun hplain => ?_⟩
  have hread := (isReadByLastToken_iff t).2 hplain
  refine ⟨fun t' hplain' hfull => ?_, fun p hlast hp => hread.of_literal hlast hp⟩
  exact hread.alike ((isReadByLastToken_iff t').2 hplain') hfull

theorem parameterized_by_last_token_iff_of_users :
    EndsPlainly "/users/\x7bid\x7d" ∧ EndsPlainly "//users//\x7bid\x7d" ∧
    EndsInToken "/users/\x7bid\x7d" ['i', 'd'] ∧
    trailingParameter "//users//\x7bid\x7d" = some "id" := by
  have hplain : EndsPlainly "/users/\x7bid\x7d" :=
    (isReadByLastToken_of_isToken (by decide) (isToken_token ['i', 'd'])).endsPlainly
  have hplain' : EndsPlainly "//users//\x7bid\x7d" :=
    (isReadByLastToken_of_isToken (by decide) (isToken_token ['i', 'd'])).endsPlainly
  have hends : EndsInToken "/users/\x7bid\x7d" ['i', 'd'] := by
    rw [EndsInToken]
    decide
  obtain ⟨hread, halike⟩ := parameterized_by_last_token_iff "/users/\x7bid\x7d"
  have hparameter := ((hread.2 hplain).parameter ['i', 'd']).2 hends
  obtain ⟨-, hsame⟩ := (halike hplain).1 _ hplain' (by decide)
  exact ⟨hplain, hplain', hends, hsame.trans hparameter⟩

/-- A literal that ends in a closing brace is a segment, and a parameter without its first letter
as well. -/
theorem literal_with_brace_is_parameter :
    ¬ IsReadByLastToken "/report.\x7bformat\x7d" ∧
    segments "/report.\x7bformat\x7d" = ["report.\x7bformat\x7d"] ∧
    trailingParameter "/report.\x7bformat\x7d" = some "eport.\x7bformat" := by
  refine ⟨fun hread => ?_, by decide, by decide⟩
  have hlast : (fullParts "/report.\x7bformat\x7d").getLast? =
      some "report.\x7bformat\x7d".toList := by decide
  exact absurd (hread.of_literal hlast (by decide)).1 (by decide)

end ApiOutline.Template
