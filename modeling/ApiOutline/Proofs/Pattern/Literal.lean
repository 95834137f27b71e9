import Mathlib.Data.List.Basic
import ApiOutline.Pattern.Replace

/-!
# Literal patterns

A pattern of nothing but characters matches a text where its characters stand
next to each other, and the match is that text. So the search for it is a
search for a first occurrence (`replaceFirst_literal`): whatever the engine
does with repetitions, groups and switches, here it goes over a text from left
to right and stops at the first place where all the characters are.

That no place before is an occurrence is said by lengths: the text in front of
any other occurrence is at least as long (`IsFirst`).
-/

namespace ApiOutline.Pattern

variable {cs text before after : List Char}

/-- The pattern of some characters one after the other. -/
def Node.literal : List Char → Node
  | [] => .empty
  | [c] => .one (.char c) {}
  | c :: rest => .seq (.one (.char c) {}) (literal rest)

/-! ## Matching -/

theorem run_char (c : Char) (before text : List Char) (k : Rest) :
    (Node.one (.char c) {}).run ⟨before, text, []⟩ k =
      match text with
      | [] => none
      | x :: rest => if x = c then k ⟨x :: before, rest, []⟩ else none := by
  cases text with
  | nil => rfl
  | cons x rest => simp [Node.run, Cursor.step?, CharTest.holds]

/-- A literal is its first character and the literal of the others, also where there is just one. -/
theorem run_literal_cons (c : Char) (rest before text : List Char) (k : Rest) :
    (Node.literal (c :: rest)).run ⟨before, text, []⟩ k =
      (Node.one (.char c) {}).run ⟨before, text, []⟩
        fun place => (Node.literal rest).run place k := by
  cases rest with
  | nil => rfl
  | cons d rest => rfl

/-- A literal goes over its characters where they come next, and nowhere else. -/
theorem run_literal (cs before text : List Char) (k : Rest) :
    (Node.literal cs).run ⟨before, text, []⟩ k =
      if cs <+: text then k ⟨cs.reverse ++ before, text.drop cs.length, []⟩ else none := by
  induction cs generalizing before text with
  | nil => simp [Node.literal, Node.run]
  | cons c rest ih =>
      rw [run_literal_cons, run_char]
      cases text with
      | nil => simp
      | cons x text =>
          by_cases hx : x = c
          · subst hx
            simp only [if_true, ih, List.prefix_cons_inj, List.reverse_cons, List.append_assoc,
              List.singleton_append, List.length_cons, List.drop_succ_cons]
          · have hne : ¬ c :: rest <+: x :: text := fun h => hx (List.cons_prefix_cons.1 h).1.symm
            simp only [hx, hne, if_false]

theorem matchAt_literal (cs before text : List Char) :
    (Node.literal cs).matchAt before text =
      if cs <+: text then some ⟨before.reverse, cs, text.drop cs.length, []⟩ else none := by
  rw [Node.matchAt, run_literal]
  split
  · simp [Cursor.since]
  · rfl

/-! ## Searching -/

/-- Some characters stand in a text behind others, and nowhere before. -/
structure IsFirst (cs text before after : List Char) : Prop where
  split : text = before ++ cs ++ after
  first : ∀ earlier rest, text = earlier ++ cs ++ rest → before.length ≤ earlier.length

theorem IsFirst.atStart (h : cs <+: text) : IsFirst cs text [] (text.drop cs.length) := by
  obtain ⟨after, rfl⟩ := h
  exact ⟨by simp, fun _ _ _ => Nat.zero_le _⟩

theorem IsFirst.cons {x : Char} (hx : ¬ cs <+: x :: text) (h : IsFirst cs text before after) :
    IsFirst cs (x :: text) (x :: before) after := by
  refine ⟨by rw [h.split]; rfl, fun earlier rest heq => ?_⟩
  cases earlier with
  | nil => exact absurd ⟨rest, heq.symm⟩ hx
  | cons y earlier =>
      injection heq with _ heq
      exact Nat.succ_le_succ (h.first earlier rest heq)

/-- A search for a literal, `passed` being what it has gone over, nearest first, stops at the first
occurrence of its characters, or there is none. -/
theorem searchFrom_literal (cs passed text : List Char) :
    (∃ before after, IsFirst cs text before after ∧
      (Node.literal cs).searchFrom passed text = some ⟨passed.reverse ++ before, cs, after, []⟩) ∨
    ¬ cs <:+: text ∧ (Node.literal cs).searchFrom passed text = none := by
  induction text generalizing passed with
  | nil =>
      rw [Node.searchFrom, matchAt_literal]
      by_cases h : cs <+: []
      · exact Or.inl ⟨[], _, .atStart h, by rw [if_pos h, List.append_nil]⟩
      · exact Or.inr ⟨fun hin => h (List.infix_nil.1 hin ▸ List.nil_prefix), if_neg h⟩
  | cons x text ih =>
      rw [Node.searchFrom, matchAt_literal]
      by_cases h : cs <+: x :: text
      · exact Or.inl ⟨[], _, .atStart h, by rw [if_pos h, List.append_nil]; rfl⟩
      · rw [if_neg h, Option.none_or]
        rcases ih (x :: passed) with ⟨before, after, hfirst, hsearch⟩ | ⟨hnone, hsearch⟩
        · refine Or.inl ⟨x :: before, after, hfirst.cons h, ?_⟩
          rw [hsearch, List.reverse_cons, List.append_assoc, List.singleton_append]
        · refine Or.inr ⟨fun hin => ?_, hsearch⟩
          rcases List.infix_cons_iff.1 hin with hpre | hin
          · exact h hpre
          · exact hnone hin

/-! ## Replacing -/

/-- A replacement without a backslash stands for itself. -/
theorem pieces_of_notMem (p : Compiled) {fuel : Nat} (h : '\\' ∉ cs) (hfuel : cs.length < fuel) :
    pieces p fuel cs = .ok (cs.map fun c => .text [c]) := by
  induction cs generalizing fuel with
  | nil =>
      obtain ⟨n, rfl⟩ := Nat.exists_eq_add_of_lt hfuel
      rfl
  | cons c rest ih =>
      rw [List.mem_cons, not_or] at h
      cases fuel with
      | zero => cases hfuel
      | succ fuel =>
          rw [pieces, if_neg (Ne.symm h.1), ih h.2 (Nat.lt_of_succ_lt_succ hfuel)]
          rfl

theorem flatMap_expand_map_text (m : Match) (cs : List Char) :
    (cs.map fun c => Piece.text [c]).flatMap (Piece.expand m) = cs := by
  induction cs with
  | nil => rfl
  | cons c cs ih => rw [List.map_cons, List.flatMap_cons, ih]; rfl

/-- What comes of a text when the first occurrence of some characters, if there is one, is
replaced. -/
inductive Replaces (cs written text : List Char) : List Char → Prop where
  | kept : ¬ cs <:+: text → Replaces cs written text text
  | replaced {before after : List Char} :
      IsFirst cs text before after → Replaces cs written text (before ++ written ++ after)

/-- The first match of a literal pattern is the first occurrence of its characters. -/
theorem replaceFirst_literal {pattern replacement : String}
    (hp : (compile pattern).toOption.map Compiled.node = some (.literal cs))
    (hr : '\\' ∉ replacement.toList) (t : String) :
    ∃ t', replaceFirst pattern replacement t = .ok t' ∧
      Replaces cs replacement.toList t.toList t'.toList := by
  cases hcompile : compile pattern with
  | error e =>
      rw [hcompile] at hp
      cases hp
  | ok p =>
      rw [hcompile] at hp
      have hnode : p.node = .literal cs := Option.some.inj hp
      have hpieces := pieces_of_notMem p hr (Nat.lt_succ_self _)
      simp only [replaceFirst, hcompile, compileReplacement, hpieces, hnode, Node.search]
      rcases searchFrom_literal cs [] t.toList with
        ⟨before, after, hfirst, hsearch⟩ | ⟨hnone, hsearch⟩
      · refine ⟨_, by rw [hsearch], ?_⟩
        rw [String.toList_ofList, Match.replaced, flatMap_expand_map_text]
        exact .replaced hfirst
      · exact ⟨t, by rw [hsearch], .kept hnone⟩

end ApiOutline.Pattern
