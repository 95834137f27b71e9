import ApiOutline.Proofs.Yaml.Lexer
import ApiOutline.Yaml.Node

/-!
# Why reading nodes stops

The reader of nodes knows two reasons to fail: the tokens break the grammar, or
they end where the lexer stopped (`KeepsStop`). Every combination of readers
with these reasons has no others, so there is a short lemma for each reader; the
induction is on the fuel, over all constructs at once.
-/

namespace ApiOutline.Yaml.Node

namespace Reader

variable {α β : Type} {x y : Reader α}

/-- A reader that leaves what stopped the lexer as it is, and fails only with that or because the
grammar is broken. -/
def KeepsStop (x : Reader α) : Prop :=
  ∀ r, match x.run r with
    | .ok (_, after) => after.stop = r.stop
    | .error e => e = .malformed ∨ r.stop = some e

namespace KeepsStop

theorem pure (a : α) : KeepsStop (Pure.pure a : Reader α) := fun _ => rfl

theorem malformed : KeepsStop (throw .malformed : Reader α) := fun _ => .inl rfl

theorem bind {f : α → Reader β} (hx : KeepsStop x) (hf : ∀ a, KeepsStop (f a)) :
    KeepsStop (x >>= f) := by
  intro r
  have hfirst := hx r
  rw [StateT.run_bind]
  cases hrun : x.run r with
  | error e =>
      rw [hrun] at hfirst
      exact hfirst
  | ok found =>
      obtain ⟨a, after⟩ := found
      rw [hrun] at hfirst
      have hnext := hf a after
      simp only [] at hfirst
      rw [hfirst] at hnext
      exact hnext

theorem error {r : Reading} {e : Error} (hx : KeepsStop x) (h : x.run r = .error e) :
    e = .malformed ∨ r.stop = some e := by
  have hrun := hx r
  rw [h] at hrun
  exact hrun

theorem get : KeepsStop (get : Reader Reading) := fun _ => rfl

theorem modify {f : Reading → Reading} (h : ∀ r, (f r).stop = r.stop) :
    KeepsStop (modify f : Reader PUnit) := h

theorem ite {p : Prop} [Decidable p] (hx : KeepsStop x) (hy : KeepsStop y) :
    KeepsStop (if p then x else y) := by
  split
  · exact hx
  · exact hy

/-- What follows a step that is only taken sometimes. -/
theorem afterOptional {p : Prop} [Decidable p] {x : Reader PUnit} {f : PUnit → Reader β}
    (hx : KeepsStop x) (hf : ∀ u, KeepsStop (f u)) :
    KeepsStop (if p then x >>= f else f ⟨⟩) :=
  .ite (hx.bind hf) (hf ⟨⟩)

end KeepsStop

theorem keepsStop_peek : KeepsStop peek := by
  rintro ⟨tokens, stop, handles, named, fresh, loops⟩
  cases tokens with
  | cons t rest => rfl
  | nil =>
      cases stop with
      | none => rfl
      | some e => exact .inr rfl

theorem keepsStop_sees (p : Token → Bool) : KeepsStop (sees p) :=
  keepsStop_peek.bind fun _ => .pure _

theorem keepsStop_skip : KeepsStop skip := .modify fun _ => rfl

theorem keepsStop_accept (t : Token) : KeepsStop (accept t) := by
  refine (keepsStop_sees _).bind fun seen => .ite ?_ (.pure _)
  exact keepsStop_skip.bind fun _ => .pure _

theorem keepsStop_expect (t : Token) : KeepsStop (expect t) := by
  refine (keepsStop_accept t).bind fun accepted => ?_
  exact .ite .malformed (.pure _)

theorem keepsStop_anchor? : KeepsStop anchor? := by
  refine keepsStop_peek.bind fun t => ?_
  split
  · exact keepsStop_skip.bind fun _ => .pure _
  · exact .pure _

theorem keepsStop_tag? : KeepsStop tag? := by
  refine keepsStop_peek.bind fun t => ?_
  split
  · refine keepsStop_skip.bind fun _ => ?_
    split
    · exact .pure _
    · refine KeepsStop.get.bind fun r => ?_
      split
      · exact .pure _
      · exact .malformed
  · exact .pure _

theorem keepsStop_properties : KeepsStop properties := by
  refine keepsStop_anchor?.bind fun name => ?_
  split
  · exact keepsStop_tag?.bind fun _ => .pure _
  · exact keepsStop_tag?.bind fun _ => keepsStop_anchor?.bind fun _ => .pure _

theorem keepsStop_reserve (name : Option String) : KeepsStop (reserve name) := by
  unfold reserve
  split
  · exact .pure _
  · exact KeepsStop.get.bind fun _ => .ite .malformed (.modify fun _ => rfl)

theorem keepsStop_complete (name : Option String) (node : Node) :
    KeepsStop (complete name node) := by
  unfold complete
  split
  · exact .pure _
  · exact .bind (.modify fun _ => rfl) fun _ => .pure _

theorem keepsStop_named (name : String) : KeepsStop (named name) := by
  refine KeepsStop.get.bind fun r => ?_
  split
  · exact .malformed
  · exact .pure _
  · exact .bind (.modify fun _ => rfl) fun _ => .pure _

theorem keepsStop_number : KeepsStop number :=
  KeepsStop.get.bind fun _ => .bind (.modify fun _ => rfl) fun _ => .pure _

/-- That all constructs are read so, with some fuel. -/
structure ConstructsKeepStop (fuel : Nat) : Prop where
  nodeUnless : ∀ isEmpty inBlock indentless,
    KeepsStop (nodeUnless fuel isEmpty inBlock indentless)
  node : ∀ inBlock indentless, KeepsStop (node fuel inBlock indentless)
  blockItems : KeepsStop (blockItems fuel)
  indentlessItems : KeepsStop (indentlessItems fuel)
  blockMembers : KeepsStop (blockMembers fuel)
  valueIf : ∀ isEmpty inBlock indentless, KeepsStop (valueIf fuel isEmpty inBlock indentless)
  flowItems : ∀ isFirst, KeepsStop (flowItems fuel isFirst)
  flowMembers : ∀ isFirst, KeepsStop (flowMembers fuel isFirst)

namespace ConstructsKeepStop

variable {fuel : Nat} (ih : ConstructsKeepStop fuel)

include ih

theorem nodeUnless_succ (isEmpty : Token → Bool) (inBlock indentless : Bool) :
    KeepsStop (Reader.nodeUnless (fuel + 1) isEmpty inBlock indentless) := by
  rw [Reader.nodeUnless]
  exact (keepsStop_sees _).bind fun _ => .ite (.pure _) (ih.node _ _)

theorem node_succ (inBlock indentless : Bool) :
    KeepsStop (Reader.node (fuel + 1) inBlock indentless) := by
  rw [Reader.node]
  refine keepsStop_peek.bind fun t => ?_
  split
  · exact keepsStop_skip.bind fun _ => keepsStop_named _
  · refine keepsStop_properties.bind fun found => ?_
    obtain ⟨name, address⟩ := found
    have hplain (made : Node) : KeepsStop (do
        reserve name
        complete name made) :=
      (keepsStop_reserve name).bind fun _ => keepsStop_complete name _
    have hsequence {items : Reader (List Node)} (hitems : KeepsStop items) : KeepsStop (do
        reserve name
        complete name (.sequence (collectionTag address .seq) (← items))) :=
      (keepsStop_reserve name).bind fun _ => hitems.bind fun _ => keepsStop_complete name _
    have hmapping {members : Reader (List (Node × Node))} (hmembers : KeepsStop members) :
        KeepsStop (do
          reserve name
          let n ← number
          complete name (.mapping (collectionTag address .map) n (← members))) :=
      (keepsStop_reserve name).bind fun _ => keepsStop_number.bind fun _ =>
        hmembers.bind fun _ => keepsStop_complete name _
    refine keepsStop_peek.bind fun t => ?_
    split
    · refine .ite (hsequence ih.indentlessItems) (.ite .malformed (hplain _))
    · exact keepsStop_skip.bind fun _ => hplain _
    · exact keepsStop_skip.bind fun _ => hsequence (ih.flowItems _)
    · exact keepsStop_skip.bind fun _ => hmapping (ih.flowMembers _)
    · refine .ite (keepsStop_skip.bind fun _ => hsequence ih.blockItems) ?_
      refine .ite (keepsStop_skip.bind fun _ => hmapping ih.blockMembers) ?_
      exact .ite .malformed (hplain _)

theorem blockItems_succ : KeepsStop (Reader.blockItems (fuel + 1)) := by
  rw [Reader.blockItems]
  refine (keepsStop_accept _).bind fun _ => .ite ?_ ?_
  · exact (ih.nodeUnless _ _ _).bind fun _ => ih.blockItems.bind fun _ => .pure _
  · exact (keepsStop_expect _).bind fun _ => .pure _

theorem indentlessItems_succ : KeepsStop (Reader.indentlessItems (fuel + 1)) := by
  rw [Reader.indentlessItems]
  refine (keepsStop_accept _).bind fun _ => .ite ?_ (.pure _)
  exact (ih.nodeUnless _ _ _).bind fun _ => ih.indentlessItems.bind fun _ => .pure _

theorem blockMembers_succ : KeepsStop (Reader.blockMembers (fuel + 1)) := by
  rw [Reader.blockMembers]
  refine (keepsStop_accept _).bind fun _ => .ite ?_ ?_
  · exact (ih.nodeUnless _ _ _).bind fun _ => (ih.valueIf _ _ _).bind fun _ =>
      ih.blockMembers.bind fun _ => .pure _
  · exact (keepsStop_expect _).bind fun _ => .pure _

theorem valueIf_succ (isEmpty : Token → Bool) (inBlock indentless : Bool) :
    KeepsStop (Reader.valueIf (fuel + 1) isEmpty inBlock indentless) := by
  rw [Reader.valueIf]
  exact (keepsStop_accept _).bind fun _ => .ite (ih.nodeUnless _ _ _) (.pure _)

theorem flowItems_succ (isFirst : Bool) : KeepsStop (Reader.flowItems (fuel + 1) isFirst) := by
  rw [Reader.flowItems]
  refine (keepsStop_accept _).bind fun _ => .ite (.pure _) ?_
  refine .afterOptional (keepsStop_expect _) fun _ => ?_
  refine (keepsStop_accept _).bind fun _ => .ite ?_ ?_
  · exact keepsStop_number.bind fun _ => (ih.nodeUnless _ _ _).bind fun _ =>
      (ih.valueIf _ _ _).bind fun _ => (ih.flowItems _).bind fun _ => .pure _
  · refine (keepsStop_accept _).bind fun _ => .ite (.pure _) ?_
    exact (ih.node _ _).bind fun _ => (ih.flowItems _).bind fun _ => .pure _

theorem flowMembers_succ (isFirst : Bool) :
    KeepsStop (Reader.flowMembers (fuel + 1) isFirst) := by
  rw [Reader.flowMembers]
  refine (keepsStop_accept _).bind fun _ => .ite (.pure _) ?_
  refine .afterOptional (keepsStop_expect _) fun _ => ?_
  refine (keepsStop_accept _).bind fun _ => .ite ?_ ?_
  · exact (ih.nodeUnless _ _ _).bind fun _ => (ih.valueIf _ _ _).bind fun _ =>
      (ih.flowMembers _).bind fun _ => .pure _
  · refine (keepsStop_accept _).bind fun _ => .ite (.pure _) ?_
    exact (ih.node _ _).bind fun _ => (ih.flowMembers _).bind fun _ => .pure _

end ConstructsKeepStop

theorem constructsKeepStop (fuel : Nat) : ConstructsKeepStop fuel := by
  induction fuel with
  | zero =>
      exact ⟨fun _ _ _ => .malformed, fun _ _ => .malformed, .malformed, .malformed, .malformed,
        fun _ _ _ => .malformed, fun _ => .malformed, fun _ => .malformed⟩
  | succ fuel ih =>
      exact ⟨ih.nodeUnless_succ, ih.node_succ, ih.blockItems_succ, ih.indentlessItems_succ,
        ih.blockMembers_succ, ih.valueIf_succ, ih.flowItems_succ, ih.flowMembers_succ⟩

theorem keepsStop_directives (fuel : Nat) (hasVersion : Bool) (handles : List (String × String)) :
    KeepsStop (directives fuel hasVersion handles) := by
  induction fuel generalizing hasVersion handles with
  | zero => exact .malformed
  | succ fuel ih =>
      rw [directives]
      refine keepsStop_peek.bind fun t => ?_
      split
      · exact keepsStop_skip.bind fun _ => .ite .malformed (ih _ _)
      · exact keepsStop_skip.bind fun _ => .ite .malformed (ih _ _)
      · exact keepsStop_skip.bind fun _ => ih _ _
      · exact .pure _

theorem keepsStop_skipEnds (fuel : Nat) : KeepsStop (skipEnds fuel) := by
  induction fuel with
  | zero => exact .pure _
  | succ fuel ih =>
      rw [skipEnds]
      exact (keepsStop_accept _).bind fun _ => .ite ih (.pure _)

theorem keepsStop_document (fuel : Nat) : KeepsStop (document fuel) := by
  unfold document
  refine keepsStop_peek.bind fun first => .ite (.pure _) ?_
  extract_lets finish
  have hfinish (root : Node) : KeepsStop (finish root) := by
    refine (keepsStop_skipEnds fuel).bind fun _ => keepsStop_peek.bind fun t => ?_
    split
    · exact .pure _
    · exact .malformed
  have hnode := ((constructsKeepStop fuel).node true false).bind hfinish
  refine .ite ?_ hnode
  refine (keepsStop_directives fuel false []).bind fun handles => ?_
  refine .bind (.modify fun _ => rfl) fun _ => ?_
  refine (keepsStop_expect _).bind fun _ => keepsStop_peek.bind fun t => ?_
  split
  · exact (KeepsStop.pure empty).bind hfinish
  · exact .ite ((KeepsStop.pure empty).bind hfinish) hnode

end Reader

/-- If a text has no tree of nodes, then because the grammar is broken or because the lexer
stopped. -/
theorem error_of_ofText {text : String} {e : Error} (h : ofText text = .error e) :
    e = .malformed ∨ (Token.ofText text.toList).2 = some e := by
  unfold ofText at h
  simp only [] at h
  split at h
  · next e' hrun =>
      cases h
      exact (Reader.keepsStop_document _).error hrun
  · cases h

end ApiOutline.Yaml.Node
