import ApiOutline.Endpoint
import ApiOutline.Proofs.Pattern.Literal
import ApiOutline.Proofs.Template.Parts

/-!
# What the default rules do to a template

The rules that apply when none are set look for a literal: some whole parts,
and behind them the beginning of one more, which they replace. On the list of
parts this is a change of one part at the first place that fits
(`PartRule.rewrites`), and the place can be told from the parts alone.

Each rule sees what the ones before it have made. That makes no difference for
the default rules, and this carries the module: where one of them fits, no other
one does, and what it writes is neither a part that another one asks for nor the
beginning of one (`PartRule.Apart`). So every rule changes the first place where
it fits in the template as it is written (`PartRule.rewritten_applyRules`), and
a part is changed inside exactly if it is such a place and goes on behind the
literal.
-/

namespace ApiOutline

open Template (parts)

/-- What a rule does to the parts of a template: behind the parts of its context, one that begins
with its literal gets the placeholder for it. A rule that is closed asks for the whole part, and for
another one behind it. -/
structure PartRule where
  context : List (List Char)
  literal : List Char
  placeholder : List Char
  isClosed : Bool
  deriving DecidableEq

namespace PartRule

variable {r s : PartRule} {ps qs before rest : List (List Char)} {p tail : List Char} {i j : Nat}

/-- The text that a rule is about, with a part in the place of its literal. -/
def text (r : PartRule) (part : List Char) : List Char :=
  r.context.flatMap ('/' :: ·) ++ '/' :: part ++ if r.isClosed then ['/'] else []

/-- Whether nothing that a rule is about has a slash in it. -/
structure IsSlashFree (r : PartRule) : Prop where
  context : ∀ p ∈ r.context, '/' ∉ p
  literal : '/' ∉ r.literal
  placeholder : '/' ∉ r.placeholder

instance (r : PartRule) : Decidable r.IsSlashFree :=
  decidable_of_iff ((∀ p ∈ r.context, '/' ∉ p) ∧ '/' ∉ r.literal ∧ '/' ∉ r.placeholder)
    ⟨fun ⟨hcontext, hliteral, hplaceholder⟩ => ⟨hcontext, hliteral, hplaceholder⟩,
      fun h => ⟨h.context, h.literal, h.placeholder⟩⟩

/-- Whether a rule fits at a part of a template. There is at least one part in front of the
context, if only an empty one, since a rule begins with a slash. -/
def FitsAt (r : PartRule) (ps : List (List Char)) (i : Nat) : Prop :=
  ∃ before tail rest, ps = before ++ r.context ++ (r.literal ++ tail) :: rest ∧ before ≠ [] ∧
    (before ++ r.context).length = i ∧ (r.isClosed = true → tail = [] ∧ rest ≠ [])

/-- Whether a part is the first one at which a rule fits. -/
def IsFirstAt (r : PartRule) (ps : List (List Char)) (i : Nat) : Prop :=
  r.FitsAt ps i ∧ ∀ j < i, ¬ r.FitsAt ps j

theorem IsFirstAt.unique (h : r.IsFirstAt ps i) (h' : r.IsFirstAt ps j) : i = j := by
  rcases Nat.lt_trichotomy i j with hlt | heq | hgt
  · exact absurd h.1 (h'.2 i hlt)
  · exact heq
  · exact absurd h'.1 (h.2 j hgt)

/-- The part at which a rule fits begins with its literal, and its context stands in front. -/
theorem FitsAt.exists_part (h : r.FitsAt ps i) :
    ∃ tail, ps[i]? = some (r.literal ++ tail) ∧ r.context <:+ ps.take i := by
  obtain ⟨before, tail, rest, rfl, -, rfl, -⟩ := h
  refine ⟨tail, ?_, ?_⟩
  · rw [List.getElem?_append_right (Nat.le_refl _), Nat.sub_self, List.getElem?_cons_zero]
  · rw [List.take_left]
    exact List.suffix_append _ _

/-- What comes of some parts when a rule has been applied. -/
inductive Rewrites (r : PartRule) (ps : List (List Char)) : List (List Char) → Prop where
  | kept : (∀ i, ¬ r.FitsAt ps i) → Rewrites r ps ps
  | rewritten {i : Nat} {tail : List Char} : r.IsFirstAt ps i → ps[i]? = some (r.literal ++ tail) →
      Rewrites r ps (ps.set i (r.placeholder ++ tail))

/-! ## From texts to parts -/

/-- Where a text has what a rule is about, the parts are those before it, the context, and one that
begins with what stands in the place of the literal. -/
theorem IsSlashFree.exists_parts (h : r.IsSlashFree) (before after : List Char) :
    ∃ tail rest, (r.isClosed = true → tail = [] ∧ rest ≠ []) ∧ ∀ part, '/' ∉ part →
      Text.splitOn '/' (before ++ r.text part ++ after) =
        Text.splitOn '/' before ++ r.context ++ (part ++ tail) :: rest := by
  cases hclosed : r.isClosed with
  | true =>
      refine ⟨[], Text.splitOn '/' after, fun _ => ⟨rfl, Text.splitOn_ne_nil _ _⟩, ?_⟩
      intro part hpart
      have htext : before ++ r.text part ++ after =
          before ++ r.context.flatMap ('/' :: ·) ++ '/' :: (part ++ '/' :: after) := by
        simp [text, hclosed]
      rw [htext, Text.splitOn_append, Text.splitOn_append_flatMap _ h.context,
        Text.splitOn_append_sep hpart, List.append_nil]
  | false =>
      obtain ⟨tail, rest, hafter⟩ := Text.exists_splitOn_eq_cons '/' after
      refine ⟨tail, rest, fun hfalse => absurd hfalse Bool.false_ne_true, fun part hpart => ?_⟩
      have htext : before ++ r.text part ++ after =
          before ++ r.context.flatMap ('/' :: ·) ++ '/' :: (part ++ after) := by
        simp [text, hclosed]
      rw [htext, Text.splitOn_append, Text.splitOn_append_flatMap _ h.context,
        Text.splitOn_append_of_notMem hpart, hafter]
      rfl

/-- Where a rule fits, the text has what it is about. -/
theorem FitsAt.exists_occurrence {t : List Char} (h : r.FitsAt (Text.splitOn '/' t) i) :
    ∃ before after, t = before ++ r.text r.literal ++ after ∧
      (Text.splitOn '/' before).length + r.context.length = i := by
  obtain ⟨before, tail, rest, hparts, hbefore, hi, hclosed⟩ := h
  obtain ⟨b, bs, rfl⟩ := List.exists_cons_of_ne_nil hbefore
  have hfree : ∀ p ∈ b :: bs, '/' ∉ p := fun p hp =>
    Text.not_mem_of_mem_splitOn t (by
      rw [hparts, List.append_assoc]
      exact List.mem_append_left _ hp)
  rw [List.forall_mem_cons] at hfree
  have hcount : (Text.splitOn '/' (b ++ bs.flatMap ('/' :: ·))).length = (b :: bs).length := by
    rw [Text.splitOn_append_flatMap _ hfree.2, Text.splitOn_of_not_mem hfree.1]
    rfl
  have htext := Text.eq_append_of_splitOn hparts
  rw [List.length_append, ← hcount] at hi
  cases hr : r.isClosed with
  | true =>
      obtain ⟨rfl, hrest⟩ := hclosed hr
      obtain ⟨q, qs, rfl⟩ := List.exists_cons_of_ne_nil hrest
      exact ⟨_, q ++ qs.flatMap ('/' :: ·), by rw [htext]; simp [text, hr], hi⟩
  | false => exact ⟨_, tail ++ rest.flatMap ('/' :: ·), by rw [htext]; simp [text, hr], hi⟩

/-- Where a rule fits, it does so no earlier than at the first occurrence of what it is about: in
front of a later one there are at least as many slashes. -/
theorem FitsAt.le_of_isFirst {t before after : List Char} (h : r.FitsAt (Text.splitOn '/' t) j)
    (hfirst : Pattern.IsFirst (r.text r.literal) t before after) :
    (Text.splitOn '/' before).length + r.context.length ≤ j := by
  obtain ⟨before', after', htext, rfl⟩ := h.exists_occurrence
  have hlength := hfirst.first before' after' htext
  have hthere : before <+: t := ⟨_, by rw [hfirst.split, List.append_assoc]⟩
  have hthere' : before' <+: t := ⟨_, by rw [htext, List.append_assoc]⟩
  have hpre := List.prefix_of_prefix_length_le hthere hthere' hlength
  have hcount := hpre.sublist.count_le '/'
  rw [Text.length_splitOn, Text.length_splitOn]
  omega

/-- Replacing the first occurrence of what a rule is about applies the rule to the parts. -/
theorem IsSlashFree.rewrites {t t' : List Char} (h : r.IsSlashFree)
    (hreplaces : Pattern.Replaces (r.text r.literal) (r.text r.placeholder) t t') :
    r.Rewrites (Text.splitOn '/' t) (Text.splitOn '/' t') := by
  cases hreplaces with
  | kept hnone =>
      refine .kept fun i hi => hnone ?_
      obtain ⟨before, after, htext, -⟩ := hi.exists_occurrence
      exact ⟨before, after, htext.symm⟩
  | @replaced before after hfirst =>
      obtain ⟨tail, rest, hclosed, hparts⟩ := h.exists_parts before after
      have hold := hparts r.literal h.literal
      rw [← hfirst.split] at hold
      have hfits : r.FitsAt (Text.splitOn '/' t) (Text.splitOn '/' before ++ r.context).length :=
        ⟨_, tail, rest, hold, Text.splitOn_ne_nil _ _, rfl, hclosed⟩
      have hnone : ∀ j < (Text.splitOn '/' before ++ r.context).length,
          ¬ r.FitsAt (Text.splitOn '/' t) j := by
        intro j hj hfits'
        rw [List.length_append] at hj
        exact Nat.not_le_of_lt hj (hfits'.le_of_isFirst hfirst)
      have hpart : (Text.splitOn '/' t)[(Text.splitOn '/' before ++ r.context).length]? =
          some (r.literal ++ tail) := by
        rw [hold, List.getElem?_append_right (Nat.le_refl _), Nat.sub_self,
          List.getElem?_cons_zero]
      have hset := Rewrites.rewritten ⟨hfits, hnone⟩ hpart
      rwa [hold, List.set_append_right _ _ (Nat.le_refl _), Nat.sub_self, List.set_cons_zero,
        ← hold, ← hparts r.placeholder h.placeholder] at hset

/-! ## Rules that keep apart -/

/-- Whether two rules, the second of them applied after the first, have nothing to do with each
other: what the first replaces or writes is in no context of the second, what it writes is not taken
for the second one's literal, and they fit at no common place. -/
def Apart (r s : PartRule) : Prop :=
  (∀ p ∈ s.context, ¬ r.literal <+: p ∧ ¬ r.placeholder <+: p) ∧
  (¬ s.literal <+: r.placeholder ∧ ¬ r.placeholder <+: s.literal) ∧
  ((¬ r.context <:+ s.context ∧ ¬ s.context <:+ r.context) ∨
    (¬ r.literal <+: s.literal ∧ ¬ s.literal <+: r.literal))

instance (r s : PartRule) : Decidable (r.Apart s) := inferInstanceAs (Decidable (_ ∧ _ ∧ _))

theorem FitsAt.set (h : r.FitsAt ps j) (hne : i ≠ j) (hp : ps[i]? = some p) (hctx : p ∉ r.context)
    (q : List Char) : r.FitsAt (ps.set i q) j := by
  obtain ⟨before, tail, rest, rfl, hbefore, rfl, hclosed⟩ := h
  rcases Nat.lt_or_gt_of_ne hne with hlt | hgt
  · rw [List.set_append_left _ _ hlt]
    by_cases hi : i < before.length
    · rw [List.set_append_left _ _ hi]
      refine ⟨before.set i q, tail, rest, rfl, ?_, ?_, hclosed⟩
      · exact fun hnil => hbefore ((List.set_eq_nil_iff _ _).1 hnil)
      · rw [List.length_append, List.length_append, List.length_set]
    · -- The part would be in the context.
      rw [List.getElem?_append_left hlt, List.getElem?_append_right (Nat.le_of_not_lt hi)] at hp
      exact absurd (List.mem_of_getElem? hp) hctx
  · rw [List.set_append_right _ _ (Nat.le_of_lt hgt)]
    obtain ⟨k, hk⟩ := Nat.exists_eq_add_of_lt (Nat.sub_pos_of_lt hgt)
    rw [Nat.zero_add] at hk
    rw [hk, List.set_cons_succ]
    refine ⟨before, tail, rest.set k q, rfl, hbefore, rfl, fun hr => ?_⟩
    exact ⟨(hclosed hr).1, fun hnil => (hclosed hr).2 ((List.set_eq_nil_iff _ _).1 hnil)⟩

theorem Apart.not_fitsAt (h : r.Apart s) (hr : r.FitsAt ps i) : ¬ s.FitsAt ps i := by
  intro hs
  obtain ⟨tail, hpart, hcontext⟩ := hr.exists_part
  obtain ⟨tail', hpart', hcontext'⟩ := hs.exists_part
  obtain ⟨-, -, hcontexts | hliterals⟩ := h
  · rcases List.suffix_or_suffix_of_suffix hcontext hcontext' with hsuf | hsuf
    · exact hcontexts.1 hsuf
    · exact hcontexts.2 hsuf
  · have heq : r.literal ++ tail = s.literal ++ tail' := Option.some.inj (hpart.symm.trans hpart')
    rcases List.prefix_or_prefix_of_prefix (List.prefix_append r.literal tail)
      (heq ▸ List.prefix_append s.literal tail') with hpre | hpre
    · exact hliterals.1 hpre
    · exact hliterals.2 hpre

/-- What one rule writes does not fit another one. -/
theorem Apart.not_fitsAt_set (h : r.Apart s) (hi : i < ps.length) :
    ¬ s.FitsAt (ps.set i (r.placeholder ++ tail)) i := by
  intro hs
  obtain ⟨tail', hpart, -⟩ := hs.exists_part
  rw [List.getElem?_set_self hi, Option.some.injEq] at hpart
  rcases List.prefix_or_prefix_of_prefix (List.prefix_append r.placeholder tail)
    (hpart ▸ List.prefix_append s.literal tail') with hpre | hpre
  · exact h.2.1.2 hpre
  · exact h.2.1.1 hpre

/-- A rule fits where it did before another one, apart from it, has been applied. -/
theorem Apart.fitsAt_set_iff (h : r.Apart s) (hr : r.FitsAt ps i)
    (hp : ps[i]? = some (r.literal ++ tail)) :
    s.FitsAt (ps.set i (r.placeholder ++ tail)) j ↔ s.FitsAt ps j := by
  obtain ⟨hi, hget⟩ := List.getElem?_eq_some_iff.1 hp
  have hctx : ∀ p ∈ s.context, p ≠ r.literal ++ tail ∧ p ≠ r.placeholder ++ tail := fun p hmem =>
    ⟨fun heq => (h.1 p hmem).1 ⟨tail, heq.symm⟩, fun heq => (h.1 p hmem).2 ⟨tail, heq.symm⟩⟩
  by_cases hij : i = j
  · subst hij
    exact iff_of_false (h.not_fitsAt_set hi) (h.not_fitsAt hr)
  · constructor
    · intro hs
      have hback := hs.set hij (List.getElem?_set_self hi) (fun hmem => (hctx _ hmem).2 rfl)
        (r.literal ++ tail)
      rwa [List.set_set, ← hget, List.set_getElem_self] at hback
    · intro hs
      exact hs.set hij hp (fun hmem => (hctx _ hmem).1 rfl) _

theorem Apart.isFirstAt_set_iff (h : r.Apart s) (hr : r.FitsAt ps i)
    (hp : ps[i]? = some (r.literal ++ tail)) :
    s.IsFirstAt (ps.set i (r.placeholder ++ tail)) j ↔ s.IsFirstAt ps j := by
  unfold IsFirstAt
  simp only [h.fitsAt_set_iff hr hp]

/-! ## Several rules -/

/-- Whether some parts come of others by changing, for each rule, the first part where it fits. -/
structure Rewritten (rs : List PartRule) (ps qs : List (List Char)) : Prop where
  length_eq : qs.length = ps.length
  part : ∀ i p, ps[i]? = some p →
    (∃ r ∈ rs, r.IsFirstAt ps i ∧
      ∃ tail, p = r.literal ++ tail ∧ qs[i]? = some (r.placeholder ++ tail)) ∨
    (∀ r ∈ rs, ¬ r.IsFirstAt ps i) ∧ qs[i]? = some p

theorem rewritten_nil (ps : List (List Char)) : Rewritten [] ps ps :=
  ⟨rfl, fun _ _ hp => Or.inr ⟨fun _ hr => absurd hr List.not_mem_nil, hp⟩⟩

/-- One more rule in front of others that are apart from it. -/
theorem Rewritten.cons {rs : List PartRule} {mid : List (List Char)} (h : Rewritten rs mid qs)
    (hapart : ∀ s ∈ rs, r.Apart s) (hr : r.Rewrites ps mid) : Rewritten (r :: rs) ps qs := by
  cases hr with
  | kept hnone =>
      refine ⟨h.length_eq, fun i p hp => ?_⟩
      rcases h.part i p hp with ⟨s, hs, hfound⟩ | ⟨hnot, hq⟩
      · exact Or.inl ⟨s, List.mem_cons_of_mem _ hs, hfound⟩
      · exact Or.inr ⟨List.forall_mem_cons.2 ⟨fun hfirst => hnone i hfirst.1, hnot⟩, hq⟩
  | @rewritten i tail hfirst hpart =>
      have hi : i < ps.length := (List.getElem?_eq_some_iff.1 hpart).1
      have hsame : ∀ s ∈ rs, ∀ j,
          s.IsFirstAt (ps.set i (r.placeholder ++ tail)) j ↔ s.IsFirstAt ps j :=
        fun s hs j => (hapart s hs).isFirstAt_set_iff hfirst.1 hpart
      refine ⟨h.length_eq.trans (List.length_set ..), fun j p hp => ?_⟩
      by_cases hij : i = j
      · subst hij
        obtain rfl : r.literal ++ tail = p := Option.some.inj (hpart.symm.trans hp)
        rcases h.part i _ (List.getElem?_set_self hi) with ⟨s, hs, hfound, -⟩ | ⟨-, hq⟩
        · exact absurd hfound.1 ((hapart s hs).not_fitsAt_set hi)
        · exact Or.inl ⟨r, List.mem_cons_self, hfirst, tail, rfl, hq⟩
      · have hmid : (ps.set i (r.placeholder ++ tail))[j]? = some p := by
          rw [List.getElem?_set_ne hij, hp]
        rcases h.part j p hmid with ⟨s, hs, hfound, hq⟩ | ⟨hnot, hq⟩
        · exact Or.inl ⟨s, List.mem_cons_of_mem _ hs, (hsame s hs j).1 hfound, hq⟩
        · refine Or.inr ⟨List.forall_mem_cons.2 ⟨fun hr => hij (hfirst.unique hr), ?_⟩, hq⟩
          exact fun s hs hs' => hnot s hs ((hsame s hs j).2 hs')

/-- Whether a rule on texts does to a template what a rule on parts does to its parts. -/
structure Describes (r : PartRule) (rule : Rule) : Prop where
  slashFree : r.IsSlashFree
  pattern : (Pattern.compile rule.pattern).toOption.map Pattern.Compiled.node =
    some (.literal (r.text r.literal))
  replacement : rule.replacement.toList = r.text r.placeholder
  backslash : '\\' ∉ rule.replacement.toList

instance (r : PartRule) (rule : Rule) : Decidable (r.Describes rule) :=
  decidable_of_iff
    (r.IsSlashFree ∧
      (Pattern.compile rule.pattern).toOption.map Pattern.Compiled.node =
        some (.literal (r.text r.literal)) ∧
      rule.replacement.toList = r.text r.placeholder ∧ '\\' ∉ rule.replacement.toList)
    ⟨fun ⟨hfree, hpattern, hreplacement, hplain⟩ => ⟨hfree, hpattern, hreplacement, hplain⟩,
      fun h => ⟨h.slashFree, h.pattern, h.replacement, h.backslash⟩⟩

theorem Describes.rewrites {rule : Rule} (h : r.Describes rule) (t : String) :
    ∃ t', Pattern.replaceFirst rule.pattern rule.replacement t = .ok t' ∧
      r.Rewrites (parts t) (parts t') := by
  obtain ⟨t', hreplace, hreplaces⟩ := Pattern.replaceFirst_literal h.pattern h.backslash t
  rw [h.replacement] at hreplaces
  exact ⟨t', hreplace, h.slashFree.rewrites hreplaces⟩

/-- Rules that keep apart succeed on every template, and each changes the first part where it fits
in the template as it is written. -/
theorem rewritten_applyRules {rs : List PartRule} {rules : List Rule}
    (h : List.Forall₂ Describes rs rules) (hapart : rs.Pairwise Apart) (t : String) :
    ∃ t', Endpoint.applyRules rules t = .ok t' ∧ Rewritten rs (parts t) (parts t') := by
  induction h generalizing t with
  | nil => exact ⟨t, rfl, rewritten_nil _⟩
  | cons hdescribes _ ih =>
      rw [List.pairwise_cons] at hapart
      obtain ⟨mid, hreplace, hrewrites⟩ := hdescribes.rewrites t
      obtain ⟨t', happly, hrewritten⟩ := ih hapart.2 mid
      refine ⟨t', ?_, hrewritten.cons hapart.1 hrewrites⟩
      rw [Endpoint.applyRules, hreplace]
      exact happly

/-! ## The default rules -/

/-- The default rules, in order. -/
def defaults : List PartRule :=
  [⟨["restapi".toList], "v1.0".toList, "\x7bapiVersion\x7d".toList, true⟩,
   ⟨["scim".toList], "v2".toList, "\x7bversion\x7d".toList, false⟩,
   ⟨["team-messaging".toList], "v1".toList, "\x7bversion\x7d".toList, false⟩,
   ⟨["analytics".toList, "calls".toList], "v1".toList, "\x7bversion\x7d".toList, false⟩,
   ⟨["rcvideo".toList], "v1".toList, "\x7bversion\x7d".toList, false⟩,
   ⟨[], ".search".toList, "dotSearch".toList, false⟩]

theorem pairwise_apart_defaults : defaults.Pairwise Apart := by decide

theorem describes_defaults : List.Forall₂ Describes defaults Rule.defaults := by decide +kernel

theorem rewritten_defaults (t : String) :
    ∃ t', Endpoint.applyRules Rule.defaults t = .ok t' ∧ Rewritten defaults (parts t) (parts t') :=
  rewritten_applyRules describes_defaults pairwise_apart_defaults t

/-- Whether every part has either been kept or is the literal of a default rule, behind its
context, and has got the rule's placeholder. -/
def RewritesWholeParts (ps qs : List (List Char)) : Prop :=
  qs.length = ps.length ∧ ∀ i p q, ps[i]? = some p → qs[i]? = some q →
    p = q ∨ ∃ r ∈ defaults, p = r.literal ∧ q = r.placeholder ∧ r.context <:+ ps.take i

/-- No default rule's literal and placeholder go on, with the same characters, as those of another
one. -/
theorem eq_nil_of_mem_defaults (hr : r ∈ defaults) (hs : s ∈ defaults)
    (hliteral : s.literal = r.literal ++ tail)
    (hplaceholder : s.placeholder = r.placeholder ++ tail) : tail = [] := by
  have hall : ∀ r ∈ defaults, ∀ s ∈ defaults, r.literal <+: s.literal →
      r.placeholder <+: s.placeholder → r.literal = s.literal := by decide
  have heq := hall r hr s hs ⟨tail, hliteral.symm⟩ ⟨tail, hplaceholder.symm⟩
  rw [← heq] at hliteral
  exact List.self_eq_append_right.1 hliteral

/-- Two default rules do not fit at one part. -/
theorem eq_of_fitsAt (hr : r ∈ defaults) (hs : s ∈ defaults) (hfits : r.FitsAt ps i)
    (hfits' : s.FitsAt ps i) : r = s := by
  have hall : ∀ r ∈ defaults, ∀ s ∈ defaults, r = s ∨ r.Apart s ∨ s.Apart r := by decide
  rcases hall r hr s hs with heq | hapart | hapart
  · exact heq
  · exact absurd hfits' (hapart.not_fitsAt hfits)
  · exact absurd hfits (hapart.not_fitsAt hfits')

theorem literal_append_ne_placeholder (hr : r ∈ defaults) :
    r.literal ++ tail ≠ r.placeholder ++ tail := by
  have hall : ∀ r ∈ defaults, r.literal ≠ r.placeholder := by decide
  exact fun heq => hall r hr (List.append_cancel_right heq)

end PartRule

open PartRule (RewritesWholeParts defaults)

/-- The default rules succeed on every template and change, one by one, the first part behind their
context that begins with their literal. Only whole parts are replaced exactly if each of these first
parts is the literal and nothing more. -/
theorem default_rules_rewrite_whole_parts_iff (t : String) :
    ∃ t', Endpoint.applyRules Rule.defaults t = .ok t' ∧
      PartRule.Rewritten defaults (parts t) (parts t') ∧
      (RewritesWholeParts (parts t) (parts t') ↔
        ∀ r ∈ defaults, ∀ i, r.IsFirstAt (parts t) i → (parts t)[i]? = some r.literal) := by
  obtain ⟨t', happly, hrewritten⟩ := PartRule.rewritten_defaults t
  refine ⟨t', happly, hrewritten, ?_⟩
  constructor
  · rintro ⟨-, hwhole⟩ r hr i hfirst
    obtain ⟨tail, hp, -⟩ := hfirst.1.exists_part
    rcases hrewritten.part i _ hp with ⟨s, hs, hfirst', tail', heq, hq⟩ | ⟨hnot, -⟩
    · obtain rfl := PartRule.eq_of_fitsAt hr hs hfirst.1 hfirst'.1
      obtain rfl := List.append_cancel_left heq
      rcases hwhole i _ _ hp hq with hsame | ⟨s, hs, hliteral, hplaceholder, -⟩
      · exact absurd hsame (PartRule.literal_append_ne_placeholder hr)
      · rw [PartRule.eq_nil_of_mem_defaults hr hs hliteral.symm hplaceholder.symm,
          List.append_nil] at hp
        exact hp
    · exact absurd hfirst (hnot r hr)
  · intro hall
    refine ⟨hrewritten.length_eq, fun i p q hp hq => ?_⟩
    rcases hrewritten.part i p hp with ⟨r, hr, hfirst, tail, rfl, hq'⟩ | ⟨-, hq'⟩
    · obtain ⟨-, -, hcontext⟩ := hfirst.1.exists_part
      have hliteral := Option.some.inj (hp.symm.trans (hall r hr i hfirst))
      obtain rfl := List.append_right_eq_self.1 hliteral
      rw [List.append_nil] at hq' ⊢
      exact Or.inr ⟨r, hr, rfl, Option.some.inj (hq.symm.trans hq'), hcontext⟩
    · exact Or.inl (Option.some.inj (hq'.symm.trans hq))

/-- A version that goes on is rewritten inside its part. -/
theorem longer_version_rewritten_inside :
    Endpoint.applyRules Rule.defaults "/scim/v2beta" = .ok "/scim/\x7bversion\x7dbeta" ∧
    ¬ RewritesWholeParts (parts "/scim/v2beta") (parts "/scim/\x7bversion\x7dbeta") := by
  refine ⟨by decide +kernel, ?_⟩
  rintro ⟨-, hwhole⟩
  have hnone : ∀ r ∈ defaults, "v2beta".toList ≠ r.literal := by decide
  rcases hwhole 2 "v2beta".toList "\x7bversion\x7dbeta".toList (by decide) (by decide) with
    hsame | ⟨r, hr, hliteral, -⟩
  · exact absurd hsame (by decide)
  · exact hnone r hr hliteral

end ApiOutline
