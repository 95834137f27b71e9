import ApiOutline.Proofs.Endpoint.Rewriting
import ApiOutline.Proofs.Template.Closing

/-!
# Versions that rules have replaced

A rule that writes a token where the template ends has replaced the whole last
part: had anything been left behind the literal, the template would end as it
did before. So the part in front of the token is the last one of the rule's
context, which no rule changes, and that is the segment by which the default
value is looked up. The table of versions has been made for this: it gives for
each such segment the literal that the rule asks for
(`PartRule.version_of_mem_defaults`).
-/

namespace ApiOutline

open Template (parts fullParts isToken inner ClosesWith)

namespace PartRule

variable {rs : List PartRule} {r : PartRule} {ps qs : List (List Char)} {p q c : List Char}
  {i : Nat}

/-- A rule that fits at the last part does not ask for another one behind it. -/
theorem FitsAt.exists_last (h : r.FitsAt ps (ps.length - 1)) :
    r.isClosed = false ∧
      ∃ before tail, ps = before ++ r.context ++ [r.literal ++ tail] := by
  obtain ⟨before, tail, rest, hps, -, hi, hclosed⟩ := h
  have hrest : rest = [] := by
    rw [hps] at hi
    simp only [List.length_append, List.length_cons] at hi
    exact List.length_eq_zero_iff.1 (by omega)
  subst hrest
  refine ⟨?_, before, tail, hps⟩
  cases hr : r.isClosed with
  | false => rfl
  | true => exact absurd rfl (hclosed hr).2

/-- Where the last part has got another end, it was the literal of a rule and is its placeholder. -/
theorem Rewritten.exists_last (h : Rewritten rs ps qs) (hp : ps.getLast? = some p)
    (hq : qs.getLast? = some q) (hne : p.getLast? ≠ q.getLast?) :
    ∃ r ∈ rs, r.isClosed = false ∧ p = r.literal ∧ q = r.placeholder ∧
      ∃ before, ps = before ++ r.context ++ [p] := by
  rw [List.getLast?_eq_getElem?] at hp hq
  rw [h.length_eq] at hq
  rcases h.part _ p hp with ⟨r, hr, hfirst, tail, rfl, hq'⟩ | ⟨-, hq'⟩
  · obtain rfl : r.placeholder ++ tail = q := Option.some.inj (hq'.symm.trans hq)
    obtain rfl : tail = [] := by
      by_contra htail
      rw [List.getLast?_append_of_ne_nil _ htail, List.getLast?_append_of_ne_nil _ htail] at hne
      exact hne rfl
    obtain ⟨hopen, before, tail, hps⟩ := hfirst.1.exists_last
    have hlast : r.literal ++ [] = r.literal ++ tail := by
      rw [← List.getLast?_eq_getElem?, hps, List.getLast?_concat] at hp
      exact (Option.some.inj hp).symm
    refine ⟨r, hr, hopen, List.append_nil _, List.append_nil _, before, ?_⟩
    rw [hps, hlast]
  · exact absurd (congrArg List.getLast? (Option.some.inj (hq.symm.trans hq'))).symm hne

theorem Rewritten.kept (h : Rewritten rs ps qs) (hp : ps[i]? = some p)
    (hnot : ∀ r ∈ rs, ¬ r.literal <+: p) : qs[i]? = some p := by
  rcases h.part i p hp with ⟨r, hr, -, tail, heq, -⟩ | ⟨-, hq⟩
  · exact absurd ⟨tail, heq.symm⟩ (hnot r hr)
  · exact hq

/-- The part in front of a last one that has been replaced is still there. -/
theorem Rewritten.exists_pair (h : Rewritten rs ps qs) (hq : qs.getLast? = some q)
    {before : List (List Char)} (hps : ps = before ++ r.context ++ [p])
    (hc : r.context.getLast? = some c) (hnot : ∀ r ∈ rs, ¬ r.literal <+: c) :
    ∃ init, qs = init ++ [c, q] := by
  obtain ⟨init, hinit⟩ := List.getLast?_eq_some_iff.1 hc
  have hpc : ps[(before ++ init).length]? = some c := by
    rw [hps, hinit]
    simp
  have hqc := h.kept hpc hnot
  obtain ⟨rest, hrest⟩ := List.getLast?_eq_some_iff.1 hq
  have hlength : rest.length = (before ++ init).length + 1 := by
    have hboth := h.length_eq
    rw [hps, hinit, hrest] at hboth
    simp only [List.length_append, List.length_singleton] at hboth ⊢
    omega
  have hrestc : rest.getLast? = some c := by
    rw [hrest, List.getElem?_append_left (by omega)] at hqc
    rw [List.getLast?_eq_getElem?, hlength, Nat.add_sub_cancel, hqc]
  obtain ⟨init', rfl⟩ := List.getLast?_eq_some_iff.1 hrestc
  exact ⟨init', by rw [hrest, List.append_assoc, List.singleton_append]⟩

/-- What a default rule replaces by something that ends in a closing brace is the version by the
segment in front. -/
theorem version_of_mem_defaults (hr : r ∈ defaults) (hopen : r.isClosed = false)
    (hbrace : r.placeholder.getLast? = some '\x7d') :
    isToken r.placeholder = true ∧ ∃ c ∈ r.context.getLast?, c ≠ [] ∧ isToken c = false ∧
      (∀ s ∈ defaults, ¬ s.literal <+: c) ∧
      Conventions.defaultVersions.lookup (String.ofList c) = some (String.ofList r.literal) := by
  have hall : ∀ r ∈ defaults, r.isClosed = false → r.placeholder.getLast? = some '\x7d' →
      isToken r.placeholder = true ∧ ∃ c ∈ r.context.getLast?, c ≠ [] ∧ isToken c = false ∧
        (∀ s ∈ defaults, ¬ s.literal <+: c) ∧
        Conventions.defaultVersions.lookup (String.ofList c) = some (String.ofList r.literal) := by
    decide
  exact hall r hr hopen hbrace

end PartRule

/-- A template with a parameter from a default rule closes with one token, behind a segment whose
version is the last part that the template had before. -/
theorem Endpoint.exists_version {e : Endpoint}
    (h : PartRule.Rewritten PartRule.defaults (parts e.raw) (parts e.template))
    (hrule : e.isFromRule = true) :
    ∃ last c name, (parts e.raw).getLast? = some last ∧ ClosesWith e.template c [name] ∧
      Conventions.defaultVersions.lookup (String.ofList c) = some (String.ofList last) := by
  obtain ⟨p, hp⟩ := Template.exists_getLast?_parts e.raw
  obtain ⟨q, hq⟩ := Template.exists_getLast?_parts e.template
  rw [isFromRule, isParameterized, Template.isParameterized_eq hq, Template.isParameterized_eq hp,
    Bool.and_eq_true, Bool.not_eq_true', beq_iff_eq, beq_eq_false_iff_ne] at hrule
  obtain ⟨hbrace, hnobrace⟩ := hrule
  obtain ⟨r, hr, hopen, rfl, rfl, before, hps⟩ :=
    h.exists_last hp hq fun heq => hnobrace (heq.trans hbrace)
  obtain ⟨htoken, c, hc, hne, hliteral, hnot, hversion⟩ :=
    PartRule.version_of_mem_defaults hr hopen hbrace
  obtain ⟨init, hinit⟩ := h.exists_pair hq hps hc hnot
  refine ⟨r.literal, c, inner r.placeholder, hp, ⟨init.filter fun p => !p.isEmpty, ?_, hliteral⟩,
    hversion⟩
  have hplaceholder : r.placeholder ≠ [] := by
    intro hnil
    rw [hnil] at hbrace
    cases hbrace
  rw [fullParts, hinit, List.filter_append, List.map_singleton, ← Template.eq_token_inner htoken,
    List.filter_cons_of_pos (by simpa using hne),
    List.filter_cons_of_pos (by simpa using hplaceholder), List.filter_nil]

/-- The default rules give every template an endpoint. Where they have introduced its parameter, the
parameter has a default, and that is the last part of the template as it was written. -/
theorem replaced_version_is_default (raw : String) :
    ∃ e, Endpoint.ofTemplate Conventions.default.rules raw = .ok e ∧ e.raw = raw ∧
      (e.isFromRule = true → ∃ last, (parts raw).getLast? = some last ∧
        e.defaultParameter .default = some (String.ofList last)) := by
  obtain ⟨t, happly, hrewritten⟩ := PartRule.rewritten_defaults raw
  refine ⟨⟨raw, t⟩, ?_, rfl, fun hrule => ?_⟩
  · rw [Endpoint.ofTemplate, Conventions.default, happly]
  · obtain ⟨last, c, name, hlast, hclose, hversion⟩ := Endpoint.exists_version hrewritten hrule
    have hp : Endpoint.isParameterized ⟨raw, t⟩ = true := (Bool.and_eq_true_iff.1 hrule).1
    refine ⟨last, hlast, ?_⟩
    rw [Endpoint.defaultParameter_eq_lookup hp hclose, if_pos hrule]
    exact hversion

theorem replaced_version_is_default_of_calls :
    ∃ e, Endpoint.ofTemplate Conventions.default.rules "/scim/v2/analytics/calls/v1" = .ok e ∧
      e.template = "/scim/\x7bversion\x7d/analytics/calls/\x7bversion\x7d" ∧
      e.isFromRule = true ∧ e.defaultParameter .default = some "v1" := by
  obtain ⟨e, hof, -, hdefault⟩ := replaced_version_is_default "/scim/v2/analytics/calls/v1"
  have hendpoint : Endpoint.ofTemplate Conventions.default.rules "/scim/v2/analytics/calls/v1" =
      .ok ⟨"/scim/v2/analytics/calls/v1",
        "/scim/\x7bversion\x7d/analytics/calls/\x7bversion\x7d"⟩ := by decide +kernel
  obtain rfl := Except.ok.inj (hendpoint.symm.trans hof)
  have hrule : Endpoint.isFromRule ⟨"/scim/v2/analytics/calls/v1",
      "/scim/\x7bversion\x7d/analytics/calls/\x7bversion\x7d"⟩ = true := by decide
  obtain ⟨last, hlast, hvalue⟩ := hdefault hrule
  have hv1 : (parts "/scim/v2/analytics/calls/v1").getLast? = some "v1".toList := by decide
  obtain rfl := Option.some.inj (hv1.symm.trans hlast)
  exact ⟨_, hof, rfl, hrule, hvalue⟩

end ApiOutline
