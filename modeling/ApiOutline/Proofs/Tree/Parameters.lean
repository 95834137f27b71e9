import ApiOutline.Proofs.Template.Closing
import ApiOutline.Tree.Bridge
import ApiOutline.Tree.Merge

/-!
# Which parameter a node takes

A node takes the parameter at the end of its template, a bridge the one that
follows its segments in the template of another node. Both are tokens behind
the last literal: the one is the last of them, the other the first. So the two
are one where just one token stands there. Where more do, a node has room for
one of them only, and the first is lost to it, though the default is looked up
by the literal in front of the first.
-/

namespace ApiOutline

namespace Tree

open Template (ClosesWith IsRegular parameterAfter fullParts token)

/-- Behind the last literal of a regular template that takes a parameter there are tokens. The
parameter of its node is the one that follows its segments exactly if the first and the last of
them have one name. Where there is just one, so that it stands directly behind the literal, the
node takes it, and so does a bridge at these segments for a template that goes on behind this one.
Its default is the one that belongs to that literal. -/
theorem parameter_follows_last_segment_iff (c : Conventions) {e : Endpoint}
    (h : IsRegular e.template) (hp : e.isParameterized = true) :
    (∃ literal names, ClosesWith e.template literal names) ∧
    ∀ literal names, ClosesWith e.template literal names →
      names ≠ [] ∧
      (e.parameter = parameterAfter e.template e.segments ↔ names.head? = names.getLast?) ∧
      ∀ name, names = [name] →
        parameterAfter e.template e.segments = some (String.ofList name) ∧
        (freshNode c e).parameter = some (String.ofList name) ∧
        (∀ n more, fullParts (n.endpoint.getD "") = fullParts e.template ++ more →
          (bridgeFor c n e.segments).parameter = some (String.ofList name)) ∧
        (freshNode c e).defaultParameter =
          (if e.isFromRule then c.versionDefaults else c.parameterDefaults).lookup
            (String.ofList literal) := by
  refine ⟨h.exists_closesWith, fun literal names hclose => ?_⟩
  have hparameter : e.parameter = names.getLast?.map String.ofList :=
    h.trailingParameter_eq_getLast? hclose
  have hafter : parameterAfter e.template e.segments = names.head?.map String.ofList :=
    Template.parameterAfter_eq_head? hclose
  have hnames := h.names_ne_nil hclose hp
  refine ⟨hnames, ?_, ?_⟩
  · rw [hparameter, hafter, eq_comm]
    exact (Option.map_injective fun _ _ => String.ofList_inj.1).eq_iff
  · rintro name rfl
    have hdefault := Endpoint.defaultParameter_eq_lookup (c := c) hp hclose
    refine ⟨hafter, hparameter, fun n more hmore => ?_, hdefault⟩
    exact Template.parameterAfter_of_continued hclose hmore (Or.inl hnames)

/-- The endpoint of an account. -/
def accountEndpoint : Endpoint where
  raw := "/restapi/v1.0/account/\x7baccountId\x7d"
  template := "/restapi/\x7bapiVersion\x7d/account/\x7baccountId\x7d"

/-- The node of the extensions of an account. -/
def extensionNode : Node where
  segments := ["restapi", "account", "extension"]
  parameter := none
  defaultParameter := none
  operations := []
  endpoint := some "/restapi/\x7bapiVersion\x7d/account/\x7baccountId\x7d/extension"

theorem parameter_follows_last_segment_iff_of_account :
    IsRegular accountEndpoint.template ∧ accountEndpoint.isParameterized = true ∧
    accountEndpoint.parameter = parameterAfter accountEndpoint.template ["restapi", "account"] ∧
    (bridgeFor .default extensionNode ["restapi", "account"]).parameter = some "accountId" ∧
    (freshNode .default accountEndpoint).defaultParameter = some "~" := by
  have hregular : IsRegular accountEndpoint.template :=
    ⟨"restapi".toList, ["\x7bapiVersion\x7d", "account", "\x7baccountId\x7d"].map String.toList,
      by decide, by decide, by decide⟩
  have hp : accountEndpoint.isParameterized = true := by decide
  have hclose : ClosesWith accountEndpoint.template "account".toList ["accountId".toList] :=
    ⟨["restapi".toList, token "apiVersion".toList], by decide, by decide⟩
  obtain ⟨-, hall⟩ := parameter_follows_last_segment_iff .default hregular hp
  obtain ⟨-, hiff, hone⟩ := hall _ _ hclose
  obtain ⟨-, -, hbridge, hdefault⟩ := hone _ rfl
  exact ⟨hregular, hp, hiff.2 rfl, hbridge extensionNode ["extension".toList] (by decide), hdefault⟩

/-- The endpoint of something that takes two parameters behind one literal. -/
def crowdedEndpoint : Endpoint where
  raw := "/account/\x7bx\x7d/\x7by\x7d"
  template := "/account/\x7bx\x7d/\x7by\x7d"

/-- The node takes the second of two tokens behind its last literal, though the first one follows
its segments, and with it the default that belongs to the literal. -/
theorem second_token_hides_first :
    IsRegular crowdedEndpoint.template ∧ crowdedEndpoint.isParameterized = true ∧
    crowdedEndpoint.parameter = some "y" ∧
    parameterAfter crowdedEndpoint.template crowdedEndpoint.segments = some "x" ∧
    crowdedEndpoint.defaultParameter .default = some "~" :=
  ⟨⟨"account".toList, ["\x7bx\x7d", "\x7by\x7d"].map String.toList, by decide, by decide,
    by decide⟩, by decide, by decide, by decide, by decide⟩

end Tree

end ApiOutline
