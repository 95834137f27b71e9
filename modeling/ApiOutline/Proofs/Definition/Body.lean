import ApiOutline.Definition.Body
import ApiOutline.Proofs.Record.Checked
import ApiOutline.Proofs.Value.Members

/-!
# When a body is a form

A body is a form exactly if one of the two media types of forms is in its
content, and the plain one goes first. If its schema is written out in place,
the form is named after the operation.
-/

namespace ApiOutline.Definition.Body

variable {name mediaType : String} {content request : Value} {body : Body}

/-- What is found in a content is found in the mapping that it is. -/
theorem inContent_ok {found : Option Value} (h : inContent content mediaType = .ok found) :
    found = Members.find? content.membersOrNil mediaType := by
  unfold inContent at h
  split at h
  · cases h
    rfl
  · next hother =>
      obtain ⟨mentioned, _, h⟩ := bind_eq_ok.1 h
      split at h
      · cases h
      · cases h
        cases content with
        | map c ms => exact absurd rfl (hother c ms)
        | _ => rfl

/-- A body is no form, or a plain form, or a form in parts where there is no plain one. A form is
named after the operation unless its schema refers to another name. -/
inductive IsBodyOf (content : Members) (name : String) (body : Body) : Prop where
  | other (plain : body.formUrlEncoded = none) (parts : body.multipart = none)
      (missing : Members.find? content formMediaType = none)
      (missingParts : Members.find? content multipartMediaType = none)
  | plain (media : Value) (plain : body.formUrlEncoded = some true) (parts : body.multipart = none)
      (found : Members.find? content formMediaType = some media)
      (named : (schemaRef media).isTruthy = false → body.model = some name)
  | parts (media : Value) (plain : body.formUrlEncoded = none) (parts : body.multipart = some true)
      (missing : Members.find? content formMediaType = none)
      (found : Members.find? content multipartMediaType = some media)
      (named : (schemaRef media).isTruthy = false → body.model = some name)

theorem form_ok {formUrlEncoded multipart : Option Bool} {media : Value}
    (h : form formUrlEncoded multipart name media = .ok body) :
    body.formUrlEncoded = formUrlEncoded ∧ body.multipart = multipart ∧
      ((schemaRef media).isTruthy = false → body.model = some name) := by
  obtain ⟨referred, hreferred, h⟩ := bind_eq_ok.1 h
  cases h
  refine ⟨rfl, rfl, fun href => ?_⟩
  unfold referredName at hreferred
  simp only [href] at hreferred
  cases hreferred
  rfl

theorem ofContent_ok (h : ofContent name content = .ok body) :
    IsBodyOf content.membersOrNil name body := by
  obtain ⟨plain, hplain, h⟩ := bind_eq_ok.1 h
  have hplain := inContent_ok hplain
  cases plain with
  | some media =>
      obtain ⟨hform, hmultipart, hmodel⟩ := form_ok h
      exact .plain media hform hmultipart hplain.symm hmodel
  | none =>
      obtain ⟨parts, hparts, h⟩ := bind_eq_ok.1 h
      have hparts := inContent_ok hparts
      cases parts with
      | some media =>
          obtain ⟨hform, hmultipart, hmodel⟩ := form_ok h
          exact .parts media hform hmultipart hplain.symm hparts.symm hmodel
      | none =>
          obtain ⟨ms, _, h⟩ := bind_eq_ok.1 h
          cases ms with
          | nil =>
              cases h
              exact .other rfl rfl hplain.symm hparts.symm
          | cons m rest =>
              obtain ⟨referred, _, h⟩ := bind_eq_ok.1 h
              cases h
              exact .other rfl rfl hplain.symm hparts.symm

theorem ofRequest_ok (h : ofRequest name request = .ok body) :
    IsBodyOf (Members.find request.membersOrNil "content").membersOrNil name body := by
  unfold ofRequest at h
  split at h
  · obtain ⟨ms, hms, hrest⟩ := bind_eq_ok.1 h
    obtain ⟨c, rfl⟩ := Value.members_eq_ok hms
    simp only [] at hrest
    split at hrest
    · exact ofContent_ok hrest
    · next hfalsy =>
        cases hrest
        rw [Value.membersOrNil, Value.membersOrNil_of_falsy (Bool.eq_false_iff.2 hfalsy)]
        exact .other rfl rfl rfl rfl
  · next hfalsy =>
      cases h
      rw [Value.membersOrNil_of_falsy (Bool.eq_false_iff.2 hfalsy)]
      exact .other rfl rfl rfl rfl

/-- The media type of the form in a content, if there is one. A plain form goes first. -/
def formTypeIn (content : Members) : Option String :=
  if (Members.find? content formMediaType).isSome then some formMediaType
  else if (Members.find? content multipartMediaType).isSome then some multipartMediaType
  else none

section

variable {content : Members}

/-- The flags of a body tell the form in its content. -/
theorem IsBodyOf.formTypeIn_eq (h : IsBodyOf content name body) : formTypeIn content =
    if body.formUrlEncoded.isSome then some formMediaType
    else if body.multipart.isSome then some multipartMediaType
    else none := by
  rw [formTypeIn]
  cases h with
  | other hplain hparts hnone hnoParts =>
      rw [hplain, hparts, hnone, hnoParts]
      rfl
  | plain media hplain hparts hfound hnamed =>
      rw [hplain, hfound]
      rfl
  | parts media hplain hparts hnone hfound hnamed =>
      rw [hplain, hparts, hnone, hfound]
      rfl

/-- A form is named after the operation if its schema refers to no other name. -/
theorem IsBodyOf.model_eq (h : IsBodyOf content name body)
    (htype : formTypeIn content = some mediaType)
    (hown : (schemaRef (Members.find content mediaType)).isTruthy = false) :
    body.model = some name := by
  rw [formTypeIn] at htype
  cases h with
  | other hplain hparts hnone hnoParts =>
      rw [hnone, hnoParts] at htype
      cases htype
  | plain media hplain hparts hfound hnamed =>
      rw [hfound] at htype
      cases htype
      rw [Members.find_of_find? hfound] at hown
      exact hnamed hown
  | parts media hplain hparts hnone hfound hnamed =>
      rw [hnone, hfound] at htype
      cases htype
      rw [Members.find_of_find? hfound] at hown
      exact hnamed hown

end

/-- A schema that is written out refers to no name. -/
theorem schemaRef_isTruthy {media : Value} {c : Option Nat} {schema : Members}
    (hschema : Members.find media.membersOrNil "schema" = .map c schema)
    (href : Members.has schema (.str "$ref") = false) : (schemaRef media).isTruthy = false := by
  cases media with
  | map _ ms =>
      have hfind : Members.find ms "schema" = .map c schema := hschema
      simp only [schemaRef, hfind, Members.find_eq_null href, Value.isTruthy]
  | _ => cases hschema

end ApiOutline.Definition.Body
