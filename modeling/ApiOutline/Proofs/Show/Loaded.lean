import ApiOutline.Proofs.Command.Printed
import ApiOutline.Proofs.Json.Written
import ApiOutline.Proofs.Settings.Writing
import ApiOutline.Proofs.Value.Unshared

/-!
# Data that are loaded again

What is written as JSON into a file is loaded from it as it was
(`filed_json_is_loaded`). The text is read back under every indentation, and it
reaches the reader as it was written: it has no carriage returns, it is not
blank, and a name that ends in `.json` never makes it YAML.

In a text nothing is shared, so a mapping that stood in two places is two
mappings afterwards. That is all that is lost (`write_unshared`).
-/

namespace ApiOutline

namespace Json

variable (style : Style)

theorem keyName_unshared (k : Value) : keyName k.unshared = keyName k := by
  cases k with
  | list items => exact Value.display_unshared (.list items)
  | set items => exact Value.display_unshared (.set items)
  | map c ms => exact Value.display_unshared (.map c ms)
  | _ => rfl

mutual

/-- The text of a value does not tell what is shared in it. -/
theorem write_unshared (level : Nat) :
    ∀ v : Value, write style level v.unshared = write style level v
  | .list items => by rw [Value.unshared, write, write, writeItems_unshared (level + 1) items]
  | .set items => by rw [Value.unshared, write, write, writeItems_unshared (level + 1) items]
  | .map _ ms => by rw [Value.unshared, write, write, writeMembers_unshared (level + 1) ms]
  | .null | .bool _ | .int _ | .float _ | .str _ | .bytes _ | .date _ | .moment _ => rfl

theorem writeItems_unshared (level : Nat) :
    ∀ items, writeItems style level (Value.unsharedList items) = writeItems style level items
  | [] => rfl
  | v :: rest => by
      rw [Value.unsharedList, writeItems, writeItems, write_unshared level v,
        writeItems_unshared level rest]

theorem writeMembers_unshared (level : Nat) :
    ∀ ms, writeMembers style level (Value.unsharedMembers ms) = writeMembers style level ms
  | [] => rfl
  | (k, v) :: rest => by
      rw [Value.unsharedMembers, writeMembers, writeMembers, keyName_unshared k,
        write_unshared level v, writeMembers_unshared level rest]

end

theorem render_unshared (v : Value) : render style v.unshared = render style v := by
  rw [render, write_unshared, render]

/-- A mapping is not written as blanks. -/
theorem isBlankText_renderLine (c : Option Nat) (ms : Members) :
    Text.isBlankText (render style (.map c ms) ++ "\n") = false := by
  obtain ⟨rest, hrest⟩ : ∃ rest, write style 0 (.map c ms) = '\x7b' :: rest := by
    rw [write, Style.bracket]
    split
    · exact ⟨_, rfl⟩
    · exact ⟨_, rfl⟩
  have hbrace : Text.isBlank '\x7b' = false := by decide
  rw [Text.isBlankText, render, String.toList_append, String.toList_ofList, hrest,
    List.cons_append, List.all_cons, hbrace, Bool.false_and]

end Json

/-- A file whose name ends in `.json` is not taken for one of YAML. -/
theorem Source.hintOfSuffix_of_ends {source : String} (h : ".json".toList <:+ source.toList) :
    hintOfSuffix (Path.ofText source).suffix ≠ .yaml := by
  have hends : '.' :: "json".toList <:+ source.toList := h
  rcases Path.suffix_of_ends (by decide) (by decide) (by decide) hends with hsuffix | hsuffix
  · rw [hsuffix]
    decide +kernel
  · rw [hsuffix]
    decide +kernel

namespace Show.Output

variable {o : Output} {h : Host} {path : String} {c : Option Nat} {ms : Members}

/-- A mapping without doubles that has been written as JSON into a file is loaded from it, its
members in order, whatever the indentation. -/
theorem filed_json_is_loaded (hfile : o.file = some path) (hends : ".json".toList <:+ path.toList)
    (haddress : Source.isAddress path = false) (hexact : (Value.map c ms).unshared.IsExact)
    (hresult : (o.json (.map c ms) h).result = .ok ()) :
    (Source.load (o.json (.map c ms) h).host path).result = .ok (Value.map c ms).unshared := by
  obtain ⟨text, htext, hheld⟩ := (hasFiled_json hfile hresult).text
  have hrender := jsonText_eq_ok htext
  rw [← Json.render_unshared] at hrender
  subst hrender
  have hdash : path ≠ "-" := by
    rintro rfl
    revert hends
    decide
  exact Source.load_of_jsonFile (Json.notMem_renderLine _ hexact)
    (Json.isBlankText_renderLine _ none _) (Json.parse_renderLine _ hexact) hdash haddress
    (Host.fileAt?_eq_ok.1 hheld) (Source.hintOfSuffix_of_ends hends)

/-- Texts with signs that are escaped, and with a line separator that is not. -/
def quotedTexts : Members := [(.str "\r\n\u2028", .str "\x00\"\\😀")]

/-- These texts in two places, and everything that is empty. -/
def sharedTexts : Members :=
  [(.str "first", .map (some 0) quotedTexts),
   (.str "", .list [.map (some 0) quotedTexts, .list [], .ofMembers [], .null, .int (-12)])]

def filingOutput : Output :=
  .make SettingsFile.freshHost ⟨.auto, false, false, false, some "new/data.json", some 3⟩

theorem isExact_sharedTexts : (Value.map none sharedTexts).unshared.IsExact := by
  have htexts : (Value.ofMembers quotedTexts).IsExact :=
    .map ⟨by decide, by decide⟩ (List.forall_mem_singleton.2 (.str _))
  have hlist : (Value.list [.ofMembers quotedTexts, .list [], .ofMembers [], .null,
      .int (-12)]).IsExact := by
    refine .list ?_
    simp only [List.forall_mem_cons]
    exact ⟨htexts, .list (by simp), .map Members.named_nil (by simp), .null, .int (by decide),
      by simp⟩
  exact .map ⟨by decide, by decide⟩
    (List.forall_mem_cons.2 ⟨htexts, List.forall_mem_singleton.2 hlist⟩)

theorem filed_json_is_loaded_of_shared :
    (filingOutput.json (.map none sharedTexts) SettingsFile.freshHost).result = .ok () ∧
      (Source.load (filingOutput.json (.map none sharedTexts) SettingsFile.freshHost).host
        "new/data.json").result = .ok (Value.map none sharedTexts).unshared := by
  have htext : filingOutput.jsonText (.map none sharedTexts) =
      .ok (Json.render ⟨some 3, false⟩ (.map none sharedTexts)) := if_pos (by decide +kernel)
  have hwrite : ∀ text, (SettingsFile.write (.ofText "new/data.json") text
      SettingsFile.freshHost).result = .ok () := fun text =>
    (SettingsFile.result_write_iff _ _ _).2
      ((Files.error_writeAtomically _ _ _ _ []).trans (by decide +kernel))
  have hresult : (filingOutput.json (.map none sharedTexts) SettingsFile.freshHost).result =
      .ok () := Action.result_bind_eq_ok.2 ⟨_, htext, hwrite _⟩
  exact ⟨hresult,
    filed_json_is_loaded rfl (by decide) (by decide +kernel) isExact_sharedTexts hresult⟩

end Show.Output

end ApiOutline
