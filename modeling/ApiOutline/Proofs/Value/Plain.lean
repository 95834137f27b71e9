import ApiOutline.Proofs.Value.Overlay
import ApiOutline.Value.Plain

/-!
# Plain values

A value is plain if it is all that JSON can hold already: it consists of texts,
finite numbers, truth values, null, lists, and mappings from distinct texts. It
is its own plain form then (`plain_of_isPlain`), so it is written as it is. The
parts of a plain value are plain, and so is what is put together of such parts.
-/

namespace ApiOutline

/-- Whether a double is a number. -/
def isNumber (x : Float) : Bool := !(x.isNaN || x.isInf)

namespace Value

mutual

/-- Whether all numbers in a value are finite. -/
def isFinite : Value → Bool
  | .float x => isNumber x
  | .list items => areFinite items
  | .set items => areFinite items
  | .map _ ms => haveFinite ms
  | _ => true

def areFinite : List Value → Bool
  | [] => true
  | v :: rest => isFinite v && areFinite rest

def haveFinite : List (Value × Value) → Bool
  | [] => true
  | (_, v) :: rest => isFinite v && haveFinite rest

end

theorem areFinite_iff {items : List Value} :
    areFinite items = true ↔ ∀ v ∈ items, v.isFinite = true := by
  induction items with
  | nil => simp [areFinite]
  | cons v rest ih => rw [areFinite, Bool.and_eq_true, ih, List.forall_mem_cons]

theorem haveFinite_iff {ms : Members} : haveFinite ms = true ↔ ∀ m ∈ ms, m.2.isFinite = true := by
  induction ms with
  | nil => simp [haveFinite]
  | cons m rest ih =>
      obtain ⟨k, v⟩ := m
      rw [haveFinite, Bool.and_eq_true, ih, List.forall_mem_cons]

end Value

/-- Whether the keys of some members are texts, each of them there once. -/
structure Members.Named (ms : Members) : Prop where
  keys : ∀ m ∈ ms, m.1.isText = true
  distinct : (ms.map Prod.fst).Nodup

namespace Value

/-- Whether a value is its own plain form, at every depth. -/
inductive IsPlain : Value → Prop
  | null : IsPlain .null
  | bool (b : Bool) : IsPlain (.bool b)
  | int (n : Int) : IsPlain (.int n)
  | float {x : Float} (finite : isNumber x = true) : IsPlain (.float x)
  | str (s : String) : IsPlain (.str s)
  | list {items : List Value} (elements : ∀ v ∈ items, IsPlain v) : IsPlain (.list items)
  | map {ms : List (Value × Value)} (named : Members.Named ms) (values : ∀ m ∈ ms, IsPlain m.2) :
      IsPlain (.map none ms)

end Value

namespace Members

open Value

variable {ms acc base upper : Members} {k v : Value} {key : String}

theorem put_of_not_has (h : has ms k = false) : put ms k v = ms ++ [(k, v)] := by
  induction ms with
  | nil => rfl
  | cons m rest ih =>
      have hcons : has (m :: rest) k = (m.1.sameKey k || has rest k) := List.any_cons
      rw [hcons, Bool.or_eq_false_iff] at h
      rw [put, h.1, if_neg Bool.false_ne_true, ih h.2, List.cons_append]

theorem has_iff_mem {s : String} : has ms (.str s) = true ↔ .str s ∈ ms.map Prod.fst := by
  rw [has, List.any_eq_true, List.mem_map]
  constructor
  · rintro ⟨m, hm, hsame⟩
    exact ⟨m, hm, sameKey_str_iff.1 hsame⟩
  · rintro ⟨m, hm, heq⟩
    exact ⟨m, hm, sameKey_str_iff.2 heq⟩

theorem eq_str_of_isText (h : k.isText = true) : ∃ s, k = .str s := by
  cases k with
  | str s => exact ⟨s, rfl⟩
  | _ => cases h

/-- Members with distinct texts for keys are written one after the other. -/
theorem overlay_of_distinct (hkeys : ∀ m ∈ ms, m.1.isText = true)
    (hdistinct : ((acc ++ ms).map Prod.fst).Nodup) : overlay acc ms = acc ++ ms := by
  induction ms generalizing acc with
  | nil => exact (List.append_nil acc).symm
  | cons m rest ih =>
      obtain ⟨htext, hrest⟩ := List.forall_mem_cons.1 hkeys
      obtain ⟨s, hs⟩ := eq_str_of_isText htext
      have hnew : has acc m.1 = false := by
        rw [hs, Bool.eq_false_iff, Ne, has_iff_mem]
        intro hmem
        rw [List.map_append, List.nodup_append] at hdistinct
        exact hdistinct.2.2 _ hmem _ (List.mem_map_of_mem List.mem_cons_self) hs.symm
      show overlay (put acc m.1 m.2) rest = _
      rw [put_of_not_has hnew, ih hrest (by rwa [List.append_assoc]), List.append_assoc]
      rfl

theorem Named.ofList (h : Named ms) : ofList ms = ms := by
  have hwritten : overlay [] ms = [] ++ ms := overlay_of_distinct h.keys h.distinct
  exact hwritten

theorem named_nil : Named [] := ⟨by simp, List.nodup_nil⟩

theorem Named.put (h : Named ms) (s : String) (v : Value) : Named (put ms (.str s) v) := by
  have hfst := map_fst_put ms (.str s) v
  refine ⟨fun m hm => ?_, ?_⟩
  · rcases mem_put hm with hold | ⟨hkey | hkey, -⟩
    · exact h.keys m hold
    · rw [hkey]
      rfl
    · rw [sameKey_str_iff.1 hkey]
      rfl
  · rw [hfst]
    split
    · exact h.distinct
    · next hnew =>
        rw [has_iff_mem] at hnew
        refine List.nodup_append.2
          ⟨h.distinct, List.pairwise_singleton _ _, fun k hk k' hk' heq => ?_⟩
        rw [heq, List.mem_singleton.1 hk'] at hk
        exact hnew hk

theorem Named.erase (h : Named ms) (key : String) : Named (erase ms key) :=
  ⟨fun m hm => h.keys m (List.mem_filter.1 hm).1,
    h.distinct.sublist (List.filter_sublist.map Prod.fst)⟩

/-- Members that are written over others may repeat their keys. -/
theorem Named.overlay (h : Named base) (hupper : ∀ m ∈ upper, m.1.isText = true) :
    Named (overlay base upper) := by
  induction upper generalizing base with
  | nil => exact h
  | cons m rest ih =>
      obtain ⟨htext, hrest⟩ := List.forall_mem_cons.1 hupper
      obtain ⟨k, v⟩ := m
      obtain ⟨s, rfl⟩ := eq_str_of_isText htext
      exact ih (h.put s v) hrest

theorem Named.mem_overlay (h : Named base) (hupper : ∀ m ∈ upper, m.1.isText = true)
    {m : Value × Value} (hm : m ∈ Members.overlay base upper) : m ∈ base ∨ m ∈ upper := by
  obtain ⟨k, v⟩ := m
  obtain ⟨s, rfl⟩ := eq_str_of_isText ((h.overlay hupper).keys _ hm)
  exact Members.mem_overlay hm

end Members

namespace Value

variable {v : Value} {ms base upper : Members} {items : List Value} {key : String}

theorem plainList_of_forall (h : ∀ v ∈ items, v.plain = some v) :
    plainList items = some items := by
  induction items with
  | nil => rfl
  | cons v rest ih =>
      obtain ⟨hv, hrest⟩ := List.forall_mem_cons.1 h
      rw [plainList, hv, ih hrest]

theorem plainMembers_of_forall (hkeys : ∀ m ∈ ms, m.1.isText = true)
    (h : ∀ m ∈ ms, m.2.plain = some m.2) : plainMembers ms = some ms := by
  induction ms with
  | nil => rfl
  | cons m rest ih =>
      obtain ⟨htext, hkeysRest⟩ := List.forall_mem_cons.1 hkeys
      obtain ⟨hv, hrest⟩ := List.forall_mem_cons.1 h
      obtain ⟨k, v⟩ := m
      obtain ⟨s, rfl⟩ := Members.eq_str_of_isText htext
      rw [plainMembers, hv, ih hkeysRest hrest]
      rfl

/-- A plain value is written as it is. -/
theorem plain_of_isPlain (h : v.IsPlain) : v.plain = some v := by
  induction h with
  | float hfinite =>
      rw [isNumber, Bool.not_eq_true'] at hfinite
      rw [plain, hfinite, if_neg Bool.false_ne_true]
  | list _ ih => rw [plain, plainList_of_forall ih]; rfl
  | map hnamed _ ih =>
      rw [plain, plainMembers_of_forall hnamed.keys ih, Option.map_some, hnamed.ofList]
  | _ => rfl

/-! ## Parts of plain values -/

theorem isPlain_map {c : Option Nat} : (Value.map c ms).IsPlain ↔
    c = none ∧ Members.Named ms ∧ ∀ m ∈ ms, m.2.IsPlain := by
  constructor
  · intro h
    cases h with
    | map hnamed hvalues => exact ⟨rfl, hnamed, hvalues⟩
  · rintro ⟨rfl, hnamed, hvalues⟩
    exact .map hnamed hvalues

theorem IsPlain.of_mem {c : Option Nat} {k : Value} (h : (Value.map c ms).IsPlain)
    (hm : (k, v) ∈ ms) : v.IsPlain :=
  (isPlain_map.1 h).2.2 _ hm

theorem IsPlain.find? {c : Option Nat} (h : (Value.map c ms).IsPlain)
    (hv : Members.find? ms key = some v) : v.IsPlain :=
  h.of_mem (Members.mem_of_find? hv)

theorem IsPlain.find {c : Option Nat} (h : (Value.map c ms).IsPlain) (key : String) :
    (Members.find ms key).IsPlain := by
  unfold Members.find
  cases hfind : Members.find? ms key with
  | none => exact .null
  | some v => exact h.find? hfind

theorem isPlain_nil : (Value.ofMembers []).IsPlain :=
  .map Members.named_nil (by simp)

theorem IsPlain.membersOrNil (h : v.IsPlain) : (Value.ofMembers v.membersOrNil).IsPlain := by
  cases h with
  | map hnamed hvalues => exact .map hnamed hvalues
  | _ => exact isPlain_nil

theorem IsPlain.of_mem_list (h : (Value.list items).IsPlain) (hv : v ∈ items) : v.IsPlain := by
  cases h with
  | list helements => exact helements v hv

/-! ## Plain values put together -/

theorem IsPlain.set (h : (Value.ofMembers ms).IsPlain) (key : String) (hv : v.IsPlain) :
    (Value.ofMembers (Members.set ms key v)).IsPlain := by
  obtain ⟨-, hnamed, hvalues⟩ := isPlain_map.1 h
  refine .map (hnamed.put key v) fun m hm => ?_
  rcases Members.mem_put hm with hold | ⟨-, hvalue⟩
  · exact hvalues m hold
  · rw [hvalue]
    exact hv

theorem IsPlain.erase (h : (Value.ofMembers ms).IsPlain) (key : String) :
    (Value.ofMembers (Members.erase ms key)).IsPlain := by
  obtain ⟨-, hnamed, hvalues⟩ := isPlain_map.1 h
  exact .map (hnamed.erase key) fun m hm => hvalues m (List.mem_filter.1 hm).1

theorem IsPlain.overlay (hbase : (Value.ofMembers base).IsPlain)
    (hupper : (Value.ofMembers upper).IsPlain) :
    (Value.ofMembers (Members.overlay base upper)).IsPlain := by
  obtain ⟨-, hnamed, hvalues⟩ := isPlain_map.1 hbase
  obtain ⟨-, hnamed', hvalues'⟩ := isPlain_map.1 hupper
  exact .map (hnamed.overlay hnamed'.keys) fun m hm =>
    (hnamed.mem_overlay hnamed'.keys hm).elim (hvalues m) (hvalues' m)

end Value

end ApiOutline
