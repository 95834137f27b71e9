import ApiOutline.Outline
import ApiOutline.Proofs.Field
import ApiOutline.Proofs.Value.Plain

/-!
# Which outlines are published with finite numbers

The free values of a record are published in their plain form, in which a number
that is none has become null. The bounds of a field are not free values. They are
published as they are, and so an outline is published with finite numbers alone
exactly if the bounds of its fields are finite, at every depth of their elements
(`Outline.isFinite_write`).
-/

namespace ApiOutline

open Record (Form Entry Number)

variable {form : Form} {v : Value}

/-! ## Plain forms -/

namespace Value

theorem isFinite_put {ms : Members} {k : Value} (h : ∀ m ∈ ms, m.2.isFinite = true)
    (hv : v.isFinite = true) : ∀ m ∈ Members.put ms k v, m.2.isFinite = true := by
  intro m hm
  rcases Members.mem_put hm with hold | ⟨-, hvalue⟩
  · exact h m hold
  · rw [hvalue]
    exact hv

theorem isFinite_overlay {base upper : Members} (hbase : ∀ m ∈ base, m.2.isFinite = true)
    (hupper : ∀ m ∈ upper, m.2.isFinite = true) :
    ∀ m ∈ Members.overlay base upper, m.2.isFinite = true := by
  induction upper generalizing base with
  | nil => exact hbase
  | cons m rest ih =>
      obtain ⟨hm, hrest⟩ := List.forall_mem_cons.1 hupper
      exact ih (isFinite_put hbase hm) hrest

mutual

/-- All numbers in a plain form are finite. -/
theorem isFinite_of_plain : ∀ {v w : Value}, v.plain = some w → w.isFinite = true
  | .null, _, h | .bool _, _, h | .int _, _, h | .str _, _, h | .date _, _, h
  | .moment _, _, h => by
      cases h
      rfl
  | .float x, w, h => by
      rw [plain] at h
      cases h
      split
      · rfl
      · next hx => rw [isFinite, isNumber, Bool.eq_false_iff.2 hx, Bool.not_false]
  | .bytes bs, w, h => by
      obtain ⟨s, -, rfl⟩ := Option.map_eq_some_iff.1 h
      rfl
  | .list items, w, h | .set items, w, h => by
      obtain ⟨ws, hws, rfl⟩ := Option.map_eq_some_iff.1 h
      rw [isFinite, areFinite_iff]
      exact areFinite_of_plainList hws
  | .map _ ms, w, h => by
      obtain ⟨ws, hws, rfl⟩ := Option.map_eq_some_iff.1 h
      rw [isFinite, haveFinite_iff]
      exact isFinite_overlay (by simp) (haveFinite_of_plainMembers hws)

theorem areFinite_of_plainList : ∀ {items ws : List Value}, plainList items = some ws →
    ∀ w ∈ ws, w.isFinite = true
  | [], _, h => by
      cases h
      simp
  | v :: rest, ws, h => by
      rw [plainList] at h
      split at h
      · next hv hrest =>
          cases h
          exact List.forall_mem_cons.2 ⟨isFinite_of_plain hv, areFinite_of_plainList hrest⟩
      · cases h

theorem haveFinite_of_plainMembers : ∀ {ms ws : List (Value × Value)},
    plainMembers ms = some ws → ∀ m ∈ ws, m.2.isFinite = true
  | [], _, h => by
      cases h
      simp
  | (k, v) :: rest, ws, h => by
      rw [plainMembers] at h
      split at h
      · next _ hv hrest =>
          cases h
          exact List.forall_mem_cons.2 ⟨isFinite_of_plain hv, haveFinite_of_plainMembers hrest⟩
      · cases h

end

end Value

/-! ## Records -/

namespace Record

/-- Whether a number is finite. -/
def Number.isFinite : Number → Bool
  | .int _ => true
  | .float x => isNumber x

theorem Number.isFinite_value (n : Number) : n.value.isFinite = n.isFinite := by
  cases n <;> rfl

/-- Whether what a field is written with is finite, if it is set. -/
def Entry.IsFinite (e : Entry) : Prop := ∀ v, e.value = some v → v.isFinite = true

variable {published name : String}

theorem Entry.isFinite_some : Entry.IsFinite ⟨published, name, some v⟩ ↔ v.isFinite = true := by
  simp [IsFinite]

theorem Entry.isFinite_map {α : Type} {write : α → Value} {x : Option α} :
    Entry.IsFinite ⟨published, name, x.map write⟩ ↔
      ∀ a, x = some a → (write a).isFinite = true := by
  cases x <;> simp [IsFinite]

/-- A free value is written in its plain form. -/
theorem Entry.isFinite_of_plainOption {x y : Option Value} (h : plainOption x = some y)
    (published name : String) : Entry.IsFinite ⟨published, name, y⟩ := by
  intro v hv
  cases x with
  | none =>
      cases h
      cases hv
  | some w =>
      obtain ⟨plain, hplain, rfl⟩ := Option.map_eq_some_iff.1 h
      cases hv
      exact Value.isFinite_of_plain hplain

theorem isFinite_write {entries : List Entry} :
    (form.write entries).isFinite = true ↔ ∀ e ∈ entries, e.IsFinite := by
  have hmember : ∀ e, (∀ m, form.member e = some m → m.2.isFinite = true) ↔ e.IsFinite := by
    intro e
    unfold Entry.IsFinite
    cases form <;> cases hvalue : e.value <;> simp [Form.member, hvalue, Value.isFinite]
  rw [Form.write, Value.ofMembers, Value.isFinite, Value.haveFinite_iff]
  constructor
  · exact fun h e he => (hmember e).1 fun m hm => h m (List.mem_filterMap.2 ⟨e, he, hm⟩)
  · intro h m hm
    obtain ⟨e, he, hwritten⟩ := List.mem_filterMap.1 hm
    exact (hmember e).2 (h e he) m hwritten

/-- Records are written with finite numbers if each of them is. -/
theorem areFinite_of_mapM {α : Type} {write : α → Option Value} {ok : α → Prop}
    (hwrite : ∀ x v, write x = some v → (v.isFinite = true ↔ ok x)) {xs : List α} {vs : List Value}
    (h : xs.mapM write = some vs) : (Value.list vs).isFinite = true ↔ ∀ x ∈ xs, ok x := by
  rw [Value.isFinite, Value.areFinite_iff]
  induction xs generalizing vs with
  | nil =>
      cases h
      simp
  | cons x xs ih =>
      rw [List.mapM_cons] at h
      obtain ⟨v, hv, h⟩ := Option.bind_eq_some_iff.1 h
      obtain ⟨rest, hrest, h⟩ := Option.bind_eq_some_iff.1 h
      cases h
      rw [List.forall_mem_cons, List.forall_mem_cons, hwrite x v hv, ih hrest]

end Record

/-! ## Fields -/

namespace Field

/-- Whether the bounds of a field are finite, and those of its elements at every depth. -/
def HasFiniteBounds (f : Field) : Prop :=
  ∀ g, f.Within g → ∀ n, g.minimum = some n ∨ g.maximum = some n → n.isFinite = true

theorem hasFiniteBounds_iff {f : Field} :
    f.HasFiniteBounds ↔
      (∀ g, f.items = some g → g.HasFiniteBounds) ∧
        ∀ n, f.minimum = some n ∨ f.maximum = some n → n.isFinite = true := by
  constructor
  · exact fun h => ⟨fun g hg inner hinner => h inner (.elements hg hinner), h f (.self f)⟩
  · rintro ⟨helements, hown⟩ g hwithin
    cases hwithin with
    | self => exact hown
    | elements hitems hinner => exact helements _ hitems g hinner

theorem hasFiniteBounds_iff_of_flat {f : Field} (h : f.items = none) :
    f.HasFiniteBounds ↔ ∀ n, f.minimum = some n ∨ f.maximum = some n → n.isFinite = true := by
  rw [hasFiniteBounds_iff, h]
  simp

mutual

/-- A field is written with finite numbers exactly if its bounds are finite. -/
theorem isFinite_write : ∀ {f : Field} {v : Value}, f.write form = some v →
    (v.isFinite = true ↔ f.HasFiniteBounds)
  | ⟨name, type, ref, description, enum, sample, format, items, default, minimum, maximum,
      required⟩, v, h => by
      rw [write] at h
      split at h
      · next choices sample' items' default' henum hsample hitems hdefault =>
          cases h
          have hchoices : Value.areFinite choices = true := by
            cases enum with
            | none =>
                cases henum
                rfl
            | some values => exact Value.areFinite_iff.2 (Value.areFinite_of_plainList henum)
          have hsampled := Record.Entry.isFinite_of_plainOption hsample
          have hdefaulted := Record.Entry.isFinite_of_plainOption hdefault
          rw [Record.isFinite_write, hasFiniteBounds_iff, ← isFinite_writeItems hitems]
          simp [Entry.same, Record.Entry.isFinite_map, hchoices, hsampled, hdefaulted,
            Value.isFinite, Record.Number.isFinite_value, or_imp, forall_and]
      · cases h

/-- The elements of a field are written with finite numbers exactly if their bounds are finite. -/
theorem isFinite_writeItems : ∀ {items : Option Field} {written : Option Value},
    writeItems form items = some written →
      (Record.Entry.IsFinite ⟨"items", "items", written⟩ ↔
        ∀ g, items = some g → g.HasFiniteBounds)
  | none, _, h => by
      cases h
      simp [Record.Entry.IsFinite]
  | some f, _, h => by
      rw [writeItems] at h
      split at h
      · next v hv =>
          cases h
          simpa [Record.Entry.isFinite_some] using isFinite_write hv
      · cases h

end

end Field

/-! ## Outlines -/

/-- Whether all bounds in a model are finite. -/
def Model.HasFiniteBounds (m : Model) : Prop := ∀ f ∈ m.fields, f.HasFiniteBounds

/-- Whether all bounds in an outline are finite. -/
def Outline.HasFiniteBounds (o : Outline) : Prop := ∀ m ∈ o.models, m.HasFiniteBounds

theorem Model.isFinite_write {m : Model} (h : m.write form = some v) :
    v.isFinite = true ↔ m.HasFiniteBounds := by
  rw [write] at h
  split at h
  · cases h
  · next fields hfields =>
      cases h
      have hall := Record.areFinite_of_mapM (fun _ _ => Field.isFinite_write) hfields
      rw [Record.isFinite_write, HasFiniteBounds, ← hall]
      simp [Entry.same, Record.Entry.isFinite_some, Record.Entry.isFinite_map, Value.isFinite]

theorem Operation.isFinite_write {op : Operation} (h : op.write form = some v) :
    v.isFinite = true := by
  rw [write] at h
  split at h
  · cases h
  · next schema hschema =>
      cases h
      have hfree := Record.Entry.isFinite_of_plainOption hschema
      rw [Record.isFinite_write]
      simp [Entry.same, Record.Entry.isFinite_some, Record.Entry.isFinite_map, Value.isFinite,
        Record.texts, Value.areFinite_iff, hfree]

theorem Node.isFinite_write {n : Node} (h : n.write form = some v) : v.isFinite = true := by
  rw [write] at h
  split at h
  · cases h
  · next operations hoperations =>
      cases h
      have hall := (Record.areFinite_of_mapM
        (fun _ _ h => iff_of_true (Operation.isFinite_write h) trivial) hoperations).2 (by simp)
      rw [Record.isFinite_write]
      simp [Entry.same, Record.Entry.isFinite_some, Record.Entry.isFinite_map, Value.isFinite,
        Record.texts, Value.areFinite_iff] at hall ⊢
      exact hall

/-- An outline is published with finite numbers exactly if its bounds are finite. -/
theorem Outline.isFinite_write {o : Outline} (h : o.write form = some v) :
    v.isFinite = true ↔ o.HasFiniteBounds := by
  rw [write] at h
  split at h
  · next models nodes hmodels hnodes =>
      cases h
      have hall := Record.areFinite_of_mapM (fun _ _ => Model.isFinite_write) hmodels
      have hrest := (Record.areFinite_of_mapM
        (fun _ _ h => iff_of_true (Node.isFinite_write h) trivial) hnodes).2 (by simp)
      rw [Record.isFinite_write, HasFiniteBounds, ← hall]
      simp [Entry.same, Record.Entry.isFinite_some, hrest]
  · cases h

end ApiOutline
