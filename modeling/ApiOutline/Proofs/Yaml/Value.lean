import ApiOutline.Proofs.Yaml.Reader
import ApiOutline.Yaml.Value

/-!
# Why a document denotes nothing

A tree of nodes denotes nothing if its shape is wrong, or if one of its scalars
has characters that its tag has no value for. `Asks` says which texts a node
wants read, and as what. The proofs follow the recursion over nodes; of several
errors one is reported, so it is enough that each of them is explained.

A value that contains itself is no error of the document, and a node that has
one within is explained by that alone.
-/

namespace ApiOutline.Yaml

theorem Fault.nearer_eq (a b : Fault) : nearer a b = a ∨ nearer a b = b := by
  unfold nearer
  split
  · exact .inr rfl
  · split
    · exact .inl rfl
    · split
      · exact .inr rfl
      · exact .inl rfl

namespace Node

variable {α β γ : Type} {tag : Tag} {found : Except Error String} {node : Node}

/-- That a node wants what is found of a text read with a tag: its own, or that of a node within
it. -/
inductive Asks (tag : Tag) (found : Except Error String) : Node → Prop where
  | scalar {text : String} (h : found = .ok text) : Asks tag found (.scalar tag text)
  | marked {number : Nat} {ms : List (Node × Node)}
      (h : scalarText (.mapping tag number ms) = found) :
      Asks tag found (.mapping tag number ms)
  | item {t : Tag} {items : List Node} {n : Node} (hn : n ∈ items) (h : Asks tag found n) :
      Asks tag found (.sequence t items)
  | key {t : Tag} {number : Nat} {ms : List (Node × Node)} {k v : Node} (hm : (k, v) ∈ ms)
      (h : Asks tag found k) : Asks tag found (.mapping t number ms)
  | value {t : Tag} {number : Nat} {ms : List (Node × Node)} {k v : Node} (hm : (k, v) ∈ ms)
      (h : Asks tag found v) : Asks tag found (.mapping t number ms)

/-- An error that is one of the shape, that stands for no tree, or that is one in a scalar of some
nodes. -/
def Explained (wanted : Tag → Except Error String → Prop) (x : Except Fault α) : Prop :=
  ∀ fault, x = .error fault →
    fault.error = .malformed ∨ fault.error = .endless ∨
      ∃ tag found, wanted tag found ∧ found.bind (Scalar.value tag) = .error fault.error

variable {wanted within : Tag → Except Error String → Prop} {x : Except Fault α}
  {y : Except Fault β}

namespace Explained

theorem ok (a : α) : Explained wanted (.ok a : Except Fault α) := by
  rintro fault ⟨⟩

theorem malformed (depth : Nat) : Explained wanted (fail depth .malformed : Except Fault α) := by
  rintro fault ⟨⟩
  exact .inl rfl

theorem endless (depth : Nat) : Explained wanted (fail depth .endless : Except Fault α) := by
  rintro fault ⟨⟩
  exact .inr (.inl rfl)

theorem mono (h : Explained within x)
    (hwanted : ∀ tag found, within tag found → wanted tag found) : Explained wanted x := by
  intro fault hfault
  rcases h fault hfault with hshape | hendless | ⟨tag, found, hwithin, hvalue⟩
  · exact .inl hshape
  · exact .inr (.inl hendless)
  · exact .inr (.inr ⟨tag, found, hwanted tag found hwithin, hvalue⟩)

theorem map (h : Explained wanted x) (f : α → β) : Explained wanted (x.map f) := by
  cases x with
  | ok a => exact ok _
  | error e =>
      rintro fault ⟨⟩
      exact h e rfl

theorem both {f : α → β → γ} (hx : Explained wanted x) (hy : Explained wanted y) :
    Explained wanted (Fault.both f x y) := by
  intro fault hfault
  unfold Fault.both at hfault
  split at hfault
  · cases hfault
  · cases hfault
    exact hy _ rfl
  · cases hfault
    exact hx _ rfl
  · next a b =>
      cases hfault
      rcases Fault.nearer_eq a b with hfirst | hsecond
      · rw [hfirst]
        exact hx a rfl
      · rw [hsecond]
        exact hy b rfl

end Explained

/-- Members of which both the ones that are taken over and the mapping's own are explained. -/
structure ExplainedEntries (wanted : Tag → Except Error String → Prop) (e : Entries) : Prop where
  merged : Explained wanted e.merged
  own : Explained wanted e.own

namespace ExplainedEntries

variable {e : Entries}

theorem mono (h : ExplainedEntries within e)
    (hwanted : ∀ tag found, within tag found → wanted tag found) : ExplainedEntries wanted e :=
  ⟨h.merged.mono hwanted, h.own.mono hwanted⟩

theorem all (h : ExplainedEntries wanted e) : Explained wanted e.all := h.merged.both h.own

theorem add {m : Except Fault (Value × Value)} (h : ExplainedEntries wanted e)
    (hm : Explained wanted m) : ExplainedEntries wanted (e.add m) :=
  ⟨h.merged, hm.both h.own⟩

theorem merge {ms : Except Fault Members} (h : ExplainedEntries wanted e)
    (hms : Explained wanted ms) : ExplainedEntries wanted (e.merge ms) :=
  ⟨hms.both h.merged, h.own⟩

end ExplainedEntries

theorem explained_scalarValue (depth : Nat) (h : wanted tag node.scalarText) :
    Explained wanted (scalarValue depth tag node) := by
  unfold scalarValue
  split
  · exact .ok _
  · next e hvalue =>
      rintro fault ⟨⟩
      exact .inr (.inr ⟨tag, _, h, hvalue⟩)

/-- A key that is read as a text is always one if it has a text. -/
theorem explained_textKey (depth : Nat) (htag : node.tag ≠ .null) :
    Explained (fun tag found => Asks tag found node) (scalarValue depth .str node) := by
  unfold scalarValue
  split
  · exact .ok _
  · next e hvalue =>
      rintro fault ⟨⟩
      cases node with
      | scalar t text => cases hvalue
      | sequence t items =>
          cases hvalue
          exact .inl rfl
      | mapping t n ms =>
          refine .inr (.inr ⟨t, _, .marked rfl, ?_⟩)
          cases hfound : scalarText (.mapping t n ms) with
          | ok text =>
              rw [hfound] at hvalue
              cases hvalue
          | error e' =>
              rw [hfound] at hvalue
              cases hvalue
              rfl
      | loop name => exact absurd rfl htag

theorem explained_member {depth : Nat} {key value : Except Fault Value}
    (hkey : Explained wanted key) (hvalue : Explained wanted value) :
    Explained wanted (member depth key value) := by
  unfold member
  refine .both ?_ hvalue
  split
  · split
    · exact .ok _
    · exact .malformed depth
  · split
    · exact .malformed depth
    · exact hkey

theorem explained_ifMergeable {depth : Nat} {ms : List (Node × Node)} (hx : Explained wanted x) :
    Explained wanted (ifMergeable depth ms x) := by
  unfold ifMergeable
  split
  · exact hx
  · exact .malformed depth

/-- What the nodes of a list want read. -/
def AskedBy (items : List Node) (tag : Tag) (found : Except Error String) : Prop :=
  ∃ n ∈ items, Asks tag found n

/-- What the keys and the values of a mapping want read. -/
def AskedIn (ms : List (Node × Node)) (tag : Tag) (found : Except Error String) : Prop :=
  ∃ m ∈ ms, Asks tag found m.1 ∨ Asks tag found m.2

theorem AskedBy.tail {n : Node} {rest : List Node} (h : AskedBy rest tag found) :
    AskedBy (n :: rest) tag found := by
  obtain ⟨m, hm, hasks⟩ := h
  exact ⟨m, List.mem_cons_of_mem n hm, hasks⟩

theorem AskedBy.asks {items : List Node} (h : AskedBy items tag found) (t : Tag) :
    Asks tag found (.sequence t items) := by
  obtain ⟨n, hn, hasks⟩ := h
  exact .item hn hasks

theorem AskedIn.tail {m : Node × Node} {rest : List (Node × Node)} (h : AskedIn rest tag found) :
    AskedIn (m :: rest) tag found := by
  obtain ⟨m', hm, hasks⟩ := h
  exact ⟨m', List.mem_cons_of_mem m hm, hasks⟩

theorem AskedIn.asks {ms : List (Node × Node)} (h : AskedIn ms tag found) (t : Tag)
    (number : Nat) : Asks tag found (.mapping t number ms) := by
  obtain ⟨⟨k, v⟩, hm, hkey | hvalue⟩ := h
  · exact .key hm hkey
  · exact .value hm hvalue

mutual

/-- If a node denotes nothing its shape is wrong, it denotes no tree, or a scalar within has no
value. -/
theorem explained_value (depth : Nat) :
    (node : Node) → Explained (fun tag found => Asks tag found node) (value depth node)
  | .scalar tag text => by
      rw [value]
      exact explained_scalarValue depth (.scalar rfl)
  | .sequence tag items => by
      rw [value.eq_def]
      simp only []
      have hitems := (explained_values (depth + 1) items).mono fun _ _ h => h.asks tag
      have hpairs := (explained_pairs (depth + 1) items).mono fun _ _ h => h.asks tag
      split
      · exact hitems.map _
      · exact hpairs.map _
      · exact hpairs.map _
      · exact .malformed _
      · exact .malformed _
      · exact .malformed _
  | .mapping tag number ms => by
      rw [value.eq_def]
      simp only []
      have hentries := ((explained_entries (depth + 1) ms).all).mono fun _ _ h => h.asks tag number
      split
      · exact explained_ifMergeable (hentries.map _)
      · exact explained_ifMergeable (hentries.map _)
      · split
        · exact .malformed _
        · exact explained_scalarValue depth (.marked rfl)
  | .loop _ => .endless _

theorem explained_values (depth : Nat) :
    (items : List Node) → Explained (AskedBy items) (values depth items)
  | [] => .ok _
  | n :: rest => by
      rw [values]
      refine .both ?_ ((explained_values depth rest).mono fun _ _ h => h.tail)
      exact (explained_value depth n).mono fun _ _ h => ⟨n, List.mem_cons_self, h⟩

theorem explained_pairs (depth : Nat) :
    (items : List Node) → Explained (AskedBy items) (pairs depth items)
  | [] => .ok _
  | n :: rest => by
      rw [pairs]
      refine .both ?_ ((explained_pairs depth rest).mono fun _ _ h => h.tail)
      exact (explained_pair depth n).mono fun _ _ h => ⟨n, List.mem_cons_self, h⟩

theorem explained_pair (depth : Nat) :
    (node : Node) → Explained (fun tag found => Asks tag found node) (pair depth node)
  | .mapping _ _ [(k, v)] => by
      rw [pair]
      refine .both ?_ ?_
      · exact (explained_value depth k).mono fun _ _ h => .key List.mem_cons_self h
      · exact (explained_value depth v).mono fun _ _ h => .value List.mem_cons_self h
  | .scalar _ _ => .malformed depth
  | .sequence _ _ => .malformed depth
  | .mapping _ _ [] => .malformed depth
  | .mapping _ _ (_ :: _ :: _) => .malformed depth
  | .loop _ => .endless _

theorem explained_entries (depth : Nat) :
    (ms : List (Node × Node)) → ExplainedEntries (AskedIn ms) (entries depth ms)
  | [] => ⟨.ok _, .ok _⟩
  | (k, v) :: rest => by
      rw [entries]
      have hrest := (explained_entries depth rest).mono fun _ _ h => h.tail (m := (k, v))
      have hkey {x : Except Fault Value}
          (hx : Explained (fun tag found => Asks tag found k) x) :
          Explained (AskedIn ((k, v) :: rest)) x :=
        hx.mono fun _ _ h => ⟨_, List.mem_cons_self, .inl h⟩
      split
      · refine hrest.merge ?_
        exact (explained_mergeSource depth v).mono fun _ _ h => ⟨_, List.mem_cons_self, .inr h⟩
      · refine hrest.add (explained_member ?_ ?_)
        · split
          · next htag =>
              exact hkey (explained_textKey depth (by rw [eq_of_beq htag]; decide))
          · exact hkey (explained_value depth k)
        · exact (explained_value depth v).mono fun _ _ h => ⟨_, List.mem_cons_self, .inr h⟩

theorem explained_mergeSource (depth : Nat) :
    (node : Node) → Explained (fun tag found => Asks tag found node) (mergeSource depth node)
  | .mapping t number ms => by
      rw [mergeSource]
      exact (explained_entries depth ms).all.mono fun _ _ h => h.asks t number
  | .sequence t items => by
      rw [mergeSource]
      exact (explained_mergeSources depth items).mono fun _ _ h => h.asks t
  | .scalar _ _ => .malformed depth
  | .loop _ => .ok _

theorem explained_mergeSources (depth : Nat) :
    (items : List Node) → Explained (AskedBy items) (mergeSources depth items)
  | [] => .ok _
  | .mapping t number ms :: rest => by
      rw [mergeSources]
      refine .both ((explained_mergeSources depth rest).mono fun _ _ h => h.tail) ?_
      have hfirst := (explained_entries depth ms).all.mono fun _ _ h => h.asks t number
      exact hfirst.mono fun _ _ h => ⟨_, List.mem_cons_self, h⟩
  | .loop _ :: rest => by
      rw [mergeSources]
      exact (explained_mergeSources depth rest).mono fun _ _ h => h.tail
  | .scalar _ _ :: _ => .malformed depth
  | .sequence _ _ :: _ => .malformed depth

end

end Node

/-- Why a text denotes nothing. Where the grammar is kept the cause can be pointed at: a place in
the text, or a scalar. -/
inductive Unreadable (text : String) : Error → Prop where
  | grammar : Unreadable text .malformed
  | place {place : List Char} {e : Error} (hplace : place <:+ text.toList) (h : ArisesAt e place) :
      Unreadable text e
  | scalar {node : Node} {tag : Tag} {found : Except Error String} {e : Error}
      (hnode : Node.ofText text = .ok (some node)) (hasks : Node.Asks tag found node)
      (h : found.bind (Scalar.value tag) = .error e) : Unreadable text e

theorem unreadable_of_read {text : String} {e : Error} (h : read text = .error e) :
    Unreadable text e := by
  unfold read at h
  split at h
  · next e' hnodes =>
      cases h
      rcases Node.error_of_ofText hnodes with rfl | hstop
      · exact .grammar
      · obtain ⟨place, hplace, harises⟩ := Token.exists_place_of_stop hstop
        exact .place hplace harises
  · cases h
  · next node hnode =>
      split at h
      · cases h
      · next fault hvalue =>
          split at h
          · cases h
          · next hfinite =>
              cases h
              rcases Node.explained_value 0 node fault hvalue with
                hshape | hendless | ⟨tag, found, hasks, hscalar⟩
              · rw [hshape]
                exact .grammar
              · exact absurd hendless hfinite
              · exact .scalar hnode hasks hscalar

end ApiOutline.Yaml
