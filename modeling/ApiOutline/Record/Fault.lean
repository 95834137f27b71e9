/-!
# Why a value is no record

A record is read from a value member by member, and all faults are reported together, each with
the way to its place. `Checked` is the result of reading: it combines like a product, so that two
readings that both fail leave the faults of both, in order.
-/

namespace ApiOutline.Record

/-- What is read as a record. -/
inductive Kind where
  | rule
  | conventions
  | outputSettings
  | settings
  | field
  | model
  | operation
  | node
  | outline
  deriving Repr, DecidableEq

/-- One step on the way into a value: a member by name, or an element by number. -/
inductive Step where
  | member (name : String)
  | element (index : Int)
  deriving Repr, DecidableEq

/-- What is wrong at a place. -/
inductive FaultKind where
  | missing
  | notText
  | notUnicode
  | notRecord
  | notList
  | notTuple
  | notMapping
  | notInteger
  | unreadableInteger
  | oversizedInteger
  | fractionalInteger
  | notFinite
  | notNumber
  | unreadableNumber
  | notTruthValue
  | unreadableTruthValue
  deriving Repr, DecidableEq

/-- What a message says of the place. -/
def FaultKind.text : FaultKind → String
  | .missing => "is missing"
  | .notText => "is no text"
  | .notUnicode => "encodes no text"
  | .notRecord => "is no record"
  | .notList | .notTuple => "is no list"
  | .notMapping => "is no mapping"
  | .notInteger => "is no integer"
  | .unreadableInteger => "does not read as an integer"
  | .oversizedInteger => "has too many digits"
  | .fractionalInteger => "has a fraction"
  | .notFinite => "is not finite"
  | .notNumber => "is no number"
  | .unreadableNumber => "does not read as a number"
  | .notTruthValue => "is no truth value"
  | .unreadableTruthValue => "does not read as a truth value"

/-- A fault and the way to its place, outermost step first. -/
structure Fault where
  path : List Step
  kind : FaultKind
  deriving Repr, DecidableEq

/-- The result of reading: what was read, or everything that is wrong. -/
inductive Checked (α : Type) where
  | accepted (a : α)
  | refused (faults : List Fault)
  deriving Repr, DecidableEq

namespace Checked

variable {α β γ : Type}

def map (f : α → β) : Checked α → Checked β
  | .accepted a => .accepted (f a)
  | .refused fs => .refused fs

/-- Two readings side by side. The faults of the first come first. -/
def both : Checked (α → β) → Checked α → Checked β
  | .accepted f, .accepted a => .accepted (f a)
  | .accepted _, .refused fs => .refused fs
  | .refused fs, .accepted _ => .refused fs
  | .refused fs, .refused gs => .refused (fs ++ gs)

instance : Applicative Checked where
  pure := .accepted
  map := map
  seq f a := both f (a ())

/-- A reading that stands one step further in. -/
def under (step : Step) : Checked α → Checked α
  | .accepted a => .accepted a
  | .refused fs => .refused (fs.map fun f => { f with path := step :: f.path })

/-- A reading that fails in one way. -/
def fault (kind : FaultKind) : Checked α :=
  .refused [⟨[], kind⟩]

/-- Readings one after the other, numbered from `index`. -/
def elements (read : α → Checked β) (index : Int) : List α → Checked (List β)
  | [] => .accepted []
  | a :: rest => List.cons <$> (read a).under (.element index) <*> elements read (index + 1) rest

@[simp] theorem pure_eq (a : α) : (pure a : Checked α) = .accepted a := rfl

@[simp] theorem map_accepted (f : α → β) (a : α) : f <$> (Checked.accepted a) = .accepted (f a) :=
  rfl

@[simp] theorem map_refused (f : α → β) (fs : List Fault) :
    f <$> (Checked.refused fs : Checked α) = .refused fs :=
  rfl

@[simp] theorem seq_accepted (f : α → β) (a : α) :
    (Checked.accepted f) <*> (Checked.accepted a) = .accepted (f a) :=
  rfl

@[simp] theorem under_accepted (step : Step) (a : α) :
    (Checked.accepted a).under step = .accepted a :=
  rfl

/-- Side by side, both readings have to succeed. -/
theorem both_eq_accepted {f : Checked (α → β)} {a : Checked α} {b : β}
    (h : f <*> a = .accepted b) :
    ∃ g x, f = .accepted g ∧ a = .accepted x ∧ g x = b := by
  cases f <;> cases a <;> simp_all [Seq.seq, both]

end Checked

end ApiOutline.Record
