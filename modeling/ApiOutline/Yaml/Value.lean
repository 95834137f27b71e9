import ApiOutline.Yaml.Node
import ApiOutline.Yaml.Scalar

/-!
# What documents denote

A mapping becomes a mapping whose cell is the number of its node, so that it stays one mapping
wherever it stands. The members of mappings under the key `<<` are put in front of those that the
mapping has itself.

If several nodes denote nothing, the error of the one nearest to the root is reported, and of
equally near ones that of the first; members that a mapping takes over are looked at before its own.
Only if nothing else is wrong does it count that a value contains itself. A document that does so
denotes no tree, and all that is kept of it is of which kind it is.
-/

namespace ApiOutline.Yaml

/-- An error and how far from the root it arose. -/
structure Fault where
  depth : Nat
  error : Error
  deriving Repr, DecidableEq

namespace Fault

/-- The error that is reported of two. -/
def nearer (a b : Fault) : Fault :=
  if a.error = .endless then b
  else if b.error = .endless then a
  else if b.depth < a.depth then b
  else a

/-- Two results side by side. -/
def both {α β γ : Type} (f : α → β → γ) : Except Fault α → Except Fault β → Except Fault γ
  | .ok a, .ok b => .ok (f a b)
  | .ok _, .error e => .error e
  | .error e, .ok _ => .error e
  | .error a, .error b => .error (nearer a b)

end Fault

namespace Node

/-- An error at a depth. -/
def fail {α : Type} (depth : Nat) (e : Error) : Except Fault α := .error ⟨depth, e⟩

/-- The members that a mapping takes over from others, and those of its own. -/
structure Entries where
  merged : Except Fault Members
  own : Except Fault Members

def Entries.all (e : Entries) : Except Fault Members := Fault.both (· ++ ·) e.merged e.own

/-- A member in front of others. -/
def Entries.add (m : Except Fault (Value × Value)) (e : Entries) : Entries :=
  ⟨e.merged, Fault.both List.cons m e.own⟩

/-- Members taken over in front of others. -/
def Entries.merge (ms : Except Fault Members) (e : Entries) : Entries :=
  ⟨Fault.both (· ++ ·) ms e.merged, e.own⟩

/-- A member whose key can be one. What is within a key does not matter: a value with an inside
cannot be one. -/
def member (depth : Nat) (key value : Except Fault Value) : Except Fault (Value × Value) :=
  let key : Except Fault Value :=
    match key with
    | .ok k => if k.isKey then .ok k else fail depth .malformed
    | .error e => if depth < e.depth then fail depth .malformed else .error e
  Fault.both Prod.mk key value

/-- The text of a node where a scalar is expected. A mapping may have one under the key `=`. -/
def scalarText : Node → Except Error String
  | .scalar _ text => .ok text
  | .sequence _ _ => .error .malformed
  | .mapping _ _ ms => textIn ms
  | .loop _ => .error .circular
where
  textIn : List (Node × Node) → Except Error String
    | [] => .error .malformed
    | (k, v) :: rest => if k.tag == .value then scalarText v else textIn rest

/-- The value of a node where a scalar is expected. -/
def scalarValue (depth : Nat) (tag : Tag) (node : Node) : Except Fault Value :=
  match node.scalarText.bind (Scalar.value tag) with
  | .ok v => .ok v
  | .error e => fail depth e

mutual

/-- Whether everything under a merge key is a mapping or a sequence of mappings. Only collections
are loops, and those of the wrong kind have been found before they come round. -/
def canMerge : List (Node × Node) → Bool
  | [] => true
  | (k, v) :: rest => (k.tag != .merge || isSource v) && canMerge rest

def isSource : Node → Bool
  | .mapping _ _ ms => canMerge ms
  | .sequence _ items => areSources items
  | .scalar _ _ => false
  | .loop _ => true

def areSources : List Node → Bool
  | [] => true
  | .mapping _ _ ms :: rest => canMerge ms && areSources rest
  | .loop _ :: rest => areSources rest
  | _ :: _ => false

end

/-- The result for a mapping whose merge keys are looked at before any member. -/
def ifMergeable {α : Type} (depth : Nat) (ms : List (Node × Node)) (result : Except Fault α) :
    Except Fault α :=
  if canMerge ms then result else fail depth .malformed

mutual

/-- The value of a node. -/
def value (depth : Nat) : Node → Except Fault Value
  | .scalar tag text => scalarValue depth tag (.scalar tag text)
  | .sequence tag items =>
      match tag with
      | .seq => (values (depth + 1) items).map .list
      | .omap | .pairs => (pairs (depth + 1) items).map .list
      | .map | .set => fail (depth + 1) .malformed
      | _ => fail depth .malformed
  | .mapping tag number ms =>
      match tag with
      | .map =>
          ifMergeable (depth + 1) ms
            ((entries (depth + 1) ms).all.map fun ms => .map (some number) (Members.ofList ms))
      | .set =>
          ifMergeable (depth + 1) ms
            ((entries (depth + 1) ms).all.map fun ms => .set ((Members.ofList ms).map (·.1)))
      | tag =>
          if tag == .seq || tag == .omap || tag == .pairs then fail (depth + 1) .malformed
          else scalarValue depth tag (.mapping tag number ms)
  | .loop _ => fail (depth + 1) .endless

def values (depth : Nat) : List Node → Except Fault (List Value)
  | [] => .ok []
  | n :: rest => Fault.both List.cons (value depth n) (values depth rest)

/-- A sequence of mappings of one member each, as a list of pairs. -/
def pairs (depth : Nat) : List Node → Except Fault (List Value)
  | [] => .ok []
  | n :: rest => Fault.both List.cons (pair depth n) (pairs depth rest)

def pair (depth : Nat) : Node → Except Fault Value
  | .mapping _ _ [(k, v)] => Fault.both (fun k v => .list [k, v]) (value depth k) (value depth v)
  | .loop _ => fail (depth + 1) .endless
  | _ => fail depth .malformed

/-- The members of a mapping. -/
def entries (depth : Nat) : List (Node × Node) → Entries
  | [] => ⟨.ok [], .ok []⟩
  | (k, v) :: rest =>
      if k.tag == .merge then (entries depth rest).merge (mergeSource depth v)
      else
        let key :=
          if k.tag == .value then scalarValue depth .str k else value depth k
        (entries depth rest).add (member depth key (value depth v))

/-- The members that a mapping, or a sequence of mappings, gives to the mapping that merges it. Of
several mappings the later ones go first, so that the earlier ones win. A mapping that comes round
to itself has given its members already. -/
def mergeSource (depth : Nat) : Node → Except Fault Members
  | .mapping _ _ ms => (entries depth ms).all
  | .sequence _ items => mergeSources depth items
  | .scalar _ _ => fail depth .malformed
  | .loop _ => .ok []

def mergeSources (depth : Nat) : List Node → Except Fault Members
  | [] => .ok []
  | .mapping _ _ ms :: rest =>
      Fault.both (· ++ ·) (mergeSources depth rest) (entries depth ms).all
  | .loop _ :: rest => mergeSources depth rest
  | _ :: _ => fail depth .malformed

end

/-- The value of a collection without anything in it. -/
def hollow : Node → Value
  | .sequence _ _ => .list []
  | .mapping .set _ _ => .set []
  | .mapping _ _ _ => .ofMembers []
  | .scalar _ _ | .loop _ => .null

end Node

/-- What a document denotes: a value, or one that contains itself, of which only the kind is
kept. -/
inductive Denoted where
  | tree (v : Value)
  | endless (root : Value)

/-- What the only document of a text denotes, null if there is none. -/
def read (text : String) : Except Error Denoted :=
  match Node.ofText text with
  | .error e => .error e
  | .ok none => .ok (.tree .null)
  | .ok (some node) =>
      match node.value 0 with
      | .ok v => .ok (.tree v)
      | .error fault =>
          if fault.error = .endless then .ok (.endless node.hollow) else .error fault.error

end ApiOutline.Yaml
