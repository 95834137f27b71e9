import ApiOutline.Yaml.Tag
import ApiOutline.Yaml.Token.Lexer

/-!
# Nodes

A document is a tree of nodes: scalars, sequences and mappings, each with a tag. A node may be
given a name, and stand under that name in further places. Mappings carry a number, so that one
that stands in several places can be told from equal ones.

The tree is read from the tokens by one function per construct. What is missing between two signs
is an empty scalar.

A name that is used inside the node that it names stands for a node that is not complete yet, and
that would make an endless tree. Such a place is a `loop`. When the document has been read, the
nodes that are named take the places of the loops, so many times that a way through more of them
passes one twice.
-/

namespace ApiOutline.Yaml

inductive Node where
  | scalar (tag : Tag) (text : String)
  | sequence (tag : Tag) (items : List Node)
  | mapping (tag : Tag) (number : Nat) (members : List (Node × Node))
  /-- A node that this place is in, by its name. -/
  | loop (name : String)

namespace Node

/-- The scalar that stands where nothing is written. -/
def empty : Node := .scalar .null ""

/-- The tag of a node. A loop stands for a collection, and whether that is a sign for keys does not
matter: a mapping with such a tag has no members. -/
def tag : Node → Tag
  | .scalar t _ | .sequence t _ | .mapping t _ _ => t
  | .loop _ => .null

mutual

/-- A node in which other nodes take the places of the loops. -/
def replace (found : String → Node) : Node → Node
  | .scalar t text => .scalar t text
  | .sequence t items => .sequence t (replaceAll found items)
  | .mapping t n ms => .mapping t n (replaceIn found ms)
  | .loop name => found name

def replaceAll (found : String → Node) : List Node → List Node
  | [] => []
  | node :: rest => replace found node :: replaceAll found rest

def replaceIn (found : String → Node) : List (Node × Node) → List (Node × Node)
  | [] => []
  | (k, v) :: rest => (replace found k, replace found v) :: replaceIn found rest

end

/-- A node in which the loops have been followed so many times. -/
def unrolled (found : String → Node) : Nat → Node → Node
  | 0, node => node
  | times + 1, node => node.replace fun name => unrolled found times (found name)

/-- What is known while a document is read. -/
structure Reading where
  tokens : List Token
  /-- What is wrong after the last token. -/
  stop : Option Error
  handles : List (String × String)
  /-- The named nodes; one that is not complete yet is none. -/
  named : List (String × Option Node)
  /-- The number of the next mapping. -/
  fresh : Nat
  /-- The names that stand within the nodes that they name. -/
  loops : List String

abbrev Reader := StateT Reading (Except Error)

namespace Reader

/-- The next token. Past the last one stands whatever stopped the lexer. -/
def peek : Reader (Option Token) := do
  let r ← get
  match r.tokens, r.stop with
  | t :: _, _ => return some t
  | [], none => return none
  | [], some e => throw e

/-- Whether the next token is one of a kind. The end of the text is of none. -/
def sees (p : Token → Bool) : Reader Bool := do
  return (← peek).any p

/-- Passes over a token. -/
def skip : Reader Unit :=
  modify fun r => { r with tokens := r.tokens.drop 1 }

/-- Passes over the next token if it is this one. -/
def accept (t : Token) : Reader Bool := do
  if ← sees (· == t) then
    skip
    return true
  else return false

def expect (t : Token) : Reader Unit := do
  if !(← accept t) then throw .malformed

/-- The name given to the node that follows, if it has one. -/
def anchor? : Reader (Option String) := do
  match ← peek with
  | some (.anchor name) =>
      skip
      return some name
  | _ => return none

/-- The address of the tag written before a node, if there is one. -/
def tag? : Reader (Option String) := do
  match ← peek with
  | some (.tag handle suffix) =>
      skip
      match handle with
      | none => return some suffix
      | some h =>
          match (← get).handles.lookup h with
          | some start => return some (start ++ suffix)
          | none => throw .malformed
  | _ => return none

/-- A name and a tag, in either order. -/
def properties : Reader (Option String × Option String) := do
  match ← anchor? with
  | some name => return (some name, ← tag?)
  | none =>
      let tag ← tag?
      return (← anchor?, tag)

/-- Gives a name to a node that is not complete yet. A name is given once. -/
def reserve (name : Option String) : Reader Unit := do
  match name with
  | none => return
  | some n =>
      if ((← get).named.lookup n).isSome then throw .malformed
      else modify fun r => { r with named := (n, none) :: r.named }

/-- Completes a named node. -/
def complete (name : Option String) (node : Node) : Reader Node := do
  match name with
  | none => return node
  | some n =>
      modify fun r => { r with named := (n, some node) :: r.named }
      return node

/-- The node that a name stands for. -/
def named (name : String) : Reader Node := do
  match (← get).named.lookup name with
  | none => throw .malformed
  | some (some node) => return node
  | some none =>
      modify fun r => { r with loops := r.loops.insert name }
      return .loop name

/-- A number for a mapping. -/
def number : Reader Nat := do
  let n := (← get).fresh
  modify fun r => { r with fresh := n + 1 }
  return n

/-- The tag of a scalar. One exclamation mark asks for the tag that a plain scalar would have. -/
def scalarTag (address : Option String) (plain : Bool) (text : String) : Tag :=
  match address with
  | none => if plain then .ofPlain text.toList else .str
  | some "!" => .ofPlain text.toList
  | some a => .ofAddress a

/-- The tag of a sequence or a mapping. -/
def collectionTag (address : Option String) (default : Tag) : Tag :=
  match address with
  | none | some "!" => default
  | some a => .ofAddress a

/-- Whether nothing stands between an entry's dash and what comes next. -/
def endsEntry (t : Token) : Bool := t == .blockEntry || t == .blockEnd

/-- Whether nothing stands in the place of a key or a value of a block mapping. -/
def endsMember (t : Token) : Bool := t == .key || t == .value || t == .blockEnd

/-- Where an entry of a sequence without indentation of its own is empty. -/
def endsIndentless (t : Token) : Bool := t == .blockEntry || endsMember t

/-- Whether nothing stands in the place of a value inside brackets. -/
def endsIn (close : Token) (t : Token) : Bool := t == .flowEntry || t == close

/-- Whether nothing stands in the place of a key inside brackets. -/
def endsKeyIn (close : Token) (t : Token) : Bool := t == .value || endsIn close t

mutual

/-- A node, or an empty scalar if the next token says that nothing is written. At the end of the
text something is expected. -/
def nodeUnless : Nat → (isEmpty : Token → Bool) → (inBlock indentless : Bool) → Reader Node
  | 0, _, _, _ => throw .malformed
  | fuel + 1, isEmpty, inBlock, indentless => do
      if ← sees isEmpty then return empty else node fuel inBlock indentless

/-- A node. In block style a block may begin here; as the value of a member also a sequence whose
dashes stand below the key. -/
def node : Nat → (inBlock indentless : Bool) → Reader Node
  | 0, _, _ => throw .malformed
  | fuel + 1, inBlock, indentless => do
      match ← peek with
      | some (.alias name) =>
          skip
          named name
      | _ =>
          let (name, address) ← properties
          let isBare := name.isNone && address.isNone
          let sequenceOf (items : Reader (List Node)) : Reader Node := do
            reserve name
            complete name (.sequence (collectionTag address .seq) (← items))
          let mappingOf (members : Reader (List (Node × Node))) : Reader Node := do
            reserve name
            let n ← number
            complete name (.mapping (collectionTag address .map) n (← members))
          match ← peek with
          | some .blockEntry =>
              if indentless then sequenceOf (indentlessItems fuel)
              else if isBare then throw .malformed
              else
                reserve name
                complete name (.scalar (scalarTag address true "") "")
          | some (.scalar text plain) =>
              skip
              reserve name
              complete name (.scalar (scalarTag address plain text) text)
          | some .flowSequence =>
              skip
              sequenceOf (flowItems fuel true)
          | some .flowMapping =>
              skip
              mappingOf (flowMembers fuel true)
          | t =>
              if inBlock && t == some .blockSequence then
                skip
                sequenceOf (blockItems fuel)
              else if inBlock && t == some .blockMapping then
                skip
                mappingOf (blockMembers fuel)
              else if isBare then throw .malformed
              else
                reserve name
                complete name (.scalar (scalarTag address true "") "")

/-- The entries of a block sequence. -/
def blockItems : Nat → Reader (List Node)
  | 0 => throw .malformed
  | fuel + 1 => do
      if ← accept .blockEntry then
        let item ← nodeUnless fuel endsEntry true false
        return item :: (← blockItems fuel)
      else
        expect .blockEnd
        return []

/-- The entries of a sequence without indentation of its own. -/
def indentlessItems : Nat → Reader (List Node)
  | 0 => throw .malformed
  | fuel + 1 => do
      if ← accept .blockEntry then
        let item ← nodeUnless fuel endsIndentless true false
        return item :: (← indentlessItems fuel)
      else return []

/-- The members of a block mapping. -/
def blockMembers : Nat → Reader (List (Node × Node))
  | 0 => throw .malformed
  | fuel + 1 => do
      if ← accept .key then
        let k ← nodeUnless fuel endsMember true true
        let v ← valueIf fuel endsMember true true
        return (k, v) :: (← blockMembers fuel)
      else
        expect .blockEnd
        return []

/-- The value after a colon, or an empty scalar if there is no colon. -/
def valueIf : Nat → (isEmpty : Token → Bool) → (inBlock indentless : Bool) → Reader Node
  | 0, _, _, _ => throw .malformed
  | fuel + 1, isEmpty, inBlock, indentless => do
      if ← accept .value then nodeUnless fuel isEmpty inBlock indentless else return empty

/-- The entries of a sequence in brackets. An entry with a key is a mapping of one member. -/
def flowItems : Nat → (isFirst : Bool) → Reader (List Node)
  | 0, _ => throw .malformed
  | fuel + 1, isFirst => do
      if ← accept .flowSequenceEnd then return []
      else
        if !isFirst then expect .flowEntry
        if ← accept .key then
          let n ← number
          let k ← nodeUnless fuel (endsKeyIn .flowSequenceEnd) false false
          let v ← valueIf fuel (endsIn .flowSequenceEnd) false false
          return .mapping .map n [(k, v)] :: (← flowItems fuel false)
        else if ← accept .flowSequenceEnd then return []
        else
          let item ← node fuel false false
          return item :: (← flowItems fuel false)

/-- The members of a mapping in brackets. A key may stand alone. -/
def flowMembers : Nat → (isFirst : Bool) → Reader (List (Node × Node))
  | 0, _ => throw .malformed
  | fuel + 1, isFirst => do
      if ← accept .flowMappingEnd then return []
      else
        if !isFirst then expect .flowEntry
        if ← accept .key then
          let k ← nodeUnless fuel (endsKeyIn .flowMappingEnd) false false
          let v ← valueIf fuel (endsIn .flowMappingEnd) false false
          return (k, v) :: (← flowMembers fuel false)
        else if ← accept .flowMappingEnd then return []
        else
          let k ← node fuel false false
          return (k, empty) :: (← flowMembers fuel false)

end

/-- The handles that need no directive. -/
def defaultHandles : List (String × String) :=
  [("!", "!"), ("!!", Tag.standardStart)]

/-- The handles that directives give a meaning to. The version is 1 in all its parts, and neither
it nor a handle is fixed twice. -/
def directives : Nat → Bool → List (String × String) → Reader (List (String × String))
  | 0, _, _ => throw .malformed
  | fuel + 1, hasVersion, handles => do
      match ← peek with
      | some (.directive (.version major)) =>
          skip
          if hasVersion || major != 1 then throw .malformed
          else directives fuel true handles
      | some (.directive (.tag handle start)) =>
          skip
          if (handles.lookup handle).isSome then throw .malformed
          else directives fuel hasVersion ((handle, start) :: handles)
      | some (.directive .other) =>
          skip
          directives fuel hasVersion handles
      | _ => return handles

/-- Whether a token ends or begins a document. -/
def isDocumentSign : Token → Bool
  | .directive _ | .documentStart | .documentEnd => true
  | _ => false

/-- Passes over marks of the end of a document. -/
def skipEnds : Nat → Reader Unit
  | 0 => return
  | fuel + 1 => do
      if ← accept .documentEnd then skipEnds fuel

/-- The only document of a text, if there is one. A second one is an error. -/
def document (fuel : Nat) : Reader (Option Node) := do
  let first ← peek
  let opens :=
    match first with
    | some (.directive _) | some .documentStart => true
    | _ => false
  if first.isNone then return none
  else
    let root ←
      if opens then
        let handles ← directives fuel false []
        modify fun r => { r with handles := handles ++ defaultHandles }
        expect .documentStart
        match ← peek with
        | none => pure empty
        | some t => if isDocumentSign t then pure empty else node fuel true false
      else node fuel true false
    skipEnds fuel
    match ← peek with
    | none => return some root
    | some _ => throw .malformed

end Reader

/-- The node that has a name in the end. -/
def Reading.found (r : Reading) (name : String) : Node :=
  ((r.named.lookup name).join).getD empty

/-- The only document of a text, if it holds one. -/
def ofText (text : String) : Except Error (Option Node) :=
  let (tokens, stop) := Token.ofText text.toList
  let fuel := 4 * tokens.length + 8
  match (Reader.document fuel).run ⟨tokens, stop, Reader.defaultHandles, [], 0, []⟩ with
  | .error e => .error e
  | .ok (node, r) => .ok (node.map (unrolled r.found r.loops.length))

end Node

end ApiOutline.Yaml
