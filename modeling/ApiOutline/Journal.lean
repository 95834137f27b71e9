import ApiOutline.Failure
import ApiOutline.Operation

/-!
# Steps that keep a journal

Building an outline leaves notes: most only for those who follow the work in detail, some as
warnings. A note is data, and its wording is a function of it, so that statements about what was
dropped can be made about the notes themselves.

`Logged` is a computation with its notes. The notes made before a failure are kept with it.
-/

namespace ApiOutline

/-- What is noted. -/
inductive Note where
  | loaded (characters : Nat) (source : String)
  | retried (reason : String)
  | usingSettings (path : String)
  | usingProjectSettings (path : String)
  | endpoint (template : String)
  | operation (method target : String)
  | dropped (template path : String) (op : Operation)
  | bridge (path : String) (parameter fallback source : Option String)
  | unnamed (method template : String)

/-- How much a note matters. -/
inductive Severity where
  | detail
  | warning
  deriving Repr, DecidableEq

namespace Note

def severity : Note → Severity
  | .dropped .. => .warning
  | .unnamed .. => .warning
  | _ => .detail

/-- The part of the program that a note is attributed to. -/
def area : Note → String
  | .loaded .. => "apitree.parser.loader"
  | .retried .. => "apitree.parser.loader"
  | .usingSettings .. => "apitree.config"
  | .usingProjectSettings .. => "apitree.config"
  | .endpoint .. => "apitree.paths.merger"
  | .operation .. => "apitree.paths.operations"
  | .dropped .. => "apitree.paths.merger"
  | .bridge .. => "apitree.paths.bridge"
  | .unnamed .. => "apitree.parser.schemas"

/-- An optional text in a note. -/
private def orNone (s : Option String) : String := s.getD "None"

def text : Note → String
  | .loaded n source => "loaded " ++ toString n ++ " bytes from " ++ source
  | .retried reason => "not JSON, trying YAML: " ++ reason
  | .usingSettings path => "using config " ++ path
  | .usingProjectSettings path => "using project config " ++ path
  | .endpoint template => "processing endpoint " ++ template
  | .operation method target => "processing HTTP " ++ method ++ " " ++ target
  | .dropped template path op =>
      "dropping " ++ Text.upper op.method ++ " " ++ template ++ ": " ++ path ++
        " already has a " ++ Text.quoted op.role ++ " operation"
  | .bridge path parameter fallback source =>
      "bridge " ++ path ++ " (parameter=" ++ orNone parameter ++ ", default=" ++
        orNone fallback ++ ") from " ++ orNone source
  | .unnamed method template => Text.upper method ++ " " ++ template ++ " has no operationId"

end Note

/-- The result of a computation and the notes made on the way to it. -/
structure Logged (α : Type) where
  notes : List Note
  result : Except Failure α

namespace Logged

variable {α β : Type}

/-- The second computation follows the first if that succeeds, and so do its notes. -/
def bind (x : Logged α) (f : α → Logged β) : Logged β :=
  match x.result with
  | .ok a => ⟨x.notes ++ (f a).notes, (f a).result⟩
  | .error e => ⟨x.notes, .error e⟩

instance : Monad Logged where
  pure a := ⟨[], .ok a⟩
  bind := bind

/-- A computation that only notes something. -/
def note (n : Note) : Logged Unit := ⟨[n], .ok ()⟩

/-- A computation without notes. -/
def ofExcept (x : Except Failure α) : Logged α := ⟨[], x⟩

/-- A computation that fails. -/
def fail (e : Failure) : Logged α := ⟨[], .error e⟩

/-- The notes that are warnings. -/
def warnings (x : Logged α) : List Note :=
  x.notes.filter fun n => n.severity == .warning

@[simp] theorem result_pure (a : α) : (pure a : Logged α).result = .ok a := rfl

@[simp] theorem notes_pure (a : α) : (pure a : Logged α).notes = [] := rfl

@[simp] theorem result_ofExcept (x : Except Failure α) : (ofExcept x).result = x := rfl

@[simp] theorem notes_ofExcept (x : Except Failure α) : (ofExcept x).notes = [] := rfl

/-- Forgetting the notes is compatible with sequencing. -/
@[simp] theorem result_bind (x : Logged α) (f : α → Logged β) :
    (x >>= f).result = x.result >>= fun a => (f a).result := by
  simp only [Bind.bind, bind]
  cases x.result <;> rfl

theorem notes_bind_of_ok {x : Logged α} {a : α} (f : α → Logged β) (h : x.result = .ok a) :
    (x >>= f).notes = x.notes ++ (f a).notes := by
  simp only [Bind.bind, bind, h]

end Logged

end ApiOutline
