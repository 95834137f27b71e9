import ApiOutline.Failure
import ApiOutline.Value.Display

/-!
# Names of models

The names of generated models are made from operation ids and references: the first letter may
change its case, and of a reference only the part after its last slash counts. The case of a letter
is that of the full mappings, so one letter may become two.

A document may hold something else where a name is expected. What happens then is stated here too,
because the two kinds of failure are told apart.
-/

namespace ApiOutline.Naming

/-- A text with its first letter in upper case. -/
def capitalizeFirst (s : String) : String :=
  match s.toList with
  | [] => s
  | c :: rest => String.ofList (Text.upperChar c ++ rest)

/-- A text with its first letter in lower case. -/
def lowerFirst (s : String) : String :=
  match s.toList with
  | [] => s
  | c :: rest => String.ofList (Text.lowerChar c ++ rest)

/-- The part of a reference after its last slash. -/
def refName (ref : String) : String :=
  String.ofList ((ref.toList.reverse.takeWhile (· != '/')).reverse)

/-- The name that a value refers to. Only a text refers to anything. -/
def refNameOf : Value → Except Failure String
  | .str ref => .ok (refName ref)
  | .bytes _ => .error .wrongKind
  | _ => .error .noMembers

/-- The name of a model after an operation, by the operation's id. -/
def modelName (operationId : Value) (suffix : String) : Except Failure String :=
  match operationId with
  | .str s => .ok (capitalizeFirst s ++ suffix)
  | .list _ => .error .noMembers
  | _ => .error .wrongKind

end ApiOutline.Naming
