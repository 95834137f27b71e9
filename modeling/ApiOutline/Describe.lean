import ApiOutline.Outline
import ApiOutline.Schema.Extract
import ApiOutline.Tree.Basic

/-!
# The outline of a document

The path tree is built first: an operation without a usable response stops everything before a
model is looked at.
-/

namespace ApiOutline.Outline

/-- The outline of a document under some conventions. -/
def ofDocument (c : Conventions) (document : Value) : Logged Outline := do
  let nodes ← Tree.ofDocument c document
  let models ← Schema.models document
  return ⟨models, nodes⟩

end ApiOutline.Outline
