import ApiOutline.Failure
import ApiOutline.Pattern.Replace
import ApiOutline.Settings
import ApiOutline.Template

/-!
# Endpoints

An `Endpoint` is a template as the document writes it together with the form that the rules of the
conventions give it. Everything said about an endpoint is said about that second form; the first
one only tells whether the trailing parameter was there from the start.
-/

namespace ApiOutline

/-- A template before and after the rules are applied. -/
structure Endpoint where
  raw : String
  template : String
  deriving Repr, DecidableEq

namespace Endpoint

/-- Applies rules in order, each to the result of those before it. -/
def applyRules : List Rule → String → Except Failure String
  | [], t => .ok t
  | r :: rest, t =>
      match Pattern.replaceFirst r.pattern r.replacement t with
      | .error e => .error (.pattern e)
      | .ok t => applyRules rest t

/-- The endpoint of a template. -/
def ofTemplate (rules : List Rule) (raw : String) : Except Failure Endpoint :=
  match applyRules rules raw with
  | .error e => .error e
  | .ok t => .ok ⟨raw, t⟩

def segments (e : Endpoint) : List String := Template.segments e.template

def isParameterized (e : Endpoint) : Bool := Template.isParameterized e.template

def parameter (e : Endpoint) : Option String := Template.trailingParameter e.template

/-- Whether a rule introduced the trailing parameter. -/
def isFromRule (e : Endpoint) : Bool :=
  e.isParameterized && !Template.isParameterized e.raw

/-- The value of the trailing parameter when none is given, by the segment before it. Where a rule
introduced the parameter, that is the version the rule replaced. -/
def defaultParameter (e : Endpoint) (c : Conventions) : Option String :=
  if e.isParameterized then
    match e.segments.getLast? with
    | none => none
    | some before =>
        if e.isFromRule then c.versionDefaults.lookup before else c.parameterDefaults.lookup before
  else none

end Endpoint

end ApiOutline
