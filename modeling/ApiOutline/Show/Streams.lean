import ApiOutline.Action

/-!
# The two streams

Events become text on two streams: data on one, messages and notes on the other. Notes that only
matter to those who follow the work in detail are left out unless they are asked for.
-/

namespace ApiOutline.Show

/-- What stands on the output and beside it. -/
structure Streams where
  output : String
  messages : String
  deriving Repr, DecidableEq

/-- The line for a note. -/
def noteLine (n : Note) : String :=
  (match n.severity with
    | .detail => "DEBUG "
    | .warning => "WARNING ") ++ n.area ++ ": " ++ n.text ++ "\n"

namespace Streams

/-- What an event adds to the output. -/
def outputText : Event → String
  | .data text => text
  | _ => ""

/-- What an event adds to the messages. -/
def messageText (isDetailed : Bool) : Event → String
  | .data _ => ""
  | .message text => text
  | .note n => if isDetailed || n.severity == .warning then noteLine n else ""

/-- The streams that events make, in their order. -/
def ofEvents (isDetailed : Bool) (es : List Event) : Streams where
  output := String.join (es.map outputText)
  messages := String.join (es.map (messageText isDetailed))

end Streams

end ApiOutline.Show
