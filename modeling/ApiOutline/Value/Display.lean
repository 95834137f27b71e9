import ApiOutline.Value.Basic

/-!
# Values in messages

A message that quotes a piece of a document shows a text as it is and every other value in a
notation of its own: words for null and the truth values, quotes around texts inside lists and
mappings, numbers as the output writes them.
-/

namespace ApiOutline.Value

/-- The parts of a date or time as an argument list, after the name of their kind. -/
private def call (name : String) (parts : List String) : String :=
  name ++ "(" ++ ", ".intercalate parts ++ ")"

/-- An offset from universal time inside a larger value. -/
def shownOffset (m : Int) : String :=
  if m = 0 then "datetime.timezone.utc"
  else
    let seconds := m * 60
    let span :=
      if seconds < 0 then ["days=-1", "seconds=" ++ Decimal.intText (seconds + 86400)]
      else ["seconds=" ++ Decimal.intText seconds]
    call "datetime.timezone" [call "datetime.timedelta" span]

/-- A day inside a larger value. -/
def shownDate (d : Date) : String :=
  call "datetime.date" ([d.year, d.month, d.day].map Decimal.natText)

/-- A moment inside a larger value: trailing zero seconds are left out. -/
def shownMoment (t : Moment) : String :=
  let fine :=
    if t.microsecond ≠ 0 then [t.second, t.microsecond]
    else if t.second ≠ 0 then [t.second]
    else []
  let parts := [t.date.year, t.date.month, t.date.day, t.hour, t.minute] ++ fine
  call "datetime.datetime" (parts.map Decimal.natText ++
    (t.offset.map fun m => "tzinfo=" ++ shownOffset m).toList)

mutual

/-- A value as it is shown inside a larger one. -/
def shown : Value → String
  | .null => "None"
  | .bool b => if b then "True" else "False"
  | .int n => Decimal.intText n
  | .float x => Decimal.plainNotation.write x
  | .str s => Text.quoted s
  | .bytes bs => Text.quotedBytes bs
  | .date d => shownDate d
  | .moment t => shownMoment t
  | .list items => "[" ++ ", ".intercalate (shownList items) ++ "]"
  | .set [] => "set()"
  | .set (v :: rest) => "\x7b" ++ ", ".intercalate (shown v :: shownList rest) ++ "\x7d"
  | .map _ ms => "\x7b" ++ ", ".intercalate (shownMembers ms) ++ "\x7d"

def shownList : List Value → List String
  | [] => []
  | v :: rest => shown v :: shownList rest

def shownMembers : List (Value × Value) → List String
  | [] => []
  | (k, v) :: rest => (shown k ++ ": " ++ shown v) :: shownMembers rest

end

/-- A value as it is shown on its own: texts, days and moments without quotes. -/
def display : Value → String
  | .str s => s
  | .date d => d.text
  | .moment t => t.textWith " "
  | v => v.shown

end ApiOutline.Value
