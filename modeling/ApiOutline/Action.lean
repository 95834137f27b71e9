import ApiOutline.Files.Tree
import ApiOutline.Journal

/-!
# Actions

A command runs on a host: it looks at the host's files, variables and input, changes files, and
shows things. An `Action` is such a computation. What it shows is kept as events in their order, so
that statements about what a command printed, and when, are statements about a list.

What an action has changed and shown before it fails stays changed and shown.
-/

namespace ApiOutline

/-- What a server answers to a request for a document. -/
inductive Reply where
  | failed (reason : String)
  | response (status : Nat) (contentType : Option String) (body : List UInt8)
  deriving Repr, DecidableEq

/-- A way to read bytes as text. Some bytes are none to it. -/
abbrev Codec := List UInt8 → Option String

/-- What a command finds where it runs. -/
structure Host where
  files : Files
  /-- The current directory. -/
  directory : Place
  environment : List (String × String)
  /-- The homes of the users that the system knows, each with the user's name. -/
  homes : List (String × String) := []
  /-- The home that the system knows of the user who runs the command. -/
  ownHome : Option String := none
  /-- The name of the operating system. -/
  system : String
  input : List UInt8
  reply : Reply
  /-- The codecs that the system knows besides those that are told apart here, by their names. -/
  codecs : List (String × Codec) := []
  /-- The time, as it is written into names. -/
  clock : String
  /-- Whether the output goes to a terminal. -/
  isTerminal : Bool

namespace Host

def named? (h : Host) (name : String) : Option String := h.environment.lookup name

/-- The value of a variable that is set to something. -/
def setting? (h : Host) (name : String) : Option String :=
  (h.named? name).filter fun s => !s.isEmpty

end Host

/-- What a command shows: a note, data on its output, or a message beside it. -/
inductive Event where
  | note (n : Note)
  | data (text : String)
  | message (text : String)

/-- What has become of an action. -/
structure Acted (α : Type) where
  host : Host
  events : List Event
  result : Except Failure α

/-- What went wrong, if anything did. -/
def Acted.error {α : Type} (a : Acted α) : Option Failure :=
  match a.result with
  | .ok _ => none
  | .error e => some e

/-- A computation that looks at a host, changes it and shows things. -/
def Action (α : Type) : Type := Host → Acted α

namespace Action

variable {α β : Type}

/-- The second action follows the first if that succeeds. -/
def bind (x : Action α) (f : α → Action β) : Action β := fun h =>
  let a := x h
  match a.result with
  | .error e => ⟨a.host, a.events, .error e⟩
  | .ok v =>
      let b := f v a.host
      ⟨b.host, a.events ++ b.events, b.result⟩

instance : Monad Action where
  pure v := fun h => ⟨h, [], .ok v⟩
  bind := bind

/-- The host as it is. -/
def host : Action Host := fun h => ⟨h, [], .ok h⟩

def emit (e : Event) : Action Unit := fun h => ⟨h, [e], .ok ()⟩

def note (n : Note) : Action Unit := emit (.note n)

def data (text : String) : Action Unit := emit (.data text)

def message (text : String) : Action Unit := emit (.message text)

def ofExcept (x : Except Failure α) : Action α := fun h => ⟨h, [], x⟩

def fail (e : Failure) : Action α := ofExcept (.error e)

/-- A computation that only leaves notes. -/
def ofLogged (x : Logged α) : Action α := fun h => ⟨h, x.notes.map .note, x.result⟩

/-- A change of the files. -/
def change (f : Host → Files.Outcome) : Action Unit := fun h =>
  let o := f h
  ⟨{ h with files := o.files }, [],
    match o.error with
    | none => .ok ()
    | some e => .error (.file e)⟩

/-- An action whose failure is looked at. -/
def attempt (x : Action α) : Action (Except Failure α) := fun h =>
  let a := x h
  ⟨a.host, a.events, .ok a.result⟩

theorem bind_apply_of_ok {x : Action α} {f : α → Action β} {h : Host} {v : α}
    (hx : (x h).result = .ok v) :
    (x >>= f) h =
      ⟨(f v (x h).host).host, (x h).events ++ (f v (x h).host).events,
        (f v (x h).host).result⟩ := by
  simp only [Bind.bind, bind, hx]

theorem bind_apply_of_error {x : Action α} {f : α → Action β} {h : Host} {e : Failure}
    (hx : (x h).result = .error e) : (x >>= f) h = ⟨(x h).host, (x h).events, .error e⟩ := by
  simp only [Bind.bind, bind, hx]

end Action

end ApiOutline
