/-!
# Options on a command line

An option is written as a word that begins with a hyphen. A long option begins with two and may
carry its value behind an equals sign; short options are single letters that may share one hyphen.
An option that takes a value takes the next word, whatever that looks like. The word of two
hyphens ends the options.

Reading keeps the order in which options are given, so that both "the last one counts" and "the
first one counts" can be said of its result.
-/

namespace ApiOutline.Command

/-- An option that may be given: its names, and whether it takes a value. -/
structure Switch (α : Type) where
  option : α
  names : List String
  takesValue : Bool

/-- The options that a command knows, and whether they may stand among its arguments or only
before them. -/
structure Switches (α : Type) where
  all : List (Switch α)
  areMixed : Bool

/-- What is wrong with a command line. -/
inductive Misuse where
  | unknownOption (word : String)
  | noValue (word : String)
  | uselessValue (word : String)
  | unknownCommand (word : String)
  | noCommand
  | noArgument
  | extraArgument (word : String)
  deriving Repr, DecidableEq

/-- An option as it is given, with its value if it takes one. -/
structure Given (α : Type) where
  option : α
  value : String

/-- A command line taken apart: the options in their order, and the other words. -/
structure Words (α : Type) where
  options : List (Given α)
  arguments : List String

namespace Words

variable {α : Type} [BEq α]

def give (gs : List (Given α)) (w : Words α) : Words α := { w with options := gs ++ w.options }

def argue (word : String) (w : Words α) : Words α :=
  { w with arguments := word :: w.arguments }

/-- Whether an option is given. -/
def has (w : Words α) (o : α) : Bool := w.options.any fun g => g.option == o

/-- The value of an option: the last one given. -/
def value? (w : Words α) (o : α) : Option String :=
  (w.options.reverse.find? fun g => g.option == o).map (·.value)

/-- The first given of some options. -/
def first? (w : Words α) (os : List α) : Option α :=
  (w.options.find? fun g => os.contains g.option).map (·.option)

/-- The last given of some options. -/
def last? (w : Words α) (os : List α) : Option α :=
  (w.options.reverse.find? fun g => os.contains g.option).map (·.option)

end Words

namespace Switches

variable {α : Type}

/-- The option with a name. -/
def find? (s : Switches α) (name : String) : Option (Switch α) :=
  s.all.find? fun x => x.names.contains name

/-- A letter as the name of an option. -/
def letter (c : Char) : String := String.ofList ['-', c]

/-- The options that letters behind one hyphen give. An option that takes a value takes the
letters behind it; if there are none, it still waits for its value. -/
def readLetters (s : Switches α) : List Char → Except Misuse (List (Given α) × Option α)
  | [] => .ok ([], none)
  | c :: rest =>
      match s.find? (letter c) with
      | none => .error (.unknownOption (letter c))
      | some x =>
          if x.takesValue then
            if rest.isEmpty then .ok ([], some x.option)
            else .ok ([⟨x.option, String.ofList rest⟩], none)
          else
            match s.readLetters rest with
            | .ok (given, waiting) => .ok (⟨x.option, ""⟩ :: given, waiting)
            | .error e => .error e

/-- Whether a name is that of a long option. -/
def isLong (name : String) : Bool := "--".toList.isPrefixOf name.toList

/-- The options that one word gives, and the option that still waits for its value. -/
def readWord (s : Switches α) (word : String) :
    Except Misuse (List (Given α) × Option α) :=
  if isLong word then
    let name := word.toList.takeWhile (· != '=')
    let attached := word.toList.drop name.length
    match s.find? (String.ofList name) with
    | none => .error (.unknownOption word)
    | some x =>
        match x.takesValue, attached with
        | true, _ :: value => .ok ([⟨x.option, String.ofList value⟩], none)
        | true, [] => .ok ([], some x.option)
        | false, _ :: _ => .error (.uselessValue word)
        | false, [] => .ok ([⟨x.option, ""⟩], none)
  else s.readLetters (word.toList.drop 1)

/-- Whether a word gives options. A hyphen alone does not. -/
def isOption (word : String) : Bool :=
  match word.toList with
  | '-' :: _ :: _ => true
  | _ => false

/-- Takes a command line apart. -/
def read (s : Switches α) : List String → Except Misuse (Words α)
  | [] => .ok ⟨[], []⟩
  | word :: rest =>
      if word = "--" then .ok ⟨[], rest⟩
      else if isOption word then
        match s.readWord word with
        | .error e => .error e
        | .ok (given, none) => (s.read rest).map (Words.give given)
        | .ok (given, some o) =>
            match rest with
            | [] => .error (.noValue word)
            | value :: rest => (s.read rest).map (Words.give (given ++ [⟨o, value⟩]))
      else if s.areMixed then (s.read rest).map (Words.argue word)
      else .ok ⟨[], word :: rest⟩

@[simp] theorem read_nil (s : Switches α) : s.read [] = .ok ⟨[], []⟩ := by
  rw [read]

end Switches

end ApiOutline.Command
