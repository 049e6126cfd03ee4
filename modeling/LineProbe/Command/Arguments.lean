import LineProbe.Number.Integer

/-!
# Command-line arguments

Long options are written with two dashes, with their value behind an equals sign or as the next argument; short
options are written with one dash and may be put together.
-/

namespace LineProbe

structure OptionForm where
  spelling : Text
  name : Text
  hasValue : Bool
deriving DecidableEq, Repr

structure GivenOption where
  spelling : Text
  name : Text
  value : Text
deriving DecidableEq, Repr

structure Arguments where
  options : List GivenOption
  operands : List Text
deriving DecidableEq, Repr

namespace Arguments

def empty : Arguments :=
  ⟨[], []⟩

def withOperand (operand : Text) (arguments : Arguments) : Arguments :=
  { arguments with operands := operand :: arguments.operands }

def form? (forms : List OptionForm) (spelling : Text) : Option OptionForm :=
  forms.find? (·.spelling = spelling)

inductive Item where
  | complete (options : List GivenOption)
  | wantsValue (options : List GivenOption) (form : OptionForm)
deriving DecidableEq, Repr

def shortItem (forms : List OptionForm) : Text → Option Item
  | [] => some (.complete [])
  | c :: rest => do
    let form ← form? forms ['-', c]
    if form.hasValue then
      if rest = [] then some (.wantsValue [] form)
      else some (.complete [⟨form.spelling, form.name, rest⟩])
    else
      let own := ⟨form.spelling, form.name, []⟩
      match ← shortItem forms rest with
      | .complete options => some (.complete (own :: options))
      | .wantsValue options form => some (.wantsValue (own :: options) form)

def longItem (forms : List OptionForm) (argument : Text) : Option Item := do
  let spelling := argument.takeWhile (· ≠ '=')
  let form ← form? forms spelling
  let value := argument.drop (spelling.length + 1)
  if spelling.length = argument.length then
    if form.hasValue then some (.wantsValue [] form)
    else some (.complete [⟨form.spelling, form.name, []⟩])
  else if form.hasValue then some (.complete [⟨form.spelling, form.name, value⟩])
  else none

def isOption (argument : Text) : Bool :=
  argument.head? = some '-' && 1 < argument.length

def item (forms : List OptionForm) (argument : Text) : Option Item :=
  if Text.startsWith argument "--" then longItem forms argument
  else shortItem forms (argument.drop 1)

def read (forms : List OptionForm) : List Text → Option Arguments
  | [] => some empty
  | argument :: rest =>
    if argument = ['-', '-'] then some ⟨[], rest⟩
    else if isOption argument then
      match item forms argument, rest with
      | some (.complete options), rest =>
        (read forms rest).map fun later => { later with options := options ++ later.options }
      | some (.wantsValue options form), value :: rest =>
        (read forms rest).map fun later =>
          { later with options := options ++ ⟨form.spelling, form.name, value⟩ :: later.options }
      | _, _ => none
    else (read forms rest).map (withOperand argument)

def last? (arguments : Arguments) (name : Text) : Option GivenOption :=
  arguments.options.reverse.find? (·.name = name)

def value? (arguments : Arguments) (name : Text) : Option Text :=
  (arguments.last? name).map GivenOption.value

def integer? (arguments : Arguments) (name : Text) : Option (Option Int) :=
  match arguments.value? name with
  | none => some none
  | some text =>
    match Text.readInteger text with
    | .ok n => some (some n)
    | .error _ => none

def has (arguments : Arguments) (name : Text) : Bool :=
  (arguments.last? name).isSome

end Arguments

end LineProbe
