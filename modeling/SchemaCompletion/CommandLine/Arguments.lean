/-!
# Arguments

Options and operands among the arguments of a command.

* `OptionForm` — the spellings of an option, and whether it takes a value;
* `Found` — an option as it was found;
* `readOption?` — the options that one argument holds;
* `readArguments?` — the options and operands of a list of arguments.

An option is spelled `--name` or `-n`; its value follows in the next argument, after `=` for the
long spelling, or directly for the short one. Short options may stand together in one argument.
-/

namespace SchemaCompletion.CommandLine

/-- The spellings of an option, without their dashes, and whether it takes a value. -/
structure OptionForm (α : Type) where
  option : α
  long : String
  short : Option Char
  takesValue : Bool
  deriving Repr

/-- An option as it was found; options that take no value have none. -/
structure Found (α : Type) where
  option : α
  value : Option String
  deriving Repr

/-- What one argument holds: options, the last of which may still need the next argument. -/
inductive Reading (α : Type) where
  | complete (found : List (Found α))
  | pending (found : List (Found α)) (last : α)
  deriving Repr

namespace Reading

/-- A reading with one more option in front. -/
def cons {α : Type} (f : Found α) : Reading α → Reading α
  | complete found => complete (f :: found)
  | pending found last => pending (f :: found) last

end Reading

/-! ## One argument -/

/-- The options that stand together behind one dash. One that takes a value takes the rest of
them. -/
def readShort? {α : Type} (forms : List (OptionForm α)) : List Char → Option (Reading α)
  | [] => some (.complete [])
  | c :: cs =>
    match forms.find? (·.short == some c) with
    | none => none
    | some form =>
      if form.takesValue then
        -- the value is the rest of this argument, or else the next argument
        match cs with
        | [] => some (.pending [] form.option)
        | _ => some (.complete [{ option := form.option, value := some (String.ofList cs) }])
      else (readShort? forms cs).map (Reading.cons { option := form.option, value := none })

/-- The option behind two dashes, with the value behind an equality sign if there is one. -/
def readLong? {α : Type} (forms : List (OptionForm α)) (cs : List Char) : Option (Reading α) :=
  let name := String.ofList (cs.takeWhile (· != '='))
  let value := (cs.dropWhile (· != '=')).tail?.map String.ofList
  match forms.find? (·.long == name), value with
  | none, _ => none
  | some form, none =>
    if form.takesValue then some (.pending [] form.option)
    else some (.complete [{ option := form.option, value := none }])
  | some form, some value =>
    if form.takesValue then some (.complete [{ option := form.option, value := some value }])
    else none

/-- The options that an argument with a dash in front holds. -/
def readOption? {α : Type} (forms : List (OptionForm α)) : List Char → Option (Reading α)
  | '-' :: '-' :: cs => readLong? forms cs
  | '-' :: cs => readShort? forms cs
  | _ => none

/-- The argument begins like an option: a dash with something behind it. -/
def looksLikeOption (arg : String) : Bool :=
  match arg.toList with
  | '-' :: _ :: _ => true
  | _ => false

/-! ## All arguments -/

/-- The options and the operands of a command. -/
structure Arguments (α : Type) where
  options : List (Found α)
  operands : List String
  deriving Repr

namespace Arguments

def withOptions {α : Type} (found : List (Found α)) (a : Arguments α) : Arguments α :=
  { a with options := found ++ a.options }

def withOperand {α : Type} (operand : String) (a : Arguments α) : Arguments α :=
  { a with operands := operand :: a.operands }

end Arguments

/-- The options and the operands among arguments. After two lone dashes all are operands; so they
are from the first operand on, if options may not be mixed with operands. An unknown option, a
missing value or one too many is an error. -/
def readArguments? {α : Type} (forms : List (OptionForm α)) (mixed : Bool) :
    List String → Option (Arguments α)
  | [] => some { options := [], operands := [] }
  | arg :: rest =>
    if arg = "--" then some { options := [], operands := rest }
    else if looksLikeOption arg then
      match readOption? forms arg.toList with
      | none => none
      | some (.complete found) => (readArguments? forms mixed rest).map (·.withOptions found)
      | some (.pending found last) =>
        match rest with
        | [] => none
        -- taken as it stands, even if it looks like an option
        | value :: rest =>
          (readArguments? forms mixed rest).map
            (·.withOptions (found ++ [{ option := last, value := some value }]))
    else if mixed then (readArguments? forms mixed rest).map (·.withOperand arg)
    else some { options := [], operands := arg :: rest }

/-! ## Looking at options -/

def lastValue? {α : Type} [BEq α] (option : α) (found : List (Found α)) : Option String :=
  (found.filter (·.option == option)).getLast?.bind (·.value)

def allValues {α : Type} [BEq α] (option : α) (found : List (Found α)) : List String :=
  (found.filter (·.option == option)).filterMap (·.value)

def occurs {α : Type} [BEq α] (option : α) (found : List (Found α)) : Bool :=
  found.any (·.option == option)

end SchemaCompletion.CommandLine
