/-
# Arguments of a command line

Options have names that start with two dashes. The value of an option stands after an
equals sign or is the next argument, whatever that looks like. Two dashes end the
options; all other arguments are operands. What a command line asks for is read off its
arguments before `lint_command` and the other commands are entered.
-/

namespace LintMerge
namespace Command

/-- An option that a command knows. -/
structure Known where
  name : String
  takesValue : Bool
  deriving DecidableEq, Repr

/-- Why arguments cannot be understood. -/
inductive UsageFault where
  /-- the usage of the command is shown -/
  | misuse
  | valueMissing (option : String)
  | valueRefused (option : String)
  deriving DecidableEq, Repr

/-- Options, with their values, and operands, each in order. -/
structure Arguments where
  options : List (String × String) := []
  operands : List String := []
  deriving DecidableEq, Repr

namespace Arguments

/-- Arguments with an option in front. -/
def withOption (name value : String) (a : Arguments) : Arguments :=
  { a with options := (name, value) :: a.options }

/-- Arguments with an operand in front. -/
def withOperand (s : String) (a : Arguments) : Arguments := { a with operands := s :: a.operands }

/-- The name and the value of an argument that holds both. -/
def splitValue (s : String) : String × Option String :=
  let cs := s.toList
  let name := cs.takeWhile (· ≠ '=')
  (String.ofList name,
    if name.length < cs.length then some (String.ofList (cs.drop (name.length + 1))) else none)

/-- Whether an argument is written like an option. -/
def looksLikeOption (s : String) : Bool := s.toList.head? = some '-' && s ≠ "-"

/-- What an argument is by itself. -/
inductive Reading where
  /-- an option that is given, with its value, if it takes one -/
  | option (name value : String)
  /-- an option of which the value is the next argument -/
  | awaiting (name : String)
  | operand
  | refused (fault : UsageFault)
  deriving DecidableEq, Repr

/-- What an argument is among options that are known. -/
def reading (known : List Known) (s : String) : Reading :=
  if looksLikeOption s then
    let (name, value) := splitValue s
    match known.find? fun k => k.name = name, value with
    | none, _ => .refused .misuse
    | some ⟨_, true⟩, some value => .option name value
    | some ⟨_, true⟩, none => .awaiting name
    | some ⟨_, false⟩, none => .option name ""
    | some ⟨_, false⟩, some _ => .refused (.valueRefused name)
  else .operand

/-- The options and operands of some arguments. When operands do not mix with options,
the first operand ends the options. -/
def parse (known : List Known) (mixed : Bool) : List String → Except UsageFault Arguments
  | [] => .ok {}
  | "--" :: rest => .ok { operands := rest }
  | s :: rest =>
    match reading known s with
    | .option name value => (parse known mixed rest).map (withOption name value)
    | .awaiting name =>
      match rest with
      | value :: rest => (parse known mixed rest).map (withOption name value)
      | [] => .error (.valueMissing name)
    | .operand =>
      if mixed then (parse known mixed rest).map (withOperand s) else .ok { operands := s :: rest }
    | .refused fault => .error fault

/-- Whether an option is given. -/
def has (a : Arguments) (name : String) : Bool := a.options.any fun o => o.1 = name

/-- The values of an option, in order. -/
def values (a : Arguments) (name : String) : List String :=
  (a.options.filter fun o => o.1 = name).map (·.2)

/-- The last value of an option. -/
def last? (a : Arguments) (name : String) : Option String := (a.values name).getLast?

end Arguments
end Command
end LintMerge
