import ApiModel.Text.Cut

/-!
# Arguments

The options of the program stand before the command; the options of a command stand anywhere
after it. An option is a flag or takes a value: in the same argument, after an equals sign for a
long name and directly for a short one, or else in the next argument. Short flags may be
joined. Two hyphens end the options.
-/

namespace ApiModel.CommandLine

/-! ## Options -/

/-- An option: its long name, its short name if it has one, and whether it takes a value. -/
structure Switch where
  long : String
  short : Option Char := none
  takesValue : Bool := false
  deriving DecidableEq, Repr

/-- An option that was given, under its long name, and its value. -/
abbrev Given := String × String

/-- Options and other arguments in the order in which they were given. -/
structure Split where
  options : List Given := []
  operands : List String := []
  deriving Repr

/-- An option before others. -/
def Split.addOption (given : Given) (s : Split) : Split :=
  { s with options := given :: s.options }

/-- An operand before others. -/
def Split.addOperand (operand : String) (s : Split) : Split :=
  { s with operands := operand :: s.operands }

/-- What the value of an option is taken from: options are read from the arguments left to
right, and an option whose value is not attached takes the next argument. -/
inductive Want where
  | nothing
  | valueOf (long : String)

/-- The short options of an argument, without its hyphen: those that are complete, and what the
last one still wants. -/
def shortOptions (known : List Switch) : List Char → Option (List Given × Want)
  | [] => some ([], .nothing)
  | c :: rest => do
    let o ← known.find? fun o => o.short = some c
    if o.takesValue then
      if rest.isEmpty then pure ([], .valueOf o.long)
      else pure ([(o.long, String.ofList rest)], .nothing)
    else
      let (more, want) ← shortOptions known rest
      pure ((o.long, "") :: more, want)

/-- The long option of an argument: as it is, or with its value after an equals sign. -/
def longOption (known : List Switch) (arg : List Char) : Option (List Given × Want) := do
  let name := String.ofList (Text.before '=' arg)
  let o ← known.find? fun o => o.long = name
  match arg.dropWhile (· != '='), o.takesValue with
  | [], false => pure ([(o.long, "")], .nothing)
  | [], true => pure ([], .valueOf o.long)
  | _ :: value, true => pure ([(o.long, String.ofList value)], .nothing)
  | _ :: _, false => none

/-- The options of an argument that begins with a hyphen. -/
def optionsOf (known : List Switch) (arg : List Char) : Option (List Given × Want) :=
  match arg with
  | '-' :: '-' :: _ => longOption known arg
  | '-' :: rest => shortOptions known rest
  | _ => none

/-- Does the argument begin with a hyphen, and is it more than that? -/
def isOption (arg : String) : Bool := arg.startsWith "-" && arg != "-"

/-- Split arguments into options and operands. Where operands end the options, everything from
the first operand on is one. None for an option that is not known or lacks its value. -/
def split (known : List Switch) (operandsEnd : Bool) : Want → List String → Option Split
  | .nothing, [] => some {}
  | .valueOf _, [] => none
  | .valueOf long, value :: rest =>
    (split known operandsEnd .nothing rest).map (·.addOption (long, value))
  | .nothing, arg :: rest =>
    if arg = "--" then some { operands := rest }
    else if isOption arg then do
      let (given, want) ← optionsOf known arg.toList
      let s ← split known operandsEnd want rest
      pure { s with options := given ++ s.options }
    else if operandsEnd then some { operands := arg :: rest }
    else (split known operandsEnd .nothing rest).map (·.addOperand arg)

/-! ## Commands -/

/-- A command. -/
inductive Command where
  | inspect
  | models
  | services
  | render (templates : Option String) (template : String)
  deriving DecidableEq, Repr

/-- The options of the program. -/
structure Options where
  json : Bool := false
  plain : Bool := false
  noColor : Bool := false
  verbose : Bool := false
  deriving DecidableEq, Repr

/-- A command with what it is applied to. -/
structure Invocation extends Options where
  spec : Option String := none
  command : Command
  deriving DecidableEq, Repr

/-- What the arguments ask for. -/
inductive Request where
  | version
  | help
  | invocation (i : Invocation)
  /-- The help of a command. -/
  | commandHelp (o : Options)
  /-- The arguments of a command are not understood. -/
  | misused (o : Options)
  /-- There are no arguments. -/
  | nothing
  /-- No command is understood. -/
  | invalid
  deriving DecidableEq, Repr

/-- The option that asks for help. -/
def helpOption : Switch := { long := "--help" }

/-- The options of the program. -/
def programOptions : List Switch :=
  [{ long := "--version" }, { long := "--json" }, { long := "--plain" }, { long := "--no-color" },
    { long := "--verbose", short := some 'v' }, helpOption]

/-- The options of the command that renders. -/
def renderOptions : List Switch :=
  [{ long := "--templates", short := some 't', takesValue := true },
    { long := "--template", short := some 'T', takesValue := true }, helpOption]

/-- Was the option given? -/
def has (s : Split) (long : String) : Bool := s.options.any (·.1 = long)

/-- The value that was given last for an option. -/
def lastValue? (s : Split) (long : String) : Option String :=
  (s.options.reverse.find? (·.1 = long)).map (·.2)

/-- The operand of a command: one at most. -/
def operand? : List String → Option (Option String)
  | [] => some none
  | [spec] => some (some spec)
  | _ => none

/-- A command without options of its own. -/
def plainCommand? : String → Option Command
  | "inspect" => some .inspect
  | "models" => some .models
  | "services" => some .services
  | _ => none

/-- The options of the program that were given. -/
def Options.of (s : Split) : Options :=
  { json := has s "--json"
    plain := has s "--plain"
    noColor := has s "--no-color"
    verbose := has s "--verbose" }

/-- The request of a command, given the options before it. -/
def ofCommand (o : Options) (known : List Switch) (command : Split → Option Command)
    (args : List String) : Request :=
  match split known false .nothing args with
  | none => .misused o
  | some s =>
    if has s "--help" then .commandHelp o
    else
      match operand? s.operands, command s with
      | some spec, some command => .invocation { toOptions := o, spec, command }
      | _, _ => .misused o

/-- The command that renders, if its template was given. -/
def renderCommand? (s : Split) : Option Command :=
  (lastValue? s "--template").map fun template =>
    .render (lastValue? s "--templates") template

/-- The request of the operands of the program: a command and its arguments. -/
def ofOperands (o : Options) : List String → Request
  | [] => .invalid
  | name :: args =>
    if name = "render" then ofCommand o renderOptions renderCommand? args
    else
      match plainCommand? name with
      | some command => ofCommand o [helpOption] (fun _ => some command) args
      | none => .invalid

/-- What the arguments ask for. The version and the help come before all else, whichever is asked
for first. -/
def parse (args : List String) : Request :=
  if args.isEmpty then .nothing
  else
    match split programOptions true .nothing args with
    | none => .invalid
    | some s =>
      match s.options.find? fun o => o.1 = "--version" ∨ o.1 = "--help" with
      | some ("--version", _) => .version
      | some _ => .help
      | none => ofOperands (.of s) s.operands

end ApiModel.CommandLine
