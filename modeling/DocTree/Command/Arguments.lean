/-!
# Command lines

A command line names one of the commands and its operands. Options may stand before or after the
operands; an option takes its value from the next argument or, attached, from its own. Every option
may be given once, `--config` once before the command and once after it. After `--` everything is an
operand.
-/

namespace DocTree

/-- What a command line asks for. -/
inductive Invocation where
  | version
  | blocks (path : String) (config : Option String)
  | parse (tokens grammar : String) (format config : Option String)
  | listFormats
  deriving DecidableEq, Repr

namespace Arguments

/-- The options that take a value. -/
inductive OptionName where
  | config
  | grammar
  | format
  deriving DecidableEq, Repr

/-- The letter of an option. -/
def OptionName.letter : OptionName → Char
  | config => 'c'
  | grammar => 'g'
  | format => 'f'

/-- The word of an option. -/
def OptionName.word : OptionName → String
  | config => "config"
  | grammar => "grammar"
  | format => "format"

/-- An argument by its shape. -/
inductive Shape where
  /-- Two hyphens alone. -/
  | stop
  /-- An option, with the value attached to it, if any. -/
  | option (name : OptionName) (value : Option String)
  /-- Something that looks like an option but is none at this place. -/
  | unknown
  /-- A name, an operand or the value of an option. -/
  | plain (text : String)

/-- The value after an equals sign. -/
def afterEquals (text : List Char) : List Char :=
  match text with
  | '=' :: rest => rest
  | rest => rest

/-- The shape of an argument where the given options may stand. A hyphen alone is an operand. -/
def shape (allowed : List OptionName) (argument : String) : Shape :=
  match argument.toList with
  | ['-'] => .plain argument
  | ['-', '-'] => .stop
  | '-' :: '-' :: rest =>
    let word := String.ofList (rest.takeWhile (· != '='))
    let value := match rest.dropWhile (· != '=') with
      | [] => none
      | _ :: value => some (String.ofList value)
    match allowed.find? fun name => name.word == word with
    | some name => .option name value
    | none => .unknown
  | '-' :: letter :: rest =>
    match allowed.find? fun name => name.letter == letter with
    | some name =>
      .option name (if rest.isEmpty then none else some (String.ofList (afterEquals rest)))
    | none => .unknown
  | _ => .plain argument

/-- The options with their values, and the operands, read so far. -/
structure Gathered where
  options : List (OptionName × String) := []
  operands : List String := []

/-- The value of an option. -/
def Gathered.option? (gathered : Gathered) (name : OptionName) : Option String :=
  gathered.options.lookup name

/-- Add an option, which must not have been given before. -/
def Gathered.addOption (gathered : Gathered) (name : OptionName) (value : String) :
    Option Gathered :=
  if (gathered.option? name).isSome then none
  else some { gathered with options := gathered.options ++ [(name, value)] }

/-- Take the value of an option that has none attached from the next argument. -/
def valueOf (allowed : List OptionName) (attached : Option String) (rest : List String) :
    Option (String × List String) :=
  match attached, rest with
  | some value, rest => some (value, rest)
  | none, [] => none
  | none, next :: rest =>
    match shape allowed next with
    | .plain value => some (value, rest)
    | _ => none

/-- Gather the options and operands of a command, of at most as many arguments. -/
def gather (allowed : List OptionName) : Nat → Gathered → List String → Option Gathered
  | 0, gathered, _ => some gathered
  | _ + 1, gathered, [] => some gathered
  | count + 1, gathered, argument :: rest =>
    match shape allowed argument with
    | .stop => some { gathered with operands := gathered.operands ++ rest }
    | .unknown => none
    | .plain operand =>
      gather allowed count { gathered with operands := gathered.operands ++ [operand] } rest
    | .option name attached => do
      let (value, rest) ← valueOf allowed attached rest
      gather allowed count (← gathered.addOption name value) rest

/-- The invocation of a command by name; an option after the command wins over the same one before
it. -/
def command? (name : String) (config : Option String) (arguments : List String) :
    Option Invocation := do
  let allowed ← match name with
    | "parse" => some [OptionName.config, .grammar, .format]
    | "blocks" | "list-formats" => some [OptionName.config]
    | _ => none
  let gathered ← gather allowed arguments.length {} arguments
  let config := gathered.option? .config <|> config
  match name, gathered.operands with
  | "parse", [tokens] =>
    some (.parse tokens (← gathered.option? .grammar) (gathered.option? .format) config)
  | "blocks", [path] => some (.blocks path config)
  | "list-formats", [] => some .listFormats
  | _, _ => none

/-- The arguments that ask for the version. -/
def asksVersion (argument : String) : Bool :=
  argument == "--version" || "-V".isPrefixOf argument

/-- Read a command line with at most a number of options before the command. -/
def readWithin : Nat → Option String → List String → Option Invocation
  | 0, _, _ => none
  | _ + 1, _, [] => none
  | count + 1, config, argument :: rest =>
    if asksVersion argument then some .version
    else match shape [.config] argument with
      | .stop | .unknown => none
      | .plain name => command? name config rest
      | .option _ attached => do
        let (value, rest) ← valueOf [.config] attached rest
        if config.isSome then none else readWithin count (some value) rest

end Arguments

/-- What a command line asks for; nothing if it is not well formed. -/
def Invocation.read (arguments : List String) : Option Invocation :=
  Arguments.readWithin (arguments.length + 1) none arguments

end DocTree
