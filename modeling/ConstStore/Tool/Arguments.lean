/-
# The arguments of the tool

The tool is called with the name of a command, options and operands.  Options may stand anywhere
behind the command; behind `--` everything is an operand.  An option that takes a value has it
behind an equals sign or as the next argument, which must then not look like an option.

`Request.parse` turns the arguments into a command, into a request for help, or into a misuse.
-/

namespace ConstStore
namespace Tool

/-- What the tool is to do. -/
inductive Command where
  | info (store : String) (json : Bool)
  | keys (store : String)
  | get (store key : String)
  | put (store key : String) (file metadata : Option String) (create : Bool)
  deriving Repr, DecidableEq

/-! ## 1. What a command takes -/

/-- An operand.  Paths must not be empty. -/
structure Operand where
  name : String
  required : Bool
  isPath : Bool

/-- An option, which is a switch or takes a value of the given name. -/
structure CommandOption where
  name : String
  value : Option String
  about : String

/-- A command with its operands, the optional ones last, and its options. -/
structure Shape where
  name : String
  about : String
  operands : List Operand
  options : List CommandOption

def storeOperand : Operand := ⟨"DB", true, true⟩
def keyOperand : Operand := ⟨"KEY", true, false⟩

def infoShape : Shape :=
  ⟨"info", "Show the header and every index entry", [storeOperand],
    [⟨"json", none, "Emit JSON instead of a table"⟩]⟩

def keysShape : Shape := ⟨"keys", "List keys in creation order", [storeOperand], []⟩

def getShape : Shape :=
  ⟨"get", "Write the value stored under KEY to stdout", [storeOperand, keyOperand], []⟩

def putShape : Shape :=
  ⟨"put", "Add a value read from FILE (or stdin) under KEY",
    [storeOperand, keyOperand, ⟨"FILE", false, true⟩],
    [⟨"metadata", some "METADATA", "Metadata stored alongside the record"⟩,
     ⟨"create", none, "Recreate the store instead of extending it"⟩]⟩

def shapes : List Shape := [infoShape, keysShape, getShape, putShape]

def shape? (name : String) : Option Shape := shapes.find? (·.name = name)

/-! ## 2. Help -/

def pad (width : Nat) (text : String) : String :=
  text ++ String.ofList (List.replicate (width - text.length) ' ')

def Operand.shown (operand : Operand) : String :=
  if operand.required then "<" ++ operand.name ++ ">" else "[" ++ operand.name ++ "]"

def CommandOption.shown (option : CommandOption) : String :=
  "    --" ++ option.name ++ match option.value with
    | some value => " <" ++ value ++ ">"
    | none => ""

/-- A section of the help: names with what they stand for, in two columns. -/
def helpSection (title : String) (rows : List (String × String)) : String :=
  let width := (rows.map (·.1.length)).foldl max 0
  "\n" ++ title ++ ":\n"
    ++ String.join (rows.map fun (name, about) => "  " ++ pad width name ++ "  " ++ about ++ "\n")

def helpRow : String × String := ("-h, --help", "Print help")

/-- The help of a command. -/
def Shape.help (shape : Shape) : String :=
  shape.about ++ "\n\nUsage: cachedb-tool " ++ shape.name
    ++ (if shape.options.isEmpty then "" else " [OPTIONS]")
    ++ String.join (shape.operands.map (" " ++ ·.shown)) ++ "\n"
    ++ helpSection "Arguments" (shape.operands.map fun operand => (operand.shown, ""))
    ++ helpSection "Options"
        (shape.options.map (fun option => (option.shown, option.about)) ++ [helpRow])

def helpAbout : String := "Print this message or the help of the given subcommand(s)"

/-- The help of the tool. -/
def toolHelp : String :=
  "Inspect and extend cachedb store files\n\nUsage: cachedb-tool <COMMAND>\n"
    ++ helpSection "Commands" (shapes.map (fun shape => (shape.name, shape.about))
        ++ [("help", helpAbout)])
    ++ helpSection "Options" [helpRow]

/-- The help on asking for help. -/
def helpHelp : String :=
  helpAbout ++ "\n\nUsage: cachedb-tool help [COMMAND]...\n"
    ++ helpSection "Arguments" [("[COMMAND]...", "Print help for the subcommand(s)")]

/-! ## 3. Reading arguments -/

/-- What the arguments ask for. -/
inductive Request where
  | run (command : Command)
  | help (text : String)
  | misuse
  deriving Repr, DecidableEq

/-- Operands and options read so far. -/
structure Given where
  operands : List String
  /-- The options that are set, with their values. -/
  options : List (String × Option String)

namespace Given

def option? (given : Given) (name : String) : Option (Option String) := given.options.lookup name

def hasOption (given : Given) (name : String) : Bool := (given.option? name).isSome

/-- One more operand, if the command takes one and it may have this value. -/
def addOperand? (given : Given) (shape : Shape) (value : String) : Option Given := do
  let operand ← shape.operands[given.operands.length]?
  if operand.isPath ∧ value = "" then none
  else some { given with operands := given.operands ++ [value] }

/-- One more option, which must not be set yet. -/
def addOption? (given : Given) (name : String) (value : Option String) : Option Given :=
  if given.hasOption name then none
  else some { given with options := (name, value) :: given.options }

end Given

/-- An argument as it looks. -/
inductive Argument where
  /-- `--` -/
  | endOfOptions
  /-- `--name` or `--name=value` -/
  | long (name : String) (value : Option String)
  /-- `-` and letters -/
  | short (first : Char)
  | plain (text : String)
  deriving Repr, DecidableEq

def Argument.ofText (text : String) : Argument :=
  match text.toList with
  | ['-', '-'] => .endOfOptions
  | '-' :: '-' :: rest =>
    let name := String.ofList (rest.takeWhile (· ≠ '='))
    match rest.dropWhile (· ≠ '=') with
    | [] => .long name none
    | _ :: value => .long name (some (String.ofList value))
  | '-' :: first :: _ => .short first
  | _ => .plain text

/-- Reads operands and options.  The outcome is what is given, or a request that needs no more
reading. -/
def Shape.scan (shape : Shape) (given : Given) : List String → Except Request Given
  | [] => .ok given
  | argument :: rest =>
    match Argument.ofText argument with
    | .endOfOptions =>
      let step := fun (given : Option Given) operand => given >>= (·.addOperand? shape operand)
      match rest.foldl step (some given) with
      | some given => .ok given
      | none => .error .misuse
    | .plain text =>
      match given.addOperand? shape text with
      | some given => shape.scan given rest
      | none => .error .misuse
    | .short first => .error (if first = 'h' then .help shape.help else .misuse)
    | .long name value =>
      if name = "help" ∧ value = none then .error (.help shape.help) else
      match shape.options.find? (·.name = name), value, rest with
      | some ⟨_, none, _⟩, none, rest =>
        match given.addOption? name none with
        | some given => shape.scan given rest
        | none => .error .misuse
      | some ⟨_, some _, _⟩, some value, rest =>
        match given.addOption? name (some value) with
        | some given => shape.scan given rest
        | none => .error .misuse
      | some ⟨_, some _, _⟩, none, next :: rest =>
        match Argument.ofText next with
        | .plain value =>
          match given.addOption? name (some value) with
          | some given => shape.scan given rest
          | none => .error .misuse
        | _ => .error .misuse
      | _, _, _ => .error .misuse

/-- The command that is given, if no operand is missing. -/
def Shape.command? (shape : Shape) (given : Given) : Option Command :=
  match shape.name, given.operands with
  | "info", [store] => some (.info store (given.hasOption "json"))
  | "keys", [store] => some (.keys store)
  | "get", [store, key] => some (.get store key)
  | "put", store :: key :: file =>
    some (.put store key file.head? ((given.option? "metadata").bind id) (given.hasOption "create"))
  | _, _ => none

/-- What the arguments of the tool ask for. -/
def Request.parse : List String → Request
  | [] => .misuse
  | name :: rest =>
    match shape? name with
    | some shape =>
      match shape.scan ⟨[], []⟩ rest with
      | .error request => request
      | .ok given =>
        match shape.command? given with
        | some command => .run command
        | none => .misuse
    | none =>
      if name = "help" then
        match rest with
        | [] => .help toolHelp
        | [command] => match shape? command with
          | some shape => .help shape.help
          | none => if command = "help" then .help helpHelp else .misuse
        | _ => .misuse
      else
        match Argument.ofText name with
        | .long "help" none | .short 'h' => .help toolHelp
        | _ => .misuse

end Tool
end ConstStore
