import ReplayVector.Extraction
import ReplayVector.Text.Fields

/-!
# The command line

The program has one command, which extracts a vector, and flags for help and for its version.
Arguments are looked at in order. An option takes the argument after it as its value, unless that
looks like an option itself, or the rest of its own argument. A value that is an argument of its
own is read when the next option begins, so of several mistakes the first one counts, except that
an argument without a meaning ends everything at once. An option may be given only once.
-/

namespace ReplayVector.CommandLine

/-! ## Refusals -/

/-- Why the arguments do not say what to do. -/
inductive Refusal where
  /-- Help was asked for. -/
  | help
  /-- The version was asked for. -/
  | version
  /-- There is no command. -/
  | noCommand
  /-- There is no such command. -/
  | unknownCommand (name : String)
  /-- An argument has no meaning. -/
  | unknownArgument (argument : String)
  /-- An option that has to be given is missing. -/
  | missingOption (option : String)
  /-- An option was given twice. -/
  | repeatedOption (option : String)
  /-- An option has no value, or none of those it takes. -/
  | invalidValue (option : String)
  /-- The value of an option cannot be read. -/
  | unreadableValue (option : String)
  /-- A flag has a value. -/
  | unexpectedValue (flag : String)
  deriving DecidableEq

namespace Refusal

/-- The exit code of a program that ends with a refusal. -/
def exitCode : Refusal → Nat
  | help | version => 0
  | _ => 2

/-- What the program says about its use. -/
def usage : String :=
  "Usage: forest-tvx extract --cid <CID> [--block <CID>] [--id <ID>] [--class message] " ++
  "[--out <FILE>] [--state-retain accessed-cids|accessed-actors] " ++
  "[--precursor-select sender|all] [--api <API>]"

/-- The wording of a refusal. -/
def message : Refusal → String
  | help => usage
  | version => "forest-tvx 0.1.0+git.unknown"
  | noCommand => usage
  | unknownCommand name => s!"error: unrecognized subcommand '{name}'"
  | unknownArgument argument => s!"error: unexpected argument '{argument}' found"
  | missingOption option => s!"error: the required argument '{option}' was not provided"
  | repeatedOption option => s!"error: the argument '{option}' cannot be used multiple times"
  | invalidValue option => s!"error: a value is required for '{option}' but none of its kind was supplied"
  | unreadableValue option => s!"error: invalid value for '{option}'"
  | unexpectedValue flag => s!"error: unexpected value for '{flag}' found; no more were expected"

end Refusal

/-! ## Options -/

/-- The options of the command that take a value. -/
inductive Parameter where
  | cid
  | block
  | id
  | kind
  | out
  | retention
  | precursors
  | api
  deriving DecidableEq

namespace Parameter

/-- All options. -/
def all : List Parameter := [cid, block, id, kind, out, retention, precursors, api]

/-- The name of an option, after two hyphens. -/
def name : Parameter → String
  | cid => "cid"
  | block => "block"
  | id => "id"
  | kind => "class"
  | out => "out"
  | retention => "state-retain"
  | precursors => "precursor-select"
  | api => "api"

/-- The option with a name. -/
def ofName? (name : String) : Option Parameter := all.find? (·.name == name)

end Parameter

/-- The values of options, as far as they have been given. -/
structure Given where
  cid : Option Cid := none
  block : Option Cid := none
  id : Option String := none
  kind : Option VectorClass := none
  out : Option String := none
  retention : Option Retention := none
  precursors : Option PrecursorChoice := none
  api : Option String := none
  deriving DecidableEq

namespace Given

/-- The option has been given. -/
def has (g : Given) : Parameter → Bool
  | .cid => g.cid.isSome
  | .block => g.block.isSome
  | .id => g.id.isSome
  | .kind => g.kind.isSome
  | .out => g.out.isSome
  | .retention => g.retention.isSome
  | .precursors => g.precursors.isSome
  | .api => g.api.isSome

/-- Reads the value of an option. -/
def read (g : Given) (p : Parameter) (value : String) : Except Refusal Given :=
  match p with
  | .cid =>
    match Cid.ofString? value with
    | some c => .ok { g with cid := some c }
    | none => .error (.unreadableValue p.name)
  | .block =>
    match Cid.ofString? value with
    | some c => .ok { g with block := some c }
    | none => .error (.unreadableValue p.name)
  | .id => .ok { g with id := some value }
  | .kind =>
    match value with
    | "message" => .ok { g with kind := some .message }
    | _ => .error (.invalidValue p.name)
  | .out => if value = "" then .error (.invalidValue p.name) else .ok { g with out := some value }
  | .retention =>
    match Retention.ofName? value with
    | some r => .ok { g with retention := some r }
    | none => .error (.invalidValue p.name)
  | .precursors =>
    match PrecursorChoice.ofName? value with
    | some c => .ok { g with precursors := some c }
    | none => .error (.invalidValue p.name)
  | .api => .ok { g with api := some value }

/-- Adds the value of an option, which must not have been given before. -/
def add (g : Given) (p : Parameter) (value : String) : Except Refusal Given :=
  if g.has p then .error (.repeatedOption p.name) else g.read p value

end Given

/-! ## Arguments -/

/-- What an argument looks like. -/
inductive Shape where
  /-- Two hyphens: all other arguments are values. -/
  | separator
  /-- Two hyphens and a name, perhaps with a value behind an equals sign. -/
  | long (name : String) (value : Option String)
  /-- A hyphen and letters. -/
  | short (first : Char) (rest : List Char)
  /-- Anything else: a value. -/
  | plain
  deriving DecidableEq

/-- What an argument looks like. A single hyphen is a value. -/
def Shape.of (argument : String) : Shape :=
  match argument.toList with
  | ['-', '-'] => .separator
  | '-' :: '-' :: cs =>
    match Text.cut? '=' cs with
    | some (name, value) => .long (String.ofList name) (some (String.ofList value))
    | none => .long (String.ofList cs) none
  | '-' :: c :: cs => .short c cs
  | _ => .plain

/-- The value behind a letter, with or without an equals sign; none if nothing is there. -/
def attached : List Char → Option String
  | [] => none
  | '=' :: cs => some (String.ofList cs)
  | cs => some (String.ofList cs)

/-- An option that has begun, and its value once that has been met. -/
structure Begun where
  option : Parameter
  value : Option String := none
  deriving DecidableEq

/-- Reads the value of the option that has begun, if one has. -/
def settle (g : Given) : Option Begun → Except Refusal Given
  | none => .ok g
  | some ⟨option, none⟩ => .error (.invalidValue option.name)
  | some ⟨option, some value⟩ => g.add option value

/-- Begins an option, which may have its value with it. -/
def start (g : Given) (begun : Option Begun) (option : Parameter) (value : Option String) :
    Except Refusal (Given × Option Begun) := do
  let g ← settle g begun
  match value with
  | none => return (g, some { option })
  | some value => return (← g.add option value, none)

/-- Takes the next argument of the command. -/
def step (g : Given) (begun : Option Begun) (argument : String) :
    Except Refusal (Given × Option Begun) :=
  match Shape.of argument with
  | .long "help" none => do
    let _ ← settle g begun
    .error .help
  | .long "help" (some _) => .error (.unexpectedValue argument)
  | .long name value =>
    match Parameter.ofName? name with
    | some option => start g begun option value
    | none => .error (.unknownArgument argument)
  | .short 'h' _ => do
    let _ ← settle g begun
    .error .help
  | .short 'o' rest => start g begun .out (attached rest)
  | .short _ _ => .error (.unknownArgument argument)
  | _ =>
    match begun with
    | some ⟨option, none⟩ => .ok (g, some ⟨option, some argument⟩)
    | _ => .error (.unknownArgument argument)

/-- Takes the arguments of the command. Nothing may follow a separator. -/
def takeAll (g : Given) (begun : Option Begun) : List String → Except Refusal Given
  | [] => settle g begun
  | argument :: rest =>
    if Shape.of argument = .separator then
      match rest with
      | [] => settle g begun
      | extra :: _ => .error (.unknownArgument extra)
    else do
      let (g, begun) ← step g begun argument
      takeAll g begun rest

/-! ## Commands -/

/-- The command to extract a vector. -/
structure Command where
  request : ExtractionRequest
  /-- The file for the vector; without it the vector goes to the standard output. -/
  out : Option String
  /-- Where the node is. -/
  api : Option String
  deriving DecidableEq

/-- The command with the given options, and with what the environment says where an option is
missing. -/
def Command.ofGiven (environment : Option String) (g : Given) : Except Refusal Command :=
  match g.cid with
  | none => .error (.missingOption Parameter.cid.name)
  | some cid =>
    let usual := ExtractionRequest.ofCid cid
    .ok {
      request := {
        cid
        block := g.block
        id := g.id.getD usual.id
        kind := g.kind.getD usual.kind
        retention := g.retention.getD usual.retention
        precursors := g.precursors.getD usual.precursors }
      out := g.out
      api := g.api <|> environment }

/-- What help is asked for: of the program, or of a command that exists. -/
def helpFor : List String → Refusal
  | [] => .help
  | ["extract"] => .help
  | ["help"] => .help
  | "extract" :: name :: _ => .unknownCommand name
  | "help" :: name :: _ => .unknownCommand name
  | name :: _ => .unknownCommand name

/-- Reads the arguments of the program. The endpoint may also come from the environment. -/
def parse (environment : Option String) : List String → Except Refusal Command
  | [] => .error .noCommand
  | "extract" :: rest => do Command.ofGiven environment (← takeAll {} none rest)
  | "help" :: rest => .error (helpFor rest)
  | argument :: rest =>
    match Shape.of argument with
    | .separator =>
      match rest with
      | [] => .error .noCommand
      | name :: _ =>
        if name = "extract" ∨ name = "help" then .error (.unknownArgument name)
        else .error (.unknownCommand name)
    | .long "help" none => .error .help
    | .long "version" none => .error .version
    | .long "help" (some _) => .error (.unexpectedValue argument)
    | .long "version" (some _) => .error (.unexpectedValue argument)
    | .short 'h' _ => .error .help
    | .short 'V' _ => .error .version
    | .long _ _ => .error (.unknownArgument argument)
    | .short _ _ => .error (.unknownArgument argument)
    | .plain => .error (.unknownCommand argument)

end ReplayVector.CommandLine
