import RouterCalldata.Command.BatchFile

/-!
# The command line

A command line names a command and gives it options.  Two options are common
to all commands and may stand on either side of its name.

Arguments are taken from left to right and the first one that is wrong is
reported; only then is it checked that all required options are there.  The
value of an option that is an argument of its own is looked at when the next
option comes or the arguments end.

## Main definitions

* `Opt`: an option, its placeholder and what its value has to be;
* `UsageError`: what may be wrong with a command line;
* `Side`, `Taken`: what may be given in front of or behind a command's name, and
  what is given there;
* `Taken.scan`: takes options and their values;
* `Invocation`: a command with what is common to all commands;
* `Invocation.ofArgs`: reads a command line.
-/

namespace RouterCalldata

/-! ## Options -/

/-- An option. -/
structure Opt where
  name : String
  /-- How the value is shown in messages; a flag has none. -/
  placeholder : Option String
  /-- Why a value is refused, if it is. -/
  refusal : String → Option String

namespace Opt

/-- An option without value. -/
def flag (name : String) : Opt := { name, placeholder := none, refusal := fun _ => none }

/-- An option with any text as value. -/
def text (name placeholder : String) : Opt :=
  { name, placeholder := some placeholder, refusal := fun _ => none }

/-- The option as it is shown in messages. -/
def shown (o : Opt) : String :=
  match o.placeholder with
  | some p => s!"{o.name} <{p}>"
  | none => o.name

end Opt

/-- Appends digits to a number.  The first character that is no digit, or that
makes the number too large, decides what is reported. -/
def appendDigits (n : Nat) : List Char → Except String Nat
  | [] => .ok n
  | c :: rest =>
      let m := 10 * n + (c.toNat - 0x30)
      if !c.isDigit then .error "invalid digit found in string"
      else if m < Nat.pow 2 64 then appendDigits m rest
      else .error "number too large to fit in target type"

/-- Reads a whole number of at most 64 bits, behind a plus sign or not.  The
refusal is the text shown to the user. -/
def readCount (s : String) : Except String Nat :=
  match s.toList with
  | [] => .error "cannot parse integer from empty string"
  | '+' :: c :: rest => appendDigits 0 (c :: rest)
  | cs => appendDigits 0 cs

/-- The reason in a refusal. -/
def refusalOf {ε α : Type} (message : ε → String) : Except ε α → Option String
  | .ok _ => none
  | .error e => some (message e)

/-- The version of a call. -/
def versionOpt : Opt :=
  { name := "--version", placeholder := some "v2|v3",
    refusal := fun s => refusalOf DecodeError.message (Version.read s) }

/-- Transactions in a chunk. -/
def chunkSizeOpt : Opt :=
  { name := "--chunk-size", placeholder := some "CHUNK_SIZE",
    refusal := fun s => refusalOf id (readCount s) }

/-- What becomes of failures. -/
def modeOpt : Opt :=
  { name := "--mode", placeholder := some "MODE",
    refusal := fun s => refusalOf id (ErrorMode.read s) }

/-- The options common to all commands. -/
def commonOpts : List Opt := [.flag "--verbose", .text "--config" "CONFIG"]

/-! ## Commands -/

/-- The names of the commands. -/
inductive CommandName
  | decode
  | methods
  | batch
  | test
  | info
  deriving DecidableEq, Repr

namespace CommandName

/-- The command of a given name. -/
def ofText? (s : String) : Option CommandName :=
  if s = "decode" then some decode
  else if s = "methods" then some methods
  else if s = "batch" then some batch
  else if s = "test" then some test
  else if s = "info" then some info
  else none

/-- The options of a command. -/
def opts : CommandName → List Opt
  | decode => [.text "--calldata" "CALLDATA", versionOpt, .text "--to" "TO",
      .text "--tx-hash" "TX_HASH", .text "--value" "VALUE", .flag "--json"]
  | methods => [versionOpt, .text "--selector" "SELECTOR"]
  | batch => [.text "--input" "INPUT", chunkSizeOpt, modeOpt]
  | test => [.text "--fixtures" "FIXTURES"]
  | info => []

/-- The option that a command cannot do without. -/
def requiredOpt? : CommandName → Option Opt
  | decode => some (.text "--calldata" "CALLDATA")
  | batch => some (.text "--input" "INPUT")
  | _ => none

/-- How a command is called. -/
def usage : CommandName → String
  | decode => "swapcodec decode [OPTIONS] --calldata <CALLDATA>"
  | methods => "swapcodec methods [OPTIONS]"
  | batch => "swapcodec batch [OPTIONS] --input <INPUT>"
  | test => "swapcodec test [OPTIONS]"
  | info => "swapcodec info [OPTIONS]"

/-- How a command is called with no more than it needs. -/
def leastUsage : CommandName → String
  | decode => "swapcodec decode --calldata <CALLDATA>"
  | batch => "swapcodec batch --input <INPUT>"
  | c => c.usage

end CommandName

/-- How the program is called. -/
def programUsage : String := "swapcodec [OPTIONS] <COMMAND>"

/-- The program's name and edition. -/
def programVersion : String := "0.1.0"

/-! ## Errors -/

/-- What may be wrong with a command line, and the two requests that end it
without a command. -/
inductive UsageError
  | invalidValue (value : String) (option : String) (reason : String)
  | missingValue (option : String)
  | repeated (option : String) (usage : String)
  | unexpected (argument : String) (usage : String)
  | flagValue (value : String) (option : String) (usage : String)
  | missingOption (option : String) (usage : String)
  | unknownCommand (name : String)
  | noCommand
  | help (usage : String)
  | version
  deriving DecidableEq, Repr

namespace UsageError

/-- The line that points to more help. -/
def hint : String := "\nFor more information, try '--help'.\n"

/-- The line that shows how to call the program, and the hint. -/
def usageLines (usage : String) : String :=
  "\nUsage: " ++ usage ++ "\n" ++ hint

/-- What is written for an error. -/
def text : UsageError → String
  | invalidValue value option reason =>
      s!"error: invalid value '{value}' for '{option}': {reason}\n" ++ hint
  | missingValue option =>
      s!"error: a value is required for '{option}' but none was supplied\n" ++ hint
  | repeated option usage =>
      s!"error: the argument '{option}' cannot be used multiple times\n" ++ usageLines usage
  | unexpected argument usage =>
      s!"error: unexpected argument '{argument}' found\n" ++ usageLines usage
  | flagValue value option usage =>
      s!"error: unexpected value '{value}' for '{option}' found; no more were expected\n" ++
        usageLines usage
  | missingOption option usage =>
      s!"error: the following required arguments were not provided:\n  {option}\n" ++
        usageLines usage
  | unknownCommand name =>
      s!"error: unrecognized subcommand '{name}'\n" ++ usageLines programUsage
  | noCommand => "Usage: " ++ programUsage ++ "\n"
  | help usage => "Usage: " ++ usage ++ "\n"
  | version => "swapcodec " ++ programVersion ++ "\n"

/-- The outcome of a run that ends with the command line. -/
def outcome (e : UsageError) : Outcome :=
  match e with
  | help _ | version => .printed e.text
  | _ => { exitCode := 2, stdout := "", stderr := e.text }

end UsageError

/-! ## Reading -/

/-- The options given, with their values; a flag has the empty value. -/
abbrev Given := List (String × String)

/-- What may be given on one side of a command's name. -/
structure Side where
  /-- How the program or the command is called. -/
  usage : String
  opts : List Opt
  /-- Arguments that end the run at once. -/
  endings : List (String × UsageError)

/-- The side in front of a command's name. -/
def Side.front : Side :=
  { usage := programUsage, opts := commonOpts,
    endings := [("--help", .help programUsage), ("-h", .help programUsage),
      ("--version", .version), ("-V", .version)] }

/-- The side behind the name of a command. -/
def Side.behind (c : CommandName) : Side :=
  { usage := c.usage, opts := c.opts ++ commonOpts,
    endings := [("--help", .help c.usage), ("-h", .help c.usage)] }

/-- An argument that names an option, cut at its first equals sign. -/
def cutOption (arg : String) : String × Option String :=
  match (arg.toList.takeWhile (· != '='), arg.toList.dropWhile (· != '=')) with
  | (name, _ :: value) => (String.ofList name, some (String.ofList value))
  | (name, []) => (String.ofList name, none)

/-- Whether an argument is taken for an option rather than for a value. -/
def looksLikeOption (arg : String) : Bool :=
  arg.startsWith "-" && arg != "-"

/-- Adds an option that is given. -/
def give (usage : String) (given : Given) (o : Opt) (value : String) :
    Except UsageError Given :=
  if (given.lookup o.name).isSome then .error (.repeated o.shown usage)
  else
    match o.refusal value with
    | some reason => .error (.invalidValue value o.shown reason)
    | none => .ok (given ++ [(o.name, value)])

/-- What is taken on one side of a command's name. -/
structure Taken where
  given : Given
  /-- The last option, if its value has not been looked at, with the value if that
  has come. -/
  pending : Option (Opt × Option String)

namespace Taken

/-- Nothing is taken yet. -/
def start : Taken := { given := [], pending := none }

/-- Looks at the value of the last option. -/
def settle (t : Taken) (side : Side) : Except UsageError Given :=
  match t.pending with
  | none => .ok t.given
  | some (o, none) => .error (.missingValue o.shown)
  | some (o, some value) => give side.usage t.given o value

/-- The long name of an option. -/
def longName (name : String) : String :=
  if name = "-v" then "--verbose" else name

/-- Takes the name of an option, with a value that is attached to it.  A name that
is not known is reported before the option in front of it is looked at. -/
def option (t : Taken) (side : Side) (name : String) (attached : Option String) :
    Except UsageError Taken :=
  match side.endings.lookup name, side.opts.find? (·.name == longName name) with
  | some ending, _ =>
      match attached with
      | some value => .error (.flagValue value name side.usage)
      | none => do
          let _ ← t.settle side
          throw ending
  | none, none => .error (.unexpected name side.usage)
  | none, some o =>
      match o.placeholder, attached with
      | none, some value => .error (.flagValue value o.shown side.usage)
      | none, none => do
          return { given := ← give side.usage (← t.settle side) o "", pending := none }
      | some _, some value => do
          return { given := ← give side.usage (← t.settle side) o value, pending := none }
      | some _, none => do
          return { given := ← t.settle side, pending := some (o, none) }

/-- Takes an argument that looks like an option: a long name, or a dash and any
number of one-letter names. -/
def dashed (t : Taken) (side : Side) (arg : String) : Except UsageError Taken :=
  if arg.startsWith "--" then
    let (name, attached) := cutOption arg
    t.option side name attached
  else
    (arg.toList.drop 1).foldlM
      (fun t letter => t.option side (String.ofList ['-', letter]) none) t

/-- Takes arguments for as long as they are options and their values.  Gives the
first other argument, if there is one, with what follows it.  Two dashes end
the options; no argument may follow them. -/
def scan (t : Taken) (side : Side) :
    List String → Except UsageError (Taken × Option (String × List String))
  | [] => .ok (t, none)
  | arg :: rest =>
      if arg = "--" then
        match rest with
        | [] => .ok (t, none)
        | extra :: _ => .error (.unexpected extra side.usage)
      else if looksLikeOption arg then do (← t.dashed side arg).scan side rest
      else
        match t.pending with
        | some (o, none) => scan { t with pending := some (o, some arg) } side rest
        | _ => .ok (t, some (arg, rest))

end Taken

/-! ## Invocations -/

/-- What a command is asked for. -/
inductive Request
  | decode (args : DecodeArgs)
  | methods (args : MethodsArgs)
  | batch (args : BatchArgs)
  | test (fixtures : String)
  | info
  deriving DecidableEq, Repr

/-- A command with what is common to all commands. -/
structure Invocation where
  verbose : Bool
  config : Option String
  request : Request
  deriving DecidableEq, Repr

namespace Invocation

/-- The request that a command and its options make. -/
def requestOf (given : Given) : CommandName → Request
  | .decode =>
      .decode { calldata := (given.lookup "--calldata").getD "",
                version := (given.lookup "--version").bind Version.ofText?,
                toAddress := (given.lookup "--to").getD "",
                txHash := (given.lookup "--tx-hash").getD "",
                value := (given.lookup "--value").getD "0",
                json := (given.lookup "--json").isSome }
  | .methods =>
      .methods { version := (given.lookup "--version").bind Version.ofText?,
                 selector := given.lookup "--selector" }
  | .batch =>
      .batch { input := (given.lookup "--input").getD "",
               chunkSize := (given.lookup "--chunk-size").bind fun s => (readCount s).toOption,
               mode := (given.lookup "--mode").bind fun s => (ErrorMode.read s).toOption }
  | .test => .test ((given.lookup "--fixtures").getD "./fixtures")
  | .info => .info

/-- Reads a command line.  An option in front of the command and the same one
behind it are no repetition; the one behind it counts. -/
def ofArgs (args : List String) : Except UsageError Invocation := do
  -- In front of the command only the common options are known.
  let (front, rest) ← Taken.start.scan .front args
  let some (name, rest) := rest
    | do
        let _ ← front.settle .front
        throw .noCommand
  let some command := CommandName.ofText? name | throw (.unknownCommand name)
  let side := Side.behind command
  let (behind, rest) ← Taken.start.scan side rest
  if let some (extra, _) := rest then throw (.unexpected extra side.usage)
  let given ← behind.settle side
  if let some o := command.requiredOpt? then
    if (given.lookup o.name).isNone then
      throw (.missingOption o.shown command.leastUsage)
  -- The last option in front of the command is looked at when all behind it is well.
  let before ← front.settle .front
  return { verbose := (before.lookup "--verbose").isSome || (given.lookup "--verbose").isSome,
           config := (given.lookup "--config").or (before.lookup "--config"),
           request := requestOf given command }

end Invocation

end RouterCalldata
