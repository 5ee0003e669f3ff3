import RouterCalldata.Command.Args
import RouterCalldata.Command.Fixture
import RouterCalldata.Document.Yaml.Reader

/-!
# The program

A run is a function of the arguments and of what is found at paths.  The
configuration is loaded before the command is looked at.

## Main definitions

* `loadConfig`: a configuration file, indented or JSON by its extension;
* `infoLines`: what `info` prints;
* `Program.run`: a run of the program;
* `Invocation.paths`: the paths a run may look at.
-/

namespace RouterCalldata

/-- Whether a path is one of an indented configuration. -/
def isIndentedConfig (path : String) : Bool :=
  match (Path.fileName? path).bind Path.extension? with
  | some "yaml" | some "yml" => true
  | _ => false

/-- Loads a configuration file. -/
def loadConfig (files : Lookup) (path : String) : Except CommandError Config :=
  match files.readText path with
  | .error e => .error (.dueTo s!"read config file '{path}'" e.message)
  | .ok text =>
      if isIndentedConfig path then
        match (Document.ofYaml? text).bind Config.ofDocument? with
        | some c => .ok c
        | none => .error (.dueTo "parse YAML config" unreadableDocument)
      else
        match Config.ofJson? text with
        | some c => .ok c
        | none => .error (.dueTo "parse JSON config" unreadableDocument)

/-- What `info` prints. -/
def infoLines : List String :=
  ["SwapCodec v" ++ programVersion,
    "",
    "Capabilities:",
    "  ✓ Uniswap V2 router        (swaps, add/remove liquidity)",
    "  ✓ Uniswap V3 SwapRouter    (exact input/output, single and multi-hop)",
    "  ✓ Multicall expansion      (multicall(bytes[]), multicall(uint256,bytes[]))",
    "  ✓ Packed V3 paths          (token | fee | token ...)",
    "  ✓ Parallel batch decode    (Rayon)",
    "  ✓ Structured logging       (tracing, JSON optional)",
    "  ✓ OpenTelemetry metrics",
    "",
    s!"Registered methods:          {V2Method.all.length} V2, {V3Method.all.length} V3",
    "Known routers:",
    "  V2  " ++ Router.v2Address,
    "  V3  " ++ Router.v3Address,
    "  V3  " ++ Router.v3Address02]

/-- The paths a run may look at. -/
def Invocation.paths (i : Invocation) : List String :=
  i.config.toList ++
    match i.request with
    | .batch args => [args.input]
    | .test fixtures => [fixtures]
    | _ => []

namespace Program

/-- Runs a command under a configuration. -/
def perform (files : Lookup) (verbose : Bool) (config : Config) :
    Request → Except CommandError Outcome
  | .decode args => Command.decode config args
  | .methods args => Command.methods args
  | .batch args => Command.batch files config args
  | .test fixtures => .ok (Command.test files config.decoder verbose fixtures)
  | .info => .ok (.printed (unlines infoLines))

/-- Runs an invocation. -/
def invoke (files : Lookup) (i : Invocation) : Outcome :=
  .ofResult do
    let config ← match i.config with
      | some path => loadConfig files path
      | none => pure .default
    perform files i.verbose config i.request

/-- A run of the program. -/
def run (files : Lookup) (args : List String) : Outcome :=
  match Invocation.ofArgs args with
  | .error e => e.outcome
  | .ok i => invoke files i

end Program

end RouterCalldata
