import RouterCalldata.Batch
import RouterCalldata.Document.NameMap

/-!
# Configuration

A configuration has a section for the decoder, one for batches and one for the
log.  Everything in it has a default.

## Main definitions

* `LogSettings`: the log section of a configuration;
* `Config`: the three sections;
* `LogConfig`: what the log is set up with;
* `LogConfig.directives`: the same as one line of filter directives.
-/

namespace RouterCalldata

/-- The log section of a configuration. -/
structure LogSettings where
  /-- The level of all that has no level of its own. -/
  level : String
  /-- The levels of single components. -/
  components : NameMap
  /-- Whether the log is written in JSON. -/
  json : Bool
  deriving DecidableEq

/-- Level `info` for everything. -/
def LogSettings.default : LogSettings :=
  { level := "info", components := .empty, json := false }

/-- A configuration. -/
structure Config where
  decoder : Decoder
  batch : Batch.Config
  log : LogSettings
  deriving DecidableEq

/-- The configuration in which everything has its default. -/
def Config.default : Config :=
  { decoder := .default, batch := .default, log := .default }

/-- What the log is set up with. -/
structure LogConfig where
  level : String
  components : NameMap
  json : Bool
  deriving DecidableEq

namespace LogConfig

/-- The set-up that a configuration asks for. -/
def ofSettings (s : LogSettings) : LogConfig :=
  { level := s.level, components := s.components, json := s.json }

/-- A component's name as a directive spells it. -/
def directiveName (name : String) : String :=
  name.map fun c => if c = '-' then '_' else c

/-- The level, followed by the level of each component in the order of their
names. -/
def directives (c : LogConfig) : String :=
  c.level ++
    String.join (c.components.sorted.map fun (name, level) =>
      "," ++ directiveName name ++ "=" ++ level)

end LogConfig

end RouterCalldata
