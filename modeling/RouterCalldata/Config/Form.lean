import RouterCalldata.Config
import RouterCalldata.Record.Form
import RouterCalldata.Document.Json.Reader

/-!
# Configurations as documents

A section or a member that is missing has its default; members of other names
are ignored.  The default of a member is said where the member is read, and that
of a section is its value in `Config.default`.

## Main definitions

* `toDocument`, `ofDocument?` for `Decoder`, `Batch.Config`, `LogSettings`,
  `LogConfig` and `Config`;
* `Config.ofJson?`: reads a configuration from a JSON text.
-/

namespace RouterCalldata

open Document (orElse)

namespace Decoder

/-- The members, in the order in which they are written. -/
def memberNames : List String := ["max_multicall_depth", "exchange"]

/-- The written form. -/
def toDocument (d : Decoder) : Document :=
  .object [("max_multicall_depth", .number (.nat d.maxMulticallDepth)),
    ("exchange", .string d.exchange)]

/-- Reads the decoder's section. -/
def ofDocument? (d : Document) : Option Decoder := do
  let ms ← d.members? memberNames
  return {
    maxMulticallDepth :=
      ← orElse ms "max_multicall_depth" Decoder.default.maxMulticallDepth Document.asNat?
    exchange := ← orElse ms "exchange" Decoder.default.exchange Document.asText? }

end Decoder

namespace Batch.Config

/-- The members, in the order in which they are written. -/
def memberNames : List String := ["chunk_size", "error_mode"]

/-- The written form. -/
def toDocument (c : Batch.Config) : Document :=
  .object [("chunk_size", .number (.nat c.chunkSize)), ("error_mode", c.errorMode.toDocument)]

/-- Reads the section on batches. -/
def ofDocument? (d : Document) : Option Batch.Config := do
  let ms ← d.members? memberNames
  return {
    chunkSize := ← orElse ms "chunk_size" Batch.Config.default.chunkSize Document.asNat?
    errorMode := ← orElse ms "error_mode" .skip ErrorMode.ofDocument? }

end Batch.Config

namespace NameMap

/-- The written form. -/
def toDocument (m : NameMap) : Document :=
  .object (m.entries.map fun (name, text) => (name, .string text))

/-- Reads a map; of two entries of one name the later one counts. -/
def ofDocument? (d : Document) : Option NameMap := do
  let es ← (← d.entries?).mapM fun (name, d) => return (name, ← d.asText?)
  return ofList es

end NameMap

namespace LogSettings

/-- The members, in the order in which they are written. -/
def memberNames : List String := ["level", "components", "json"]

/-- The written form. -/
def toDocument (s : LogSettings) : Document :=
  .object [("level", .string s.level), ("components", s.components.toDocument),
    ("json", .bool s.json)]

/-- Reads the log's section. -/
def ofDocument? (d : Document) : Option LogSettings := do
  let ms ← d.members? memberNames
  return {
    level := ← orElse ms "level" LogSettings.default.level Document.asText?
    components := ← orElse ms "components" .empty NameMap.ofDocument?
    json := ← orElse ms "json" false Document.asBool? }

end LogSettings

namespace LogConfig

/-- The members, in the order in which they are written. -/
def memberNames : List String := ["level", "components", "json"]

/-- The written form. -/
def toDocument (c : LogConfig) : Document :=
  .object [("level", .string c.level), ("components", c.components.toDocument),
    ("json", .bool c.json)]

/-- Reads a set-up of the log on its own. -/
def ofDocument? (d : Document) : Option LogConfig := do
  let ms ← d.members? memberNames
  return {
    level := ← orElse ms "level" "info" Document.asText?
    components := ← orElse ms "components" .empty NameMap.ofDocument?
    json := ← orElse ms "json" false Document.asBool? }

end LogConfig

namespace Config

/-- The sections, in the order in which they are written. -/
def memberNames : List String := ["decoder", "batch", "log"]

/-- The written form. -/
def toDocument (c : Config) : Document :=
  .object [("decoder", c.decoder.toDocument), ("batch", c.batch.toDocument),
    ("log", c.log.toDocument)]

/-- Reads a configuration. -/
def ofDocument? (d : Document) : Option Config := do
  let ms ← d.members? memberNames
  return {
    decoder := ← orElse ms "decoder" .default Decoder.ofDocument?
    batch := ← orElse ms "batch" .default Batch.Config.ofDocument?
    log := ← orElse ms "log" .default LogSettings.ofDocument? }

/-- Reads a configuration from a JSON text. -/
def ofJson? (s : String) : Option Config := do
  ofDocument? (← Document.ofJson? s)

end Config

end RouterCalldata
