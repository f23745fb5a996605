import ResultSearch.Text.LowerCase
import ResultSearch.Toml.Parser

/-!
# Logging settings

What is logged, in which format, and to which file besides.
-/

namespace ResultSearch

/-- How a line of the log is written. -/
inductive LogFormat where
  | pretty
  | json
  deriving DecidableEq

namespace LogFormat

instance : Inhabited LogFormat := ⟨pretty⟩

/-- The name of a format. -/
def name : LogFormat → String
  | pretty => "pretty"
  | json => "json"

/-- The format with exactly this name. -/
def named? (name : String) : Option LogFormat := [pretty, json].find? fun f => f.name = name

/-- The format that a text names, in small letters or not. -/
def parse? (text : String) : Option LogFormat := named? (Text.lowerAscii text)

/-- Why a text names no format. -/
def unknownMessage (text : String) : String :=
  "unknown log format: " ++ text ++ ". Expected pretty or json"

end LogFormat

/-- What is logged, and how. -/
structure LogConfig where
  level : String
  format : LogFormat
  file : Option String
  deriving DecidableEq

namespace LogConfig

/-- Readable lines of level `info`, in no file. -/
def standard : LogConfig := ⟨"info", .pretty, none⟩

instance : Inhabited LogConfig := ⟨standard⟩

/-- Read the settings of logging. -/
def ofToml? (v : Toml) : Option LogConfig := do
  let [level, format, file] ← v.record? ["level", "format", "file"] | none
  return {
    level := ← Toml.orDefault standard.level Toml.string? level
    format := ← Toml.orDefault standard.format (Toml.variant? LogFormat.named?) format
    file := ← Toml.orDefault none (fun v => v.string?.map some) file }

/-- The settings that a text gives. -/
def parse? (s : String) : Option LogConfig := (Toml.parse s).bind ofToml?

end LogConfig

end ResultSearch
