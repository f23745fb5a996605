import ResultSearch.Backfill
import ResultSearch.Cancel
import ResultSearch.Config.Logging
import ResultSearch.Monitor.Settings
import ResultSearch.Query.Request
import ResultSearch.Text.Utf8

/-!
# Configuration

The settings of the whole service, read from a TOML document. Every section and every setting may be
left out. Settings that make no sense are refused, the first of them with its reason.

* `parse`, `load`: the configuration that a text or a file gives.
* `validate`: the order in which settings are looked at.
-/

namespace ResultSearch

/-- How many shards the index has; by default as many as the machine has cores. -/
structure IndexConfig where
  shards : Option Nat
  deriving DecidableEq

/-- How often and how strictly the memory monitor looks at the heap. -/
structure MonitorConfig where
  intervalMs : Nat
  /-- Zero stands for the budget of backfilling. -/
  maxHeapBytes : Nat
  evictionFraction : Float
  maxIngestedRuns : Nat
  deriving DecidableEq

/-- How much memory the index is filled up to at the start, and what a run is taken to need. -/
structure BackfillConfig where
  maxBytes : Nat
  bytesPerRun : Nat
  deriving DecidableEq

/-- How often new runs are asked for, and how many at once. -/
structure PollConfig where
  intervalMs : Nat
  maxRuns : Nat
  deriving DecidableEq

/-- What a request may ask for, and how long answering it may take. -/
structure QueryConfig where
  maxRunsPerRequest : Nat
  executeTimeoutMs : Option Nat
  deriving DecidableEq

/-- Where runs and metadata are fetched from. -/
structure ServiceConfig where
  baseUrl : String
  deriving DecidableEq

/-- All settings of the service. -/
structure Config where
  index : IndexConfig
  monitor : MonitorConfig
  backfill : BackfillConfig
  poll : PollConfig
  query : QueryConfig
  service : ServiceConfig
  logging : LogConfig
  deriving DecidableEq

namespace IndexConfig

/-- As many shards as the machine has cores. -/
def standard : IndexConfig := ⟨none⟩

/-- Read the settings of the index. -/
def ofToml? (v : Toml) : Option IndexConfig := do
  let [shards] ← v.record? ["shards"] | none
  return ⟨← Toml.orDefault none (fun v => v.nat?.map some) shards⟩

end IndexConfig

namespace MonitorConfig

/-- The standard settings of a monitor, with the budget of backfilling as its limit. -/
def standard : MonitorConfig :=
  ⟨MonitorSettings.standard.interval, 0, MonitorSettings.standard.evictionFraction,
    MonitorSettings.standard.maxIngestedRuns⟩

/-- Read the settings of the monitor. -/
def ofToml? (v : Toml) : Option MonitorConfig := do
  let [intervalMs, maxHeapBytes, evictionFraction, maxIngestedRuns] ← v.record?
    ["interval_ms", "max_heap_bytes", "eviction_fraction", "max_ingested_runs"] | none
  return {
    intervalMs := ← Toml.orDefault standard.intervalMs Toml.nat? intervalMs
    maxHeapBytes := ← Toml.orDefault standard.maxHeapBytes Toml.nat? maxHeapBytes
    evictionFraction := ← Toml.orDefault standard.evictionFraction Toml.float? evictionFraction
    maxIngestedRuns := ← Toml.orDefault standard.maxIngestedRuns Toml.nat? maxIngestedRuns }

end MonitorConfig

namespace BackfillConfig

/-- Eight gibibytes, filled with runs of the usual size. -/
def standard : BackfillConfig := ⟨8 * 1024 * 1024 * 1024, ResultSearch.bytesPerRun⟩

/-- Read the settings of backfilling. -/
def ofToml? (v : Toml) : Option BackfillConfig := do
  let [maxBytes, bytesPerRun] ← v.record? ["max_bytes", "bytes_per_run"] | none
  return {
    maxBytes := ← Toml.orDefault standard.maxBytes Toml.nat? maxBytes
    bytesPerRun := ← Toml.orDefault standard.bytesPerRun Toml.nat? bytesPerRun }

/-- How many runs fit into the budget. -/
def runBudget (c : BackfillConfig) : Nat := ResultSearch.runBudget c.maxBytes c.bytesPerRun

end BackfillConfig

namespace PollConfig

/-- Ten runs every ten seconds. -/
def standard : PollConfig := ⟨10000, 10⟩

/-- Read the settings of polling. -/
def ofToml? (v : Toml) : Option PollConfig := do
  let [intervalMs, maxRuns] ← v.record? ["interval_ms", "max_runs"] | none
  return {
    intervalMs := ← Toml.orDefault standard.intervalMs Toml.nat? intervalMs
    maxRuns := ← Toml.orDefault standard.maxRuns Toml.nat? maxRuns }

end PollConfig

namespace QueryConfig

/-- Sixteen runs in a request, and no deadline. -/
def standard : QueryConfig := ⟨16, none⟩

/-- Read the settings of requests. -/
def ofToml? (v : Toml) : Option QueryConfig := do
  let [maxRunsPerRequest, executeTimeoutMs] ←
    v.record? ["max_runs_per_request", "execute_timeout_ms"] | none
  return {
    maxRunsPerRequest := ← Toml.orDefault standard.maxRunsPerRequest Toml.nat? maxRunsPerRequest
    executeTimeoutMs := ← Toml.orDefault none (fun v => v.nat?.map some) executeTimeoutMs }

/-- The request that a text spells, if it does not ask for too many runs. -/
def parseRequest (c : QueryConfig) (body : String) : Except Error Request :=
  Request.parseWithin c.maxRunsPerRequest body

/-- A token with the configured deadline, if there is one. -/
def cancelToken (c : QueryConfig) (flag now : Nat) : CancelToken :=
  match c.executeTimeoutMs with
  | some ms => (CancelToken.new flag).withTimeout now ms
  | none => CancelToken.new flag

end QueryConfig

namespace ServiceConfig

/-- The public service. -/
def standard : ServiceConfig := ⟨"https://wpt.fyi"⟩

/-- Read the address of the service. -/
def ofToml? (v : Toml) : Option ServiceConfig := do
  let [baseUrl] ← v.record? ["base_url"] | none
  return ⟨← Toml.orDefault standard.baseUrl Toml.string? baseUrl⟩

end ServiceConfig

namespace Config

/-- Read all sections; a section that is left out has its standard settings. -/
def ofToml? (v : Toml) : Option Config := do
  let [index, monitor, backfill, poll, query, service, logging] ← v.record?
    ["index", "monitor", "backfill", "poll", "query", "upstream", "logging"] | none
  return {
    index := ← Toml.orDefault .standard IndexConfig.ofToml? index
    monitor := ← Toml.orDefault .standard MonitorConfig.ofToml? monitor
    backfill := ← Toml.orDefault .standard BackfillConfig.ofToml? backfill
    poll := ← Toml.orDefault .standard PollConfig.ofToml? poll
    query := ← Toml.orDefault .standard QueryConfig.ofToml? query
    service := ← Toml.orDefault .standard ServiceConfig.ofToml? service
    logging := ← Toml.orDefault .standard LogConfig.ofToml? logging }

/-- Refuse settings that make no sense. -/
def validate (c : Config) : Except ConfigError Unit :=
  if c.index.shards = some 0 then .error (.invalid "index.shards must be at least 1")
  else if c.monitor.intervalMs = 0 then
    .error (.invalid "monitor.interval_ms must be greater than 0")
  else if !MonitorSettings.isFraction c.monitor.evictionFraction then
    .error (.invalid ("monitor.eviction_fraction must be within [0, 1], got " ++
      Decimal.text c.monitor.evictionFraction))
  else if c.backfill.bytesPerRun = 0 then
    .error (.invalid "backfill.bytes_per_run must be greater than 0")
  else if c.poll.intervalMs = 0 then .error (.invalid "poll.interval_ms must be greater than 0")
  else if c.query.maxRunsPerRequest = 0 then
    .error (.invalid "query.max_runs_per_request must be at least 1")
  else .ok ()

/-- The configuration that a text gives. -/
def parse (s : String) : Except ConfigError Config :=
  match (Toml.parse s).bind ofToml? with
  | none => .error .parse
  | some c => do
    c.validate
    return c

/-- The configuration that a file gives, if there is such a file. -/
def load (file : Option (List UInt8)) : Except ConfigError Config :=
  match file.bind Text.Utf8.decodeText with
  | none => .error .read
  | some s => parse s

/-- What the memory monitor is set to. -/
def monitorSettings (c : Config) : MonitorSettings where
  interval := c.monitor.intervalMs
  maxHeapBytes :=
    if c.monitor.maxHeapBytes = 0 then c.backfill.maxBytes else c.monitor.maxHeapBytes
  evictionFraction := c.monitor.evictionFraction
  maxIngestedRuns := c.monitor.maxIngestedRuns

end Config

end ResultSearch
