import ResultSearch.Text.Quoted
import ResultSearch.Decimal.Shortest

/-!
# Errors

The causes for which an operation fails. Every cause has a stable code and, where it is known, the
text that explains it; failures of a reader of documents or of a transport have a code only.
-/

namespace ResultSearch

/-- The identity of a run, assigned elsewhere; zero is no identity. -/
abbrev RunId := Int

/-- Why a query, a product spec or a diff filter is refused. -/
inductive QueryError where
  | unknownFragment
  | missingRunIds
  | invalidStatus (name : String)
  | invalidProduct (spec : String)
  | unknownQuality (name : String)
  | tooManyRuns (requested most : Nat)
  | invalidDiffFilter (letter : Char)
  deriving DecidableEq

namespace QueryError

/-- The code of a refused query. -/
def code : QueryError → String
  | unknownFragment => "query.unknown_fragment"
  | missingRunIds => "query.missing_run_ids"
  | invalidStatus _ => "query.invalid_status"
  | invalidProduct _ => "query.invalid_product"
  | unknownQuality _ => "query.unknown_quality"
  | tooManyRuns _ _ => "query.too_many_runs"
  | invalidDiffFilter _ => "query.invalid_diff_filter"

/-- Why a query is refused, in words. -/
def message : QueryError → String
  | unknownFragment => "failed to parse query fragment as any of the existing search atoms"
  | missingRunIds => "missing run query property: \x22run_ids\x22"
  | invalidStatus name => "invalid test status: " ++ Text.quoted name
  | invalidProduct spec => "invalid product spec: " ++ spec
  | unknownQuality name => "unknown \x22is\x22 quality \x22" ++ name ++ "\x22"
  | tooManyRuns requested most =>
    "too many runs in query: " ++ toString requested ++ " requested, at most " ++ toString most ++
      " allowed"
  | invalidDiffFilter letter => "invalid diff filter character " ++ Text.quotedChar letter

end QueryError

/-- Why a memory monitor refuses a request, or how its loop ended. -/
inductive MonitorError where
  | running
  | stopped
  | invalidFraction (fraction : Float)
  | zeroInterval
  deriving DecidableEq

namespace MonitorError

/-- The code of what a monitor refuses. -/
def code : MonitorError → String
  | running => "monitor.running"
  | stopped => "monitor.stopped"
  | invalidFraction _ => "monitor.invalid_fraction"
  | zeroInterval => "monitor.zero_interval"

/-- Why a monitor refuses a request, in words. -/
def message : MonitorError → String
  | running => "monitor already running"
  | stopped => "monitor already stopped"
  | invalidFraction fraction =>
    "eviction fraction must be within [0, 1], got " ++ Decimal.text fraction
  | zeroInterval => "monitor interval must be greater than zero"

end MonitorError

/-- Why a configuration is refused; only an invalid value has a text of its own. -/
inductive ConfigError where
  | read
  | parse
  | invalid (reason : String)
  deriving DecidableEq

namespace ConfigError

/-- The code of a refused configuration. -/
def code : ConfigError → String
  | read => "config.read"
  | parse => "config.parse"
  | invalid _ => "config.validation"

/-- Which value is invalid, in words. -/
def message? : ConfigError → Option String
  | invalid reason => some ("invalid config value: " ++ reason)
  | _ => none

end ConfigError

/-- Why a query execution was abandoned. -/
inductive Cancellation where
  | cancelled
  | deadline
  deriving DecidableEq

/-- Why an operation failed. -/
inductive Error where
  | nilRun
  | noRuns
  | noQuery
  | runExists (id : RunId)
  | runLoading (id : RunId)
  | unknownRun (id : RunId)
  | someShardsRequired
  | zeroSubtestHash (subtest : String)
  | testNotFound (fingerprint : String)
  | cancelled (cause : Cancellation)
  | query (cause : QueryError)
  | monitor (cause : MonitorError)
  | load (id : RunId) (reason : String)
  | payload (reason : String)
  | transport
  | document
  deriving DecidableEq

namespace Error

/-- The code of a failure; a query and a monitor have codes of their own. -/
def code : Error → String
  | nilRun => "index.nil_run"
  | noRuns => "index.no_runs"
  | noQuery => "index.no_query"
  | runExists _ => "index.run_exists"
  | runLoading _ => "index.run_loading"
  | unknownRun _ => "index.unknown_run"
  | someShardsRequired => "index.some_shards_required"
  | zeroSubtestHash _ => "registry.zero_subtest_hash"
  | testNotFound _ => "registry.test_not_found"
  | cancelled _ => "plan.cancelled"
  | query cause => cause.code
  | monitor cause => cause.code
  | load _ _ => "loader.failed"
  | payload _ => "upstream.payload"
  | transport => "upstream.http"
  | document => "json"

/-- What failed, in words; nothing for a failure of which only the code is known. -/
def message? : Error → Option String
  | nilRun => some "cannot ingest a run with id 0"
  | noRuns => some "no runs"
  | noQuery => some "no query provided"
  | runExists id => some ("run already loaded: " ++ toString id)
  | runLoading id => some ("run is currently being loaded: " ++ toString id)
  | unknownRun id => some ("unknown run: " ++ toString id)
  | someShardsRequired => some "index requires at least one shard"
  | zeroSubtestHash subtest =>
    some ("subtest id for string " ++ Text.quoted subtest ++ " is 0")
  | testNotFound fingerprint => some ("test not found in registry: " ++ fingerprint)
  | cancelled .cancelled => some "operation cancelled: query cancelled"
  | cancelled .deadline => some "operation cancelled: query deadline exceeded"
  | query cause => some ("query error: " ++ cause.message)
  | monitor cause => some ("monitor error: " ++ cause.message)
  | load id reason => some ("report load failed for run " ++ toString id ++ ": " ++ reason)
  | payload reason => some ("unexpected upstream payload: " ++ reason)
  | transport => none
  | document => none

/-- Several producers may offer one run at a time, so these two are no failures to them. -/
def isExpectedSkip : Error → Bool
  | runExists _ => true
  | runLoading _ => true
  | _ => false

end Error

end ResultSearch
