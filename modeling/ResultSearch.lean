import ResultSearch.Config.Basic
import ResultSearch.Json.Printer
import ResultSearch.Remote
import ResultSearch.Session.Script
import ResultSearch.Proofs.Query.Evaluation
import ResultSearch.Proofs.Metadata
import ResultSearch.Proofs.Query.Binding
import ResultSearch.Proofs.Query.Meaning
import ResultSearch.Proofs.Query.Fragments
import ResultSearch.Proofs.Query.Order
import ResultSearch.Proofs.Query.Folding
import ResultSearch.Proofs.Query.NormalForm
import ResultSearch.Proofs.Query.Weight
import ResultSearch.Proofs.Query.NoRun
import ResultSearch.Proofs.Index.Staging
import ResultSearch.Proofs.Index.Shards
import ResultSearch.Proofs.Aggregation
import ResultSearch.Proofs.Index.Flat
import ResultSearch.Proofs.Index.Isolation
import ResultSearch.Proofs.Index.Snapshot
import ResultSearch.Proofs.Index.Ingestions
import ResultSearch.Proofs.Index.Answers
import ResultSearch.Proofs.Columns
import ResultSearch.Proofs.Index.Order
import ResultSearch.Proofs.Monitor.Watched
import ResultSearch.Proofs.Monitor.Calls
import ResultSearch.Proofs.Session.Running
import ResultSearch.Proofs.Index.Failures
import ResultSearch.Proofs.Query.Trials
import ResultSearch.Proofs.Product
import ResultSearch.Proofs.Time.Calendar
import ResultSearch.Proofs.Time.Rfc3339
import ResultSearch.Proofs.Document.Values
import ResultSearch.Proofs.Document.RoundTrip
import ResultSearch.Proofs.Document.Row
import ResultSearch.Proofs.Index.Refusals
import ResultSearch.Proofs.Tallies
import ResultSearch.Proofs.Differences
import ResultSearch.Proofs.Index.Evictions
import ResultSearch.Proofs.Selection
import ResultSearch.Proofs.Paths
import ResultSearch.Proofs.Query.LiteralMatches
import ResultSearch.Proofs.Index.Reported
import ResultSearch.Proofs.Cancellation
import ResultSearch.Proofs.Polling
import ResultSearch.Proofs.Session.Polling
import ResultSearch.Proofs.WebFeatures
import ResultSearch.Proofs.Session.Pacing
import ResultSearch.Proofs.Session.Launch
