import ResultSearch.Document.Metadata
import ResultSearch.Text.Split

/-!
# Remote services

Runs, reports and metadata as they are fetched from services on the network. A fetch sends one request
and reads one reply; a reply that reports a failure, or whose body cannot be read, counts as a failure
of the transport.

* `Network`: what comes back from a request.
* `fetchRuns`, `loadReport`, `fetchMetadata`, `fetchWebFeatures`: what is made of it.
-/

namespace ResultSearch

/-- What a service replies to a request. -/
structure Reply where
  status : Nat
  body : List UInt8

/-- The replies to requests for URLs; `none` if there is no connection. -/
abbrev Network := String → Option Reply

namespace Network

/-- A network without any connection. -/
def offline : Network := fun _ => none

end Network

/-- The result of a fetch, with the URL of the request that a service received. -/
structure Fetch (α : Type) where
  request : Option String
  result : Except Error α

namespace Remote

/-- Whether a status reports a failure. -/
def isFailure (status : Nat) : Bool := decide (400 ≤ status) && decide (status < 600)

/-- Fetch a URL and read the body of the reply. -/
def get {α : Type} (net : Network) (url : String) (read : List UInt8 → Except Error α) : Fetch α :=
  match net url with
  | none => ⟨none, .error .transport⟩
  | some reply => ⟨some url, if isFailure reply.status then .error .transport else read reply.body⟩

/-- Read a document; one that cannot be read counts as a failure of the transport. -/
def document {α : Type} (read : Json → Option α) (body : List UInt8) : Except Error α :=
  match (Json.parseBytes body).bind read with
  | some a => .ok a
  | none => .error .transport

/-- The URL of a service's path, however many slashes end the base. -/
def urlOf (base path : String) : String :=
  String.ofList (Text.trimEnd '/' base.toList) ++ path

/-- The newest runs, no more than a limit. -/
def fetchRuns (net : Network) (base : String) (limit : Nat) : Fetch (List Run) :=
  get net (urlOf base ("/api/runs?max-count=" ++ toString limit)) fun body =>
    (document Run.listOfJson? body).map (List.take limit)

/-- The report of a run. -/
def loadReport (net : Network) (r : Run) : Fetch Report :=
  if r.rawResultsUrl = "" then ⟨none, .error (Report.noPlace r.id)⟩
  else get net r.rawResultsUrl (document Report.ofJson?)

/-- The metadata table. -/
def fetchMetadata (net : Network) (base : String) : Fetch MetadataTable :=
  get net (urlOf base "/api/metadata/cache") (document MetadataTable.ofJson?)

/-- The features of tests, from a manifest. -/
def fetchWebFeatures (net : Network) (url : String) : Fetch WebFeatures :=
  get net url WebFeatures.parse

end Remote

end ResultSearch
