import ResultSearch.Query.Bound
import ResultSearch.Registry
import ResultSearch.Results

/-!
# Filters

A bound query made ready to be asked of many results: the results of the runs it speaks of stand in
it, and its patterns are in small letters.

* `compile`: the filter of a bound query, or the first run without results.
* `accepts`: whether the filter accepts a result.
-/

namespace ResultSearch

/-- A test on the results of some runs. -/
inductive Filter where
  | const (value : Bool)
  | testName (pattern : String)
  | subtestName (pattern : String)
  | testPath (path : String)
  | status (results : RunResults) (test : StatusTest)
  | and (args : List Filter)
  | or (args : List Filter)
  | not (arg : Filter)
  | tally (comparison : Comparison) (count : Nat) (args : List Filter)
  | link (pattern : String) (metadata : PathValues)
  | triaged (results : RunResults) (metadata : PathValues)
  | label (label : String) (metadata : PathValues)
  | feature (feature : String) (data : WebFeatures)
  /-- The runs do not agree. -/
  | different (runs : List RunResults)
  | tentative
  | optional

namespace Filter

/-- The results of a run, or the error that there are none. -/
def resultsOf (results : Table RunId RunResults) (id : RunId) : Except Error RunResults :=
  match results.get? id with
  | some r => .ok r
  | none => .error (.unknownRun id)

mutual

/-- Make a query ready over the results of runs; `columns` are those whose agreement it may ask
for. -/
def compile (results : Table RunId RunResults) (columns : List RunResults) :
    BoundQuery → Except Error Filter
  | .const b => .ok (.const b)
  | .testName pattern => .ok (.testName (Text.lower pattern))
  | .subtestName pattern => .ok (.subtestName (Text.lower pattern))
  | .testPath path => .ok (.testPath (Text.lower path))
  | .status id test => (.status · test) <$> resultsOf results id
  | .and args => .and <$> compileEach results columns args
  | .or args => .or <$> compileEach results columns args
  | .not q => .not <$> compile results columns q
  | .tally comparison count args => .tally comparison count <$> compileEach results columns args
  | .link pattern metadata => .ok (.link (Text.lower pattern) metadata)
  | .triaged id metadata => (.triaged · metadata) <$> resultsOf results id
  | .label wanted metadata => .ok (.label (Text.lower wanted) metadata)
  | .feature wanted data => .ok (.feature wanted data)
  | .quality .different => .ok (.different columns)
  | .quality .tentative => .ok .tentative
  | .quality .optional => .ok .optional

/-- Compile one query after the other, up to the first that speaks of a run without results. -/
def compileEach (results : Table RunId RunResults) (columns : List RunResults) :
    List BoundQuery → Except Error (List Filter)
  | [] => .ok []
  | q :: rest => do
    let f ← compile results columns q
    return f :: (← compileEach results columns rest)

end

/-- Whether not all runs have one status. -/
def disagree (f : Fingerprint) : List RunResults → Bool
  | [] => false
  | first :: rest => rest.any fun r => r.get f ≠ first.get f

mutual

/-- Whether the result under a fingerprint, of the test and subtest named, passes the filter. -/
def accepts (f : Fingerprint) (name : TestName) : Filter → Bool
  | .const b => b
  | .testName pattern => Text.contains (Text.lower name.test) pattern
  | .subtestName pattern => name.subtest.any fun s => Text.contains (Text.lower s) pattern
  | .testPath path => Text.startsWith (Text.lower name.test) path
  | .status results test => test.accepts (results.get f)
  | .and args => acceptsAll f name args
  | .or args => acceptsAny f name args
  | .not arg => !accepts f name arg
  | .tally comparison count args => comparison.accepts count (acceptsCount f name args)
  | .link pattern metadata =>
    metadata.anyValue name.test fun url => Text.contains (Text.lower url) pattern
  | .triaged results metadata =>
    results.get f ≠ .unknown && !(metadata.valuesFor name.test).isEmpty
  | .label wanted metadata => metadata.anyValue name.test fun v => Text.lower v = wanted
  | .feature wanted data => WebFeatures.has data name.test wanted
  | .different runs => disagree f runs
  | .tentative =>
    Text.contains name.test ".tentative." || Text.contains name.test "/tentative/"
  | .optional => Text.contains name.test ".optional."

/-- Whether the result passes all the filters. -/
def acceptsAll (f : Fingerprint) (name : TestName) : List Filter → Bool
  | [] => true
  | x :: rest => accepts f name x && acceptsAll f name rest

/-- Whether the result passes some of the filters. -/
def acceptsAny (f : Fingerprint) (name : TestName) : List Filter → Bool
  | [] => false
  | x :: rest => accepts f name x || acceptsAny f name rest

/-- How many of the filters accept. -/
def acceptsCount (f : Fingerprint) (name : TestName) : List Filter → Nat
  | [] => 0
  | x :: rest => (if accepts f name x then 1 else 0) + acceptsCount f name rest

end

end Filter

end ResultSearch
