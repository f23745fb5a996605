import ResultSearch.Document.Metadata
import ResultSearch.Document.Row
import ResultSearch.Proofs.Document.Values
import ResultSearch.Proofs.Json.Strings
import ResultSearch.Proofs.Product
import ResultSearch.Proofs.Time.Rfc3339

/-!
# Documents written and read

Runs, reports, metadata and the options of rows come from JSON and go to JSON. However a document
was spelled, with fields left out, members in another order or arrays for records: the value that it
gives is written as a document that gives the same value.

* `ofJson?_eq_some_iff`: for each kind of record, what its fields are read from.
* `faithful`: for each kind, that what was read is written so that it is read again.
* `spec_survives_display`: a spec that was read is read again from what it is displayed as.
* `documents_survive`: the same for whole documents.
-/

namespace ResultSearch

open Json (fields record? orDefault optional? string? bool? listOf? Faithful)

/-! ## Texts with a meaning -/

theorem Status.faithful : Faithful Status.ofJson? Status.toJson :=
  Json.faithful_of_read_write fun s => congrArg some (Status.ofReport_name s)

theorem Timestamp.ofJson?_toJson {t : Timestamp} (h : t.InCalendar) : ofJson? t.toJson = some t := by
  rw [ofJson?, toJson, Json.string?, Option.bind_some]
  exact parse?_write h

theorem Timestamp.faithful : Faithful Timestamp.ofJson? Timestamp.toJson := by
  intro j t h
  obtain ⟨s, -, hs⟩ := Option.bind_eq_some_iff.1 h
  exact ofJson?_toJson (inCalendar_of_parse? hs)

theorem Timestamp.inCalendar_default : (default : Timestamp).InCalendar :=
  ⟨⟨by decide, by decide⟩, by decide, by decide⟩

theorem Product.ofJson?_toJson (p : Product) : ofJson? p.toJson = ofChars? p.text.toList := by
  rw [ofJson?, toJson, Json.string?, Option.bind_some]

theorem Product.faithful : Faithful Product.ofJson? Product.toJson := by
  intro j p h
  obtain ⟨s, -, hs⟩ := Option.bind_eq_some_iff.1 h
  rw [ofJson?_toJson, text, String.toList_ofList]
  exact ofChars?_toChars (wellFormed_of_ofChars? hs)

namespace Product

/-- A spec that was read is read again from its own text, which no other spec has, and from its JSON
text. -/
theorem spec_survives_display {s : String} {p : Product} (h : parse s = .ok p) :
    parse p.text = .ok p ∧ (∀ s' q, parse s' = .ok q → q.text = p.text → q = p) ∧
      Json.parse (Json.print p.toJson) = some p.toJson ∧ ofJson? p.toJson = some p := by
  have hread : ∀ s' q, parse s' = .ok q → parse q.text = .ok q := fun _ _ hq =>
    parse_text (wellFormed_of_ofChars? (parse_eq_ok_iff.1 hq))
  refine ⟨hread s p h, fun s' q hq htext => ?_, Json.parse_print_str p.text,
    (ofJson?_toJson p).trans (parse_eq_ok_iff.1 (hread s p h))⟩
  have hsame : (.ok q : Except QueryError Product) = .ok p := by
    rw [← hread s' q hq, htext, hread s p h]
  exact Except.ok.inj hsame

/-- A version with a word, an empty name of a system, labels that are empty, repeated and not in
order, a revision that is too long, and characters that are escaped in JSON. -/
theorem spec_survives_display_of_hard_parts :
    let s := "Chrome-63.0 be\ta]--18.04a1[b\"\t,,a,b\"\t,]@0123456789abcdefABCDEF"
    let p : Product := ⟨"chrome", some "63.0 be\ta]", some "", some "18.04a1", ["a", "b\"\t"],
      some "0123456789"⟩
    parse s = .ok p ∧ p.text = "chrome-63.0 be\ta]--18.04a1[a,b\"\t]@0123456789" ∧
      parse p.text = .ok p ∧
      parse "CHROME-63.0 be\ta]--18.04a1[a,b\"\t]@0123456789" = .ok p ∧
      (∀ q, parse "CHROME-63.0 be\ta]--18.04a1[a,b\"\t]@0123456789" = .ok q → q.text = p.text →
        q = p) ∧
      Json.parse (Json.print p.toJson) = some p.toJson ∧ ofJson? p.toJson = some p := by
  intro s p
  have hs : parse s = .ok p := parse_eq_ok_iff.2 (by decide +kernel)
  have htext : p.text = "chrome-63.0 be\ta]--18.04a1[a,b\"\t]@0123456789" := by decide +kernel
  obtain ⟨hparse, hsame, hprinted, hread⟩ := spec_survives_display hs
  exact ⟨hs, htext, hparse, parse_eq_ok_iff.2 (by decide +kernel), hsame _, hprinted, hread⟩

end Product

/-! ## Reports -/

namespace SubtestResult

theorem ofJson?_eq_some_iff {j : Json} {s : SubtestResult} : ofJson? j = some s ↔
    ∃ name status message, j.record? ["name", "status", "message"] = some [name, status, message] ∧
      orDefault "" string? name = some s.name ∧
      orDefault .unknown Status.ofJson? status = some s.status ∧
      orDefault none (optional? string?) message = some s.message := by
  constructor
  · intro h
    obtain ⟨values, hvalues, h⟩ := Option.bind_eq_some_iff.1 h
    split at h
    · obtain ⟨name, hname, h⟩ := Option.bind_eq_some_iff.1 h
      obtain ⟨status, hstatus, h⟩ := Option.bind_eq_some_iff.1 h
      obtain ⟨message, hmessage, h⟩ := Option.bind_eq_some_iff.1 h
      obtain rfl := Option.some.inj h
      exact ⟨_, _, _, hvalues, hname, hstatus, hmessage⟩
    · cases h
  · rintro ⟨name, status, message, hvalues, hname, hstatus, hmessage⟩
    rw [ofJson?, hvalues]
    dsimp only [Option.bind_eq_bind, Option.bind_some]
    rw [hname, hstatus, hmessage]
    rfl

theorem toJson_eq (s : SubtestResult) : s.toJson = .obj (fields ["name", "status", "message"]
    [some (.str s.name), some s.status.toJson, s.message.map .str]) := by
  obtain ⟨name, status, message⟩ := s
  cases message <;> rfl

theorem faithful : Faithful ofJson? toJson := by
  intro j s h
  obtain ⟨name, status, message, -, hname, hstatus, hmessage⟩ := ofJson?_eq_some_iff.1 h
  rw [toJson_eq]
  exact ofJson?_eq_some_iff.2 ⟨_, _, _, Json.record?_fields (by decide) rfl,
    Json.faithful_string.orDefault rfl hname, Status.faithful.orDefault rfl hstatus,
    Json.faithful_string.optional nofun hmessage⟩

end SubtestResult

namespace TestResult

theorem ofJson?_eq_some_iff {j : Json} {t : TestResult} : ofJson? j = some t ↔
    ∃ test status message subtests,
      j.record? ["test", "status", "message", "subtests"] =
        some [test, status, message, subtests] ∧
      orDefault "" string? test = some t.test ∧
      orDefault .unknown Status.ofJson? status = some t.status ∧
      orDefault none (optional? string?) message = some t.message ∧
      orDefault [] (listOf? SubtestResult.ofJson?) subtests = some t.subtests := by
  constructor
  · intro h
    obtain ⟨values, hvalues, h⟩ := Option.bind_eq_some_iff.1 h
    split at h
    · obtain ⟨test, htest, h⟩ := Option.bind_eq_some_iff.1 h
      obtain ⟨status, hstatus, h⟩ := Option.bind_eq_some_iff.1 h
      obtain ⟨message, hmessage, h⟩ := Option.bind_eq_some_iff.1 h
      obtain ⟨subtests, hsubtests, h⟩ := Option.bind_eq_some_iff.1 h
      obtain rfl := Option.some.inj h
      exact ⟨_, _, _, _, hvalues, htest, hstatus, hmessage, hsubtests⟩
    · cases h
  · rintro ⟨test, status, message, subtests, hvalues, htest, hstatus, hmessage, hsubtests⟩
    rw [ofJson?, hvalues]
    dsimp only [Option.bind_eq_bind, Option.bind_some]
    rw [htest, hstatus, hmessage, hsubtests]
    rfl

theorem toJson_eq (t : TestResult) : t.toJson = .obj (fields
    ["test", "status", "message", "subtests"]
    [some (.str t.test), some t.status.toJson, t.message.map .str,
      some (.arr (t.subtests.map SubtestResult.toJson))]) := by
  obtain ⟨test, status, message, subtests⟩ := t
  cases message <;> rfl

theorem faithful : Faithful ofJson? toJson := by
  intro j t h
  obtain ⟨test, status, message, subtests, -, htest, hstatus, hmessage, hsubtests⟩ :=
    ofJson?_eq_some_iff.1 h
  rw [toJson_eq]
  exact ofJson?_eq_some_iff.2 ⟨_, _, _, _, Json.record?_fields (by decide) rfl,
    Json.faithful_string.orDefault rfl htest, Status.faithful.orDefault rfl hstatus,
    Json.faithful_string.optional nofun hmessage,
    (Json.faithful_listOf SubtestResult.faithful).orDefault rfl hsubtests⟩

end TestResult

namespace Report

theorem ofJson?_eq_some_iff {j : Json} {r : Report} : ofJson? j = some r ↔
    ∃ results info, j.record? ["results", "run_info"] = some [results, info] ∧
      orDefault [] (listOf? TestResult.ofJson?) results = some r.results ∧
      orDefault .null Json.settle? info = some r.info := by
  constructor
  · intro h
    obtain ⟨values, hvalues, h⟩ := Option.bind_eq_some_iff.1 h
    split at h
    · obtain ⟨results, hresults, h⟩ := Option.bind_eq_some_iff.1 h
      obtain ⟨info, hinfo, h⟩ := Option.bind_eq_some_iff.1 h
      obtain rfl := Option.some.inj h
      exact ⟨_, _, hvalues, hresults, hinfo⟩
    · cases h
  · rintro ⟨results, info, hvalues, hresults, hinfo⟩
    rw [ofJson?, hvalues]
    dsimp only [Option.bind_eq_bind, Option.bind_some]
    rw [hresults, hinfo]
    rfl

theorem toJson_eq (r : Report) : r.toJson = .obj (fields ["results", "run_info"]
    [some (.arr (r.results.map TestResult.toJson)), some r.info]) := rfl

theorem faithful : Faithful ofJson? toJson := by
  intro j r h
  obtain ⟨results, info, -, hresults, hinfo⟩ := ofJson?_eq_some_iff.1 h
  rw [toJson_eq]
  exact ofJson?_eq_some_iff.2 ⟨_, _, Json.record?_fields (by decide) rfl,
    (Json.faithful_listOf TestResult.faithful).orDefault rfl hresults,
    Json.faithful_settle.orDefault rfl hinfo⟩

end Report

/-! ## Runs -/

namespace Run

theorem ofJson?_eq_some_iff {j : Json} {r : Run} : ofJson? j = some r ↔
    ∃ id browserName browserVersion osName osVersion revision fullRevisionHash resultsUrl
      rawResultsUrl labels createdAt timeStart timeEnd,
      j.record? fieldNames = some [id, browserName, browserVersion, osName, osVersion, revision,
        fullRevisionHash, resultsUrl, rawResultsUrl, labels, createdAt, timeStart, timeEnd] ∧
      orDefault 0 Json.int64? id = some r.id ∧
      orDefault "" string? browserName = some r.browserName ∧
      orDefault "" string? browserVersion = some r.browserVersion ∧
      orDefault "" string? osName = some r.osName ∧
      orDefault "" string? osVersion = some r.osVersion ∧
      orDefault "" string? revision = some r.revision ∧
      orDefault "" string? fullRevisionHash = some r.fullRevisionHash ∧
      orDefault "" string? resultsUrl = some r.resultsUrl ∧
      orDefault "" string? rawResultsUrl = some r.rawResultsUrl ∧
      orDefault [] (listOf? string?) labels = some r.labels ∧
      orDefault default Timestamp.ofJson? createdAt = some r.createdAt ∧
      orDefault default Timestamp.ofJson? timeStart = some r.timeStart ∧
      orDefault default Timestamp.ofJson? timeEnd = some r.timeEnd := by
  constructor
  · intro h
    obtain ⟨values, hvalues, h⟩ := Option.bind_eq_some_iff.1 h
    split at h
    · obtain ⟨id, hid, h⟩ := Option.bind_eq_some_iff.1 h
      obtain ⟨browserName, hbrowserName, h⟩ := Option.bind_eq_some_iff.1 h
      obtain ⟨browserVersion, hbrowserVersion, h⟩ := Option.bind_eq_some_iff.1 h
      obtain ⟨osName, hosName, h⟩ := Option.bind_eq_some_iff.1 h
      obtain ⟨osVersion, hosVersion, h⟩ := Option.bind_eq_some_iff.1 h
      obtain ⟨revision, hrevision, h⟩ := Option.bind_eq_some_iff.1 h
      obtain ⟨fullRevisionHash, hfullRevisionHash, h⟩ := Option.bind_eq_some_iff.1 h
      obtain ⟨resultsUrl, hresultsUrl, h⟩ := Option.bind_eq_some_iff.1 h
      obtain ⟨rawResultsUrl, hrawResultsUrl, h⟩ := Option.bind_eq_some_iff.1 h
      obtain ⟨labels, hlabels, h⟩ := Option.bind_eq_some_iff.1 h
      obtain ⟨createdAt, hcreatedAt, h⟩ := Option.bind_eq_some_iff.1 h
      obtain ⟨timeStart, htimeStart, h⟩ := Option.bind_eq_some_iff.1 h
      obtain ⟨timeEnd, htimeEnd, h⟩ := Option.bind_eq_some_iff.1 h
      obtain rfl := Option.some.inj h
      exact ⟨_, _, _, _, _, _, _, _, _, _, _, _, _, hvalues, hid, hbrowserName, hbrowserVersion,
        hosName, hosVersion, hrevision, hfullRevisionHash, hresultsUrl, hrawResultsUrl, hlabels,
        hcreatedAt, htimeStart, htimeEnd⟩
    · cases h
  · rintro ⟨id, browserName, browserVersion, osName, osVersion, revision, fullRevisionHash,
      resultsUrl, rawResultsUrl, labels, createdAt, timeStart, timeEnd, hvalues, hid, hbrowserName,
      hbrowserVersion, hosName, hosVersion, hrevision, hfullRevisionHash, hresultsUrl,
      hrawResultsUrl, hlabels, hcreatedAt, htimeStart, htimeEnd⟩
    rw [ofJson?, hvalues]
    dsimp only [Option.bind_eq_bind, Option.bind_some]
    rw [hid, hbrowserName, hbrowserVersion, hosName, hosVersion, hrevision, hfullRevisionHash,
      hresultsUrl, hrawResultsUrl, hlabels, hcreatedAt, htimeStart, htimeEnd]
    rfl

theorem toJson_eq (r : Run) : r.toJson = .obj (fields fieldNames
    [some (.int r.id), some (.str r.browserName), some (.str r.browserVersion),
      some (.str r.osName), some (.str r.osVersion), some (.str r.revision),
      some (.str r.fullRevisionHash), some (.str r.resultsUrl), some (.str r.rawResultsUrl),
      some (.arr (r.labels.map .str)), some r.createdAt.toJson, some r.timeStart.toJson,
      some r.timeEnd.toJson]) := rfl

theorem faithful : Faithful ofJson? toJson := by
  intro j r h
  obtain ⟨_, _, _, _, _, _, _, _, _, _, _, _, _, -, hid, hbrowserName, hbrowserVersion, hosName,
    hosVersion, hrevision, hfullRevisionHash, hresultsUrl, hrawResultsUrl, hlabels, hcreatedAt,
    htimeStart, htimeEnd⟩ := ofJson?_eq_some_iff.1 h
  have htext {given : Option Json} {s : String} (hs : orDefault "" string? given = some s) :
      orDefault "" string? (some (.str s)) = some s := Json.faithful_string.orDefault rfl hs
  have htime {given : Option Json} {t : Timestamp}
      (ht : orDefault default Timestamp.ofJson? given = some t) :
      orDefault default Timestamp.ofJson? (some t.toJson) = some t :=
    Timestamp.faithful.orDefault (Timestamp.ofJson?_toJson Timestamp.inCalendar_default) ht
  rw [toJson_eq]
  exact ofJson?_eq_some_iff.2 ⟨_, _, _, _, _, _, _, _, _, _, _, _, _,
    Json.record?_fields (by decide) rfl, Json.faithful_int64.orDefault rfl hid, htext hbrowserName,
    htext hbrowserVersion, htext hosName, htext hosVersion, htext hrevision,
    htext hfullRevisionHash, htext hresultsUrl, htext hrawResultsUrl,
    (Json.faithful_listOf Json.faithful_string).orDefault rfl hlabels, htime hcreatedAt,
    htime htimeStart, htime htimeEnd⟩

end Run

/-! ## Metadata -/

namespace MetadataLink

theorem ofJson?_eq_some_iff {j : Json} {l : MetadataLink} : ofJson? j = some l ↔
    ∃ product url label subtest,
      j.record? ["product", "url", "label", "subtest"] = some [product, url, label, subtest] ∧
      orDefault none (optional? Product.ofJson?) product = some l.product ∧
      orDefault none (optional? string?) url = some l.url ∧
      orDefault none (optional? string?) label = some l.label ∧
      orDefault none (optional? string?) subtest = some l.subtest := by
  constructor
  · intro h
    obtain ⟨values, hvalues, h⟩ := Option.bind_eq_some_iff.1 h
    split at h
    · obtain ⟨product, hproduct, h⟩ := Option.bind_eq_some_iff.1 h
      obtain ⟨url, hurl, h⟩ := Option.bind_eq_some_iff.1 h
      obtain ⟨label, hlabel, h⟩ := Option.bind_eq_some_iff.1 h
      obtain ⟨subtest, hsubtest, h⟩ := Option.bind_eq_some_iff.1 h
      obtain rfl := Option.some.inj h
      exact ⟨_, _, _, _, hvalues, hproduct, hurl, hlabel, hsubtest⟩
    · cases h
  · rintro ⟨product, url, label, subtest, hvalues, hproduct, hurl, hlabel, hsubtest⟩
    rw [ofJson?, hvalues]
    dsimp only [Option.bind_eq_bind, Option.bind_some]
    rw [hproduct, hurl, hlabel, hsubtest]
    rfl

theorem toJson_eq (l : MetadataLink) : l.toJson = .obj (fields ["product", "url", "label", "subtest"]
    [l.product.map Product.toJson, l.url.map .str, l.label.map .str, l.subtest.map .str]) := by
  obtain ⟨product, url, label, subtest⟩ := l
  cases product <;> cases url <;> cases label <;> cases subtest <;> rfl

theorem faithful : Faithful ofJson? toJson := by
  intro j l h
  obtain ⟨_, _, _, _, -, hproduct, hurl, hlabel, hsubtest⟩ := ofJson?_eq_some_iff.1 h
  rw [toJson_eq]
  exact ofJson?_eq_some_iff.2 ⟨_, _, _, _, Json.record?_fields (by decide) rfl,
    Product.faithful.optional nofun hproduct, Json.faithful_string.optional nofun hurl,
    Json.faithful_string.optional nofun hlabel, Json.faithful_string.optional nofun hsubtest⟩

end MetadataLink

theorem MetadataTable.faithful : Faithful MetadataTable.ofJson? MetadataTable.toJson :=
  Json.faithful_mapping (Json.faithful_listOf MetadataLink.faithful)

/-! ## Options -/

namespace DiffFilter

theorem ofJson?_eq_some_iff {j : Json} {f : DiffFilter} : ofJson? j = some f ↔
    ∃ added deleted changed unchanged,
      j.record? ["added", "deleted", "changed", "unchanged"] =
        some [added, deleted, changed, unchanged] ∧
      orDefault standard.added bool? added = some f.added ∧
      orDefault standard.deleted bool? deleted = some f.deleted ∧
      orDefault standard.changed bool? changed = some f.changed ∧
      orDefault standard.unchanged bool? unchanged = some f.unchanged := by
  constructor
  · intro h
    obtain ⟨values, hvalues, h⟩ := Option.bind_eq_some_iff.1 h
    split at h
    · obtain ⟨added, hadded, h⟩ := Option.bind_eq_some_iff.1 h
      obtain ⟨deleted, hdeleted, h⟩ := Option.bind_eq_some_iff.1 h
      obtain ⟨changed, hchanged, h⟩ := Option.bind_eq_some_iff.1 h
      obtain ⟨unchanged, hunchanged, h⟩ := Option.bind_eq_some_iff.1 h
      obtain rfl := Option.some.inj h
      exact ⟨_, _, _, _, hvalues, hadded, hdeleted, hchanged, hunchanged⟩
    · cases h
  · rintro ⟨added, deleted, changed, unchanged, hvalues, hadded, hdeleted, hchanged, hunchanged⟩
    rw [ofJson?, hvalues]
    dsimp only [Option.bind_eq_bind, Option.bind_some]
    rw [hadded, hdeleted, hchanged, hunchanged]
    rfl

theorem toJson_eq (f : DiffFilter) : f.toJson = .obj (fields
    ["added", "deleted", "changed", "unchanged"]
    [some (.bool f.added), some (.bool f.deleted), some (.bool f.changed),
      some (.bool f.unchanged)]) := rfl

theorem ofJson?_toJson (f : DiffFilter) : ofJson? f.toJson = some f := by
  rw [toJson_eq]
  exact ofJson?_eq_some_iff.2 ⟨_, _, _, _, Json.record?_fields (by decide) rfl, rfl, rfl, rfl, rfl⟩

end DiffFilter

namespace RowOptions

theorem ofJson?_eq_some_iff {j : Json} {o : RowOptions} : ofJson? j = some o ↔
    ∃ includeSubtests interop ignoreHarness includeDiff diffFilter,
      j.record? ["include_subtests", "interop_format", "ignore_harness_result", "include_diff",
        "diff_filter"] = some [includeSubtests, interop, ignoreHarness, includeDiff, diffFilter] ∧
      orDefault false bool? includeSubtests = some o.includeSubtests ∧
      orDefault false bool? interop = some o.interop ∧
      orDefault false bool? ignoreHarness = some o.ignoreHarness ∧
      orDefault false bool? includeDiff = some o.includeDiff ∧
      orDefault .standard DiffFilter.ofJson? diffFilter = some o.diffFilter := by
  constructor
  · intro h
    obtain ⟨values, hvalues, h⟩ := Option.bind_eq_some_iff.1 h
    split at h
    · obtain ⟨includeSubtests, hincludeSubtests, h⟩ := Option.bind_eq_some_iff.1 h
      obtain ⟨interop, hinterop, h⟩ := Option.bind_eq_some_iff.1 h
      obtain ⟨ignoreHarness, hignoreHarness, h⟩ := Option.bind_eq_some_iff.1 h
      obtain ⟨includeDiff, hincludeDiff, h⟩ := Option.bind_eq_some_iff.1 h
      obtain ⟨diffFilter, hdiffFilter, h⟩ := Option.bind_eq_some_iff.1 h
      obtain rfl := Option.some.inj h
      exact ⟨_, _, _, _, _, hvalues, hincludeSubtests, hinterop, hignoreHarness, hincludeDiff,
        hdiffFilter⟩
    · cases h
  · rintro ⟨includeSubtests, interop, ignoreHarness, includeDiff, diffFilter, hvalues,
      hincludeSubtests, hinterop, hignoreHarness, hincludeDiff, hdiffFilter⟩
    rw [ofJson?, hvalues]
    dsimp only [Option.bind_eq_bind, Option.bind_some]
    rw [hincludeSubtests, hinterop, hignoreHarness, hincludeDiff, hdiffFilter]
    rfl

theorem toJson_eq (o : RowOptions) : o.toJson = .obj (fields
    ["include_subtests", "interop_format", "ignore_harness_result", "include_diff", "diff_filter"]
    [some (.bool o.includeSubtests), some (.bool o.interop), some (.bool o.ignoreHarness),
      some (.bool o.includeDiff), some o.diffFilter.toJson]) := rfl

theorem ofJson?_toJson (o : RowOptions) : ofJson? o.toJson = some o := by
  rw [toJson_eq]
  exact ofJson?_eq_some_iff.2 ⟨_, _, _, _, _, Json.record?_fields (by decide) rfl, rfl, rfl, rfl,
    rfl, DiffFilter.ofJson?_toJson _⟩

end RowOptions

/-! ## Whole documents -/

namespace Json

/-- A list of runs, a report, a metadata table or the options of rows that some document gives is
written as a document that gives it again. -/
theorem documents_survive :
    (∀ j runs, Run.listOfJson? j = some runs → Run.listOfJson? (Run.listToJson runs) = some runs) ∧
      (∀ j report, Report.ofJson? j = some report → Report.ofJson? report.toJson = some report) ∧
      (∀ j table, MetadataTable.ofJson? j = some table →
        MetadataTable.ofJson? table.toJson = some table) ∧
      ∀ j options, RowOptions.ofJson? j = some options →
        RowOptions.ofJson? options.toJson = some options :=
  ⟨fun _ _ hruns => faithful_listOf Run.faithful hruns, fun _ _ hreport => Report.faithful hreport,
    fun _ _ htable => MetadataTable.faithful htable,
    fun _ options _ => RowOptions.ofJson?_toJson options⟩

/-- A run in a leap second of another zone and one given as an array, a report with a status that is
not known and with members of its own, a table with a path given twice, and options by default. -/
theorem documents_survive_rewritten :
    let runs : Json := .arr [.obj [("labels", .arr [.str "stable"]), ("id", .int 7),
      ("time_start", .str "2024-3-1 04:59:60.5+05:00")], .arr [.int 8, .str "chrome"]]
    let report : Json := .obj [("run_info", .obj [("os", .str "linux"), ("cpu", .null)]),
      ("results", .arr [.obj [("test", .str "/a.html"), ("status", .str "SLOW"), ("message", .null),
        ("subtests", .arr [.arr [.str "one", .str "PASS", .str "done"]])]])]
    let table : Json := .obj [("/b", .arr []), ("/a", .arr []),
      ("/b", .arr [.obj [("product", .str "Chrome-1.2[b,a,b]@0123456789abcdef"), ("url", .str "u")]])]
    let runs' : List Run := [
      { Run.blank with id := 7, labels := ["stable"], timeStart := ⟨1709251199, 1500000000⟩ },
      { Run.blank with id := 8, browserName := "chrome" }]
    let report' : Report := ⟨[⟨"/a.html", .unknown, none, [⟨"one", .pass, some "done"⟩]⟩],
      .obj [("cpu", .null), ("os", .str "linux")]⟩
    let chrome : Product := ⟨"chrome", some "1.2", none, none, ["a", "b"], some "0123456789"⟩
    let options : RowOptions := ⟨false, false, false, false, .standard⟩
    Run.listOfJson? runs = some runs' ∧ Run.listOfJson? (Run.listToJson runs') = some runs' ∧
      Report.ofJson? report = some report' ∧ Report.ofJson? report'.toJson = some report' ∧
      (∃ table', MetadataTable.ofJson? table = some table' ∧
        table'.entries = [("/a", []), ("/b", [⟨some chrome, some "u", none, none⟩])] ∧
        MetadataTable.ofJson? table'.toJson = some table') ∧
      RowOptions.ofJson? (.obj []) = some options ∧
      RowOptions.ofJson? options.toJson = some options := by
  intro runs report table runs' report' chrome options
  have hruns : Run.listOfJson? runs = some runs' := by decide +kernel
  have hreport : Report.ofJson? report = some report' := rfl
  have hentries : (MetadataTable.ofJson? table).map Table.entries =
      some [("/a", []), ("/b", [⟨some chrome, some "u", none, none⟩])] := by decide +kernel
  obtain ⟨table', htable, hread⟩ := Option.map_eq_some_iff.1 hentries
  obtain ⟨hwrittenRuns, hwrittenReport, hwrittenTable, hwrittenOptions⟩ := documents_survive
  exact ⟨hruns, hwrittenRuns _ _ hruns, hreport, hwrittenReport _ _ hreport,
    ⟨table', htable, hread, hwrittenTable _ _ htable⟩, rfl, hwrittenOptions (.obj []) _ rfl⟩

end Json

end ResultSearch
