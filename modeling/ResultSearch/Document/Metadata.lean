import ResultSearch.Document.Report
import ResultSearch.Document.Run
import ResultSearch.Json.Parser
import ResultSearch.Metadata.Basic

/-!
# Metadata as documents

A metadata table is a mapping from paths to lists of links. Web features come as a manifest, which
lists the tests of each feature and says which version of the format it has.

* `WebFeatures.ofManifest`: the features of the tests of a manifest.
-/

namespace ResultSearch

namespace MetadataLink

/-- Read a link, all of whose fields may be left out. -/
def ofJson? (j : Json) : Option MetadataLink := do
  let [product, url, label, subtest] ← j.record? ["product", "url", "label", "subtest"] | none
  return {
    product := ← Json.orDefault none (Json.optional? Product.ofJson?) product
    url := ← Json.orDefault none (Json.optional? Json.string?) url
    label := ← Json.orDefault none (Json.optional? Json.string?) label
    subtest := ← Json.orDefault none (Json.optional? Json.string?) subtest }

/-- Write a link without the fields that it does not have. -/
def toJson (l : MetadataLink) : Json :=
  .obj (Json.memberOf "product" Product.toJson l.product ++ Json.memberOf "url" .str l.url ++
    Json.memberOf "label" .str l.label ++ Json.memberOf "subtest" .str l.subtest)

end MetadataLink

namespace MetadataTable

/-- Read the links of paths, which come in order whatever order they have in the document. -/
def ofJson? (j : Json) : Option MetadataTable :=
  (Json.mapping? (Json.listOf? MetadataLink.ofJson?) j).map (Table.ofListSorted Json.keyBefore)

/-- Write the links of paths in their order. -/
def toJson (t : MetadataTable) : Json :=
  .obj (t.entries.map fun e => (e.1, .arr (e.2.map MetadataLink.toJson)))

end MetadataTable

namespace WebFeatures

/-- The version of a manifest and the tests of its features. -/
def manifest? (j : Json) : Option (Int × List (String × List String)) := do
  let [version, data] ← j.record? ["version", "data"] | none
  let version ← Json.required (Json.intIn? 0 0xFFFFFFFF) version
  let data ← Json.orDefault [] (Json.mapping? (Json.listOf? Json.string?)) data
  return (version, (Table.ofList data).entries)

/-- The features of the tests of a manifest; there is one version of the format. -/
def ofManifest (j : Json) : Except Error WebFeatures :=
  match manifest? j with
  | none => .error .document
  | some (version, data) =>
    if version = 1 then .ok (invert data)
    else .error (.payload ("unknown web features manifest version " ++ toString version))

/-- The features of the tests of a manifest given as bytes. -/
def parse (bytes : List UInt8) : Except Error WebFeatures :=
  match Json.parseBytes bytes with
  | some j => ofManifest j
  | none => .error .document

/-- Features written by test. -/
def ofJson? (j : Json) : Option WebFeatures :=
  (Json.mapping? (Json.listOf? Json.string?) j).map fun ms =>
    Table.ofList (ms.map fun m => (m.1, m.2.eraseDups))

/-- The features of tests, those of each test in order. -/
def toJson (data : WebFeatures) : Json :=
  .obj (data.entries.map fun e =>
    (e.1, .arr ((e.2.mergeSort fun a b => decide (a ≤ b)).map .str)))

end WebFeatures

end ResultSearch
