import ResultSearch.Document.Metadata
import ResultSearch.Proofs.Document.Values
import ResultSearch.Proofs.Table

/-!
# The web features of a manifest

A manifest lists the tests of each feature; a search asks for the features of a test. Turning the
one into the other neither loses nor invents anything, whichever features tests share and in
whatever order the features come.

* `has_add_iff`: what adding one feature to one test adds.
* `has_invert_iff`: a test has a feature just if the manifest lists it there.
* `AllTagged`: every test that is known has a feature.
* `manifest?_document`: every manifest is read from some document.
* `inversion_exact`: all of this for a manifest that is read.
-/

namespace ResultSearch.WebFeatures

variable {data : WebFeatures} {manifest : List (String × List String)} {test feature : String}

/-! ## Adding a feature to a test -/

theorem has_iff : data.has test feature = true ↔ feature ∈ (Table.get? data test).getD [] :=
  List.contains_iff_mem

/-- Adding a feature to a test leaves all others what they have. -/
theorem has_add_iff {t f : String} : (data.add t f).has test feature = true ↔
    data.has test feature = true ∨ test = t ∧ feature = f := by
  rw [add]
  split
  · next hthere =>
    refine ⟨.inl, fun h => h.elim id ?_⟩
    rintro ⟨rfl, rfl⟩
    exact hthere
  · rw [has_iff, has_iff, Table.get?_set]
    by_cases htest : test = t
    · subst htest
      simp
    · simp [htest]

/-! ## Going through a manifest -/

/-- Whether a manifest lists a test under a feature. -/
def Lists (manifest : List (String × List String)) (feature test : String) : Prop :=
  ∃ tests, (feature, tests) ∈ manifest ∧ test ∈ tests

theorem has_addEach_iff {f : String} {tests : List String} :
    (tests.foldl (fun data t => data.add t f) data).has test feature = true ↔
      data.has test feature = true ∨ test ∈ tests ∧ feature = f := by
  induction tests generalizing data with
  | nil => simp
  | cons t rest ih =>
    rw [List.foldl_cons, ih, has_add_iff, or_assoc, List.mem_cons, or_and_right]

theorem lists_cons {m : String × List String} :
    Lists (m :: manifest) feature test ↔
      test ∈ m.2 ∧ feature = m.1 ∨ Lists manifest feature test := by
  constructor
  · rintro ⟨tests, hmem, htest⟩
    rcases List.mem_cons.1 hmem with rfl | hmem
    · exact .inl ⟨htest, rfl⟩
    · exact .inr ⟨tests, hmem, htest⟩
  · rintro (⟨htest, rfl⟩ | ⟨tests, hmem, htest⟩)
    · exact ⟨m.2, List.mem_cons_self, htest⟩
    · exact ⟨tests, List.mem_cons_of_mem _ hmem, htest⟩

/-- After a manifest was gone through, a test has what it had before and what the manifest lists. -/
theorem has_addManifest_iff :
    (manifest.foldl (fun data m => m.2.foldl (fun data t => data.add t m.1) data) data).has
        test feature = true ↔ data.has test feature = true ∨ Lists manifest feature test := by
  induction manifest generalizing data with
  | nil => simp [Lists]
  | cons m rest ih => rw [List.foldl_cons, ih, has_addEach_iff, or_assoc, lists_cons]

theorem has_invert_iff :
    (invert manifest).has test feature = true ↔ Lists manifest feature test := by
  have hempty : ¬ has Table.empty test feature = true := by simp [has_iff]
  rw [invert, has_addManifest_iff, or_iff_right hempty]

/-- The order of the features does not matter. -/
theorem lists_of_perm {order : List (String × List String)} (h : order.Perm manifest) :
    Lists order feature test ↔ Lists manifest feature test :=
  exists_congr fun _ => and_congr_left fun _ => h.mem_iff

/-! ## Tests without features -/

/-- Every test that is known has a feature. -/
def AllTagged (data : WebFeatures) : Prop :=
  ∀ test ∈ Table.keys data, ∃ feature, data.has test feature = true

theorem AllTagged.add (h : AllTagged data) (t f : String) : AllTagged (data.add t f) := by
  intro test htest
  by_cases ht : test = t
  · exact ⟨f, has_add_iff.2 (.inr ⟨ht, rfl⟩)⟩
  · have hknown : test ∈ Table.keys data := by
      rw [WebFeatures.add] at htest
      split at htest
      · exact htest
      · exact (Table.mem_keys_put.1 htest).resolve_left ht
    obtain ⟨feature, hfeature⟩ := h test hknown
    exact ⟨feature, has_add_iff.2 (.inl hfeature)⟩

theorem allTagged_invert (manifest : List (String × List String)) :
    AllTagged (invert manifest) := by
  refine List.foldlRecOn manifest _ (fun test htest => absurd htest List.not_mem_nil) ?_
  intro data hdata m _
  exact List.foldlRecOn m.2 _ hdata fun data hdata t _ => hdata.add t m.1

/-! ## Manifests that are read -/

theorem nodup_of_manifest? {j : Json} {version : Int} (h : manifest? j = some (version, manifest)) :
    (manifest.map Prod.fst).Nodup := by
  unfold manifest? at h
  obtain ⟨values, -, h⟩ := Option.bind_eq_some_iff.1 h
  split at h
  · obtain ⟨_, -, h⟩ := Option.bind_eq_some_iff.1 h
    obtain ⟨written, -, h⟩ := Option.bind_eq_some_iff.1 h
    obtain ⟨-, rfl⟩ := Prod.mk.inj (Option.some.inj h)
    exact (Table.ofList written).nodup
  · cases h

/-- A manifest as a document. -/
def document (version : Int) (manifest : List (String × List String)) : Json :=
  .obj [("version", .int version),
    ("data", .obj (manifest.map fun m => (m.1, .arr (m.2.map .str))))]

theorem manifest?_document {version : Int} (hversion : 0 ≤ version ∧ version ≤ 0xFFFFFFFF)
    (hmanifest : (manifest.map Prod.fst).Nodup) :
    manifest? (document version manifest) = some (version, manifest) := by
  have hdocument : document version manifest = .obj (Json.fields ["version", "data"]
      [some (.int version), some (.obj (manifest.map fun m => (m.1, .arr (m.2.map .str))))]) := rfl
  have hfeatures : Json.mapping? (Json.listOf? Json.string?)
      (.obj (manifest.map fun m => (m.1, .arr (m.2.map .str)))) = some manifest := by
    refine Json.mapM_map_of_forall (f := fun m : String × Json =>
      (Json.listOf? Json.string? m.2).map fun tests => (m.1, tests)) fun m _ => ?_
    have htests : Json.listOf? Json.string? (.arr (m.2.map .str)) = some m.2 :=
      Json.mapM_map_of_forall fun _ _ => rfl
    rw [htests]
    rfl
  have hbounds : Json.intIn? 0 0xFFFFFFFF (.int version) = some version := if_pos hversion
  rw [manifest?, hdocument, Json.record?_fields (by decide) rfl]
  dsimp only [Option.bind_eq_bind, Option.bind_some, Json.required, Json.orDefault]
  rw [hbounds, hfeatures]
  dsimp only [Option.bind_some]
  rw [Table.entries_ofList hmanifest]
  rfl

/-- A document that is a manifest, with each feature once, is refused unless its version is the
first one. Of a manifest of that version a test is said to have a feature just if the list of the
feature has the test, letter for letter, and no test is known that has none. It does not matter in
which order the features are gone through. -/
theorem inversion_exact {bytes : List UInt8} {j : Json} {version : Int}
    (hbytes : Json.parseBytes bytes = some j) (hj : manifest? j = some (version, manifest)) :
    (manifest.map Prod.fst).Nodup ∧
      (version ≠ 1 → parse bytes =
        .error (.payload ("unknown web features manifest version " ++ toString version))) ∧
      (version = 1 → parse bytes = .ok (invert manifest)) ∧
      ∀ order : List (String × List String), order.Perm manifest →
        (∀ test feature, (invert order).has test feature = true ↔
          ∃ tests, (feature, tests) ∈ manifest ∧ test ∈ tests) ∧
        ∀ test ∈ Table.keys (invert order), ∃ feature, (invert order).has test feature = true := by
  have hparse : parse bytes = ofManifest j := by rw [parse, hbytes]
  refine ⟨nodup_of_manifest? hj, fun hversion => ?_, fun hversion => ?_, fun order horder => ?_⟩
  · rw [hparse, ofManifest, hj]
    exact if_neg hversion
  · rw [hparse, ofManifest, hj]
    exact if_pos hversion
  · exact ⟨fun test feature => has_invert_iff.trans (lists_of_perm horder),
      allTagged_invert order⟩

/-- Two features share a test, one of them lists it twice, and a third one lists nothing. -/
theorem inversion_exact_of_shared_tests :
    let bytes := Text.Utf8.encode <|
      "\x7b\"data\": \x7b\"grid\": [\"/a\", \"/b\", \"/a\"], " ++
        "\"flex\": [\"/b\", \"/B\"], \"none\": []\x7d, \"version\": 1\x7d"
    let manifest := [("grid", ["/a", "/b", "/a"]), ("flex", ["/b", "/B"]), ("none", [])]
    ∃ j data, Json.parseBytes bytes = some j ∧ manifest? j = some (1, manifest) ∧
      parse bytes = .ok data ∧ Table.keys data = ["/a", "/b", "/B"] ∧
      (data.has "/b" "flex" = true ∧ data.has "/b" "grid" = true) ∧
      (data.has "/B" "grid" = false ∧ data.has "/a" "none" = false) ∧
      ∀ test feature, (invert manifest.reverse).has test feature = data.has test feature := by
  intro bytes manifest
  have hread : (Json.parseBytes bytes).bind manifest? = some (1, manifest) := by decide +kernel
  obtain ⟨j, hbytes, hmanifest⟩ := Option.bind_eq_some_iff.1 hread
  obtain ⟨-, -, hparse, horders⟩ := inversion_exact hbytes hmanifest
  refine ⟨j, _, hbytes, hmanifest, hparse rfl, by decide, by decide, by decide,
    fun test feature => ?_⟩
  rw [Bool.eq_iff_iff, (horders _ (List.reverse_perm manifest)).1, (horders _ (.refl _)).1]

end ResultSearch.WebFeatures
