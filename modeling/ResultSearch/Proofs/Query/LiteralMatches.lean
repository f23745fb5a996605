import ResultSearch.Proofs.Metadata
import ResultSearch.Proofs.Query.Folding
import ResultSearch.Proofs.Text.LowerCase

/-!
# Literal matches

Patterns, paths and stars are compared in small letters, so that capitals and small letters are
alike. What matches literally should match then too. It does unless a capital sigma of the pattern is
final in the pattern and not in the text, or the other way around: `ΑΣ` is not found in `ΑΣΑ`.

* `settledWithin_iff_contains`, `settledAtStart_iff_startsWith`: which texts are found wherever they
  stand, or wherever a text begins with them.
* `covers_star_iff`: the tests that a star covers.
* `literal_matches_kept_iff`: the patterns for which no literal match is lost.
-/

namespace ResultSearch

namespace Text

variable {part : String}

theorem contains_lower_iff {whole : String} : contains (lower whole) (lower part) = true ↔
    lowerFrom [] part.toList <:+: lowerFrom [] whole.toList := by
  rw [contains, occursIn_iff, lower, lower, String.toList_ofList, String.toList_ofList]

theorem startsWith_lower_iff {whole : String} : startsWith (lower whole) (lower part) = true ↔
    lowerFrom [] part.toList <+: lowerFrom [] whole.toList := by
  rw [startsWith, List.isPrefixOf_iff_prefix, lower, lower, String.toList_ofList,
    String.toList_ofList]

theorem settledWithin_iff_contains : SettledWithin part.toList ↔
    ∀ whole : String, part.toList <:+: whole.toList →
      contains (lower whole) (lower part) = true := by
  rw [settledWithin_iff]
  refine ⟨fun h whole hwhole => contains_lower_iff.2 (h _ hwhole), fun h whole hwhole => ?_⟩
  have hfound := contains_lower_iff.1 (h (String.ofList whole) (by rwa [String.toList_ofList]))
  rwa [String.toList_ofList] at hfound

theorem settledAtStart_iff_startsWith : SettledAtStart part.toList ↔
    ∀ whole : String, part.toList <+: whole.toList →
      startsWith (lower whole) (lower part) = true := by
  rw [settledAtStart_iff]
  refine ⟨fun h whole hwhole => startsWith_lower_iff.2 (h _ hwhole), fun h whole hwhole => ?_⟩
  have hfound := startsWith_lower_iff.1 (h (String.ofList whole) (by rwa [String.toList_ofList]))
  rwa [String.toList_ofList] at hfound

/-- A star ends a word as the end of the text does. -/
theorem lowerFrom_append_star (cs : List Char) :
    lowerFrom [] (cs ++ ['*']) = lowerFrom [] cs ++ ['*'] := by
  have hstar : startsCased ['*'] = false ∧ ∀ before, lowerFrom before ['*'] = ['*'] :=
    ⟨by decide +kernel, fun _ => rfl⟩
  obtain ⟨lowered, hlowered, hcs⟩ := lowerFrom_append_congr cs [] [] ['*'] [] fun context _ => by
    rw [isFinal, isFinal, List.append_nil context.2]
    cases hdecisive : decisive context.2 with
    | true => rw [startsCased_append_of_decisive hdecisive]
    | false =>
      rw [startsCased_append_of_not_decisive hdecisive, hstar.1,
        startsCased_of_not_decisive hdecisive]
  rw [List.append_nil, lowerFrom, List.append_nil] at hcs
  rw [hlowered, hcs, hstar.2]

end Text

namespace PathValues

/-- A star covers what begins with the text before it, in small letters. -/
theorem covers_star_iff {stem test : String} : covers (stem ++ "*") test = true ↔
    Text.startsWith (Text.lower test) (Text.lower stem) = true := by
  have hlower : (Text.lower (stem ++ "*")).toList = (Text.lower stem).toList ++ ['*'] := by
    rw [Text.lower, Text.lower, String.toList_ofList, String.toList_ofList, String.toList_append]
    exact Text.lowerFrom_append_star stem.toList
  apply covers_of_unstar?_eq_some
  rw [unstar?, hlower, Text.dropLast?_concat, Option.map_some, String.ofList_toList]

/-- What was attached to a star is a value of every test that begins with the text before it. -/
theorem mem_valuesFor_star_iff {stem : String} : Text.SettledAtStart stem.toList ↔
    ∀ attached value (test : String), (stem ++ "*", value) ∈ attached →
      stem.toList <+: test.toList → value ∈ (ofList attached).valuesFor test := by
  rw [Text.settledAtStart_iff_startsWith]
  constructor
  · intro h attached value test hattached htest
    exact mem_valuesFor_ofList.2 ⟨_, hattached, covers_star_iff.2 (h test htest)⟩
  · intro h whole hwhole
    obtain ⟨path, hpath, hcovers⟩ := mem_valuesFor_ofList.1
      (h [(stem ++ "*", "")] "" whole List.mem_cons_self hwhole)
    obtain ⟨rfl, -⟩ := Prod.mk.inj (List.mem_singleton.1 hpath)
    exact covers_star_iff.1 hcovers

end PathValues

namespace BoundQuery

variable {pattern : String}

theorem testName_kept_iff : Text.SettledWithin pattern.toList ↔
    ∀ results columns f name, pattern.toList <:+: name.test.toList →
      verdict results columns f name (.testName pattern) = .ok true := by
  rw [Text.settledWithin_iff_contains]
  constructor
  · intro h results columns f name hname
    exact congrArg Except.ok (h name.test hname)
  · intro h whole hwhole
    exact Except.ok.inj (h Table.empty [] ⟨0, 0⟩ ⟨whole, none⟩ hwhole)

theorem verdict_subtestName (results columns f name) :
    verdict results columns f name (.subtestName pattern) =
      .ok (name.subtest.any fun s => Text.contains (Text.lower s) (Text.lower pattern)) :=
  rfl

theorem subtestName_kept_iff : Text.SettledWithin pattern.toList ↔
    ∀ results columns f name, ∀ subtest ∈ name.subtest, pattern.toList <:+: subtest.toList →
      verdict results columns f name (.subtestName pattern) = .ok true := by
  rw [Text.settledWithin_iff_contains]
  constructor
  · rintro h results columns f ⟨test, name⟩ subtest hname hsubtest
    obtain rfl : name = some subtest := hname
    rw [verdict_subtestName, Option.any_some, h subtest hsubtest]
  · intro h whole hwhole
    have hfound := h Table.empty [] ⟨0, 0⟩ ⟨"", some whole⟩ whole rfl hwhole
    rw [verdict_subtestName, Option.any_some] at hfound
    exact Except.ok.inj hfound

theorem testPath_kept_iff : Text.SettledAtStart pattern.toList ↔
    ∀ results columns f name, pattern.toList <+: name.test.toList →
      verdict results columns f name (.testPath pattern) = .ok true := by
  rw [Text.settledAtStart_iff_startsWith]
  constructor
  · intro h results columns f name hname
    exact congrArg Except.ok (h name.test hname)
  · intro h whole hwhole
    exact Except.ok.inj (h Table.empty [] ⟨0, 0⟩ ⟨whole, none⟩ hwhole)

theorem link_kept_iff : Text.SettledWithin pattern.toList ↔
    ∀ results columns f name (metadata : PathValues), ∀ url ∈ metadata.valuesFor name.test,
      pattern.toList <:+: url.toList →
        verdict results columns f name (.link pattern metadata) = .ok true := by
  rw [Text.settledWithin_iff_contains]
  constructor
  · intro h results columns f name metadata url hurl hpattern
    exact congrArg Except.ok (List.any_eq_true.2 ⟨url, hurl, h url hpattern⟩)
  · intro h whole hwhole
    -- The whole is the one link of a test without a name.
    have hlinked : whole ∈ (PathValues.ofList [("", whole)]).valuesFor "" :=
      PathValues.mem_valuesFor_ofList.2 ⟨"", List.mem_cons_self, by simp [PathValues.covers]⟩
    have hany := Except.ok.inj (h Table.empty [] ⟨0, 0⟩ ⟨"", none⟩ _ whole hlinked hwhole)
    obtain ⟨url, hurl, hfound⟩ := List.any_eq_true.1 hany
    obtain ⟨path, hpath, -⟩ := PathValues.mem_valuesFor_ofList.1 hurl
    obtain ⟨-, rfl⟩ := Prod.mk.inj (List.mem_singleton.1 hpath)
    exact hfound

/-- A pattern finds every name and every link in which it stands, exactly if its sigmas are settled
wherever it stands; a path, and a star after it, find all that begins with it, exactly if its sigmas
are settled at the beginning. So only patterns with a capital sigma can lose a literal match. -/
theorem literal_matches_kept_iff (pattern : String) :
    (Text.SettledWithin pattern.toList ↔ ∀ results columns f name,
      pattern.toList <:+: name.test.toList →
        verdict results columns f name (.testName pattern) = .ok true) ∧
    (Text.SettledWithin pattern.toList ↔ ∀ results columns f name, ∀ subtest ∈ name.subtest,
      pattern.toList <:+: subtest.toList →
        verdict results columns f name (.subtestName pattern) = .ok true) ∧
    (Text.SettledAtStart pattern.toList ↔ ∀ results columns f name,
      pattern.toList <+: name.test.toList →
        verdict results columns f name (.testPath pattern) = .ok true) ∧
    (Text.SettledWithin pattern.toList ↔ ∀ results columns f name (metadata : PathValues),
      ∀ url ∈ metadata.valuesFor name.test, pattern.toList <:+: url.toList →
        verdict results columns f name (.link pattern metadata) = .ok true) ∧
    (Text.SettledAtStart pattern.toList ↔ ∀ attached value (test : String),
      (pattern ++ "*", value) ∈ attached → pattern.toList <+: test.toList →
        value ∈ (PathValues.ofList attached).valuesFor test) ∧
    (Text.sigma ∉ pattern.toList →
      Text.SettledWithin pattern.toList ∧ Text.SettledAtStart pattern.toList) :=
  ⟨testName_kept_iff, subtestName_kept_iff, testPath_kept_iff, link_kept_iff,
    PathValues.mem_valuesFor_star_iff, fun h =>
      ⟨Text.settledWithin_of_no_sigma h, (Text.settledWithin_of_no_sigma h).atStart⟩⟩

/-- A sigma between letters is settled: such a pattern is found in a longer word, and before a star
it covers it. -/
theorem literal_matches_kept_of_inner_sigma :
    Text.SettledWithin "ΑΣΑ".toList ∧ Text.SettledAtStart "ΑΣΑ".toList ∧
      verdict Table.empty [] ⟨7, 0⟩ ⟨"/ΑΑΣΑΣ.html", none⟩ (.testName "ΑΣΑ") = .ok true ∧
      "v" ∈ (PathValues.ofList [("ΑΣΑ" ++ "*", "v")]).valuesFor "ΑΣΑΣ" := by
  have hwithin : Text.SettledWithin "ΑΣΑ".toList := by decide +kernel
  have hstart : Text.SettledAtStart "ΑΣΑ".toList := by decide +kernel
  obtain ⟨hname, -, -, -, hstar, -⟩ := literal_matches_kept_iff "ΑΣΑ"
  refine ⟨hwithin, hstart, hname.1 hwithin _ _ _ _ ⟨"/Α".toList, "Σ.html".toList, ?_⟩, ?_⟩
  · decide +kernel
  · exact hstar.1 hstart _ _ _ List.mem_cons_self ⟨['Σ'], by decide +kernel⟩

/-- The capital sigma at the end of the pattern is final, the one in the middle of the names is not:
what stands there literally is not found. -/
theorem literal_matches_lost_by_final_sigma :
    let name : TestName := ⟨"ΑΣΑ", some "ΑΣΑ"⟩
    let links := PathValues.ofList [("ΑΣΑ", "ΑΣΑ")]
    "ΑΣ".toList <+: "ΑΣΑ".toList ∧ links.valuesFor name.test = ["ΑΣΑ"] ∧
      verdict Table.empty [] ⟨7, 8⟩ name (.testName "ΑΣ") = .ok false ∧
      verdict Table.empty [] ⟨7, 8⟩ name (.subtestName "ΑΣ") = .ok false ∧
      verdict Table.empty [] ⟨7, 8⟩ name (.testPath "ΑΣ") = .ok false ∧
      verdict Table.empty [] ⟨7, 8⟩ name (.link "ΑΣ" links) = .ok false ∧
      "v" ∉ (PathValues.ofList [("ΑΣ" ++ "*", "v")]).valuesFor name.test ∧
      ¬∀ pattern : String, pattern.toList <:+: name.test.toList →
        verdict Table.empty [] ⟨7, 8⟩ name (.testName pattern) = .ok true := by
  intro name links
  have hbegins : "ΑΣ".toList <+: "ΑΣΑ".toList := by decide +kernel
  have hlost : verdict Table.empty [] ⟨7, 8⟩ name (.testName "ΑΣ") = .ok false := by decide +kernel
  refine ⟨hbegins, by decide +kernel, hlost, by decide +kernel, by decide +kernel,
    by decide +kernel, by decide +kernel, fun h => ?_⟩
  have hfound := h "ΑΣ" hbegins.isInfix
  rw [hlost] at hfound
  cases hfound

end BoundQuery

end ResultSearch
