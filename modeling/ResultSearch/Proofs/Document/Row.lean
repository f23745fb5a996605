import ResultSearch.Document.Row
import ResultSearch.Proofs.Document.Values
import ResultSearch.Proofs.Index.Flat

/-!
# Rows written and read

A row without subtests is written without the member that names them, and a row has to give that
member when it is read. So a row comes back just if it names a subtest: subtests are wanted, and some
match of its test is one.

* `Row.ofJson?_toJson`: what becomes of any row.
* `Plan.rows_read_back`: what becomes of the rows of a plan.
* `Plan.row_lost_without_subtests`: a row that is lost.
-/

namespace ResultSearch

open Json (fields record? fullRecord? orDefault optional? string? listOf?)

/-! ## Numbers of 32 bits -/

theorem Json.word32?_int (n : UInt32) : Json.word32? (.int n.toNat) = some n := by
  have hlt : n.toNat < 4294967296 := n.toNat_lt
  rw [word32?, intIn?, if_pos ⟨by omega, by omega⟩, Option.map_some, Int.toNat_natCast,
    UInt32.ofNat_toNat]

theorem Json.int32?_int (n : Int32) : Json.int32? (.int n.toInt) = some n := by
  have hlo := n.le_toInt
  have hhi := n.toInt_lt
  rw [int32?, intIn?, if_pos ⟨by omega, by omega⟩, Option.map_some, Int32.ofInt_toInt]

/-! ## Any row -/

theorem RunSummary.toJson_eq (s : RunSummary) : s.toJson = .obj (fields ["passes", "total"]
    [some (.int s.passes.toNat), some (.int s.total.toNat)]) := rfl

theorem RunSummary.ofJson?_toJson (s : RunSummary) : ofJson? s.toJson = some s := by
  rw [toJson_eq, ofJson?, Json.fullRecord?_fields (by decide) rfl]
  dsimp only [Option.bind_eq_bind, Option.bind_some, Json.required]
  rw [Json.word32?_int, Json.word32?_int]
  rfl

theorem RowDiff.ofJson?_toJson (d : RowDiff) : ofJson? d.toJson = some d := by
  have hlist : Json.listOf? Json.int32? d.toJson =
      some [d.newlyPassing, d.regressions, d.totalDelta] :=
    Json.mapM_map_of_forall (l := [d.newlyPassing, d.regressions, d.totalDelta])
      fun n _ => Json.int32?_int n
  rw [ofJson?, hlist]
  rfl

namespace Row

theorem toJson_eq (r : Row) : r.toJson = .obj (fields
    ["test", "legacy_status", "interop", "subtests", "diff"]
    [some (.str r.test), some (.arr (r.perRun.map RunSummary.toJson)),
      r.interop.map fun h => .arr (h.map fun n => .int n.toNat),
      if r.subtests = [] then none else some (.arr (r.subtests.map .str)),
      r.diff.map RowDiff.toJson]) := by
  obtain ⟨test, perRun, interop, subtests, diff⟩ := r
  cases interop <;> cases subtests <;> cases diff <;> rfl

/-- A row is read again as it was, unless it has no subtests: then it is not read at all. -/
theorem ofJson?_toJson (r : Row) :
    ofJson? r.toJson = if r.subtests = [] then none else some r := by
  have hperRun : listOf? RunSummary.ofJson? (.arr (r.perRun.map RunSummary.toJson)) =
      some r.perRun := Json.mapM_map_of_forall fun s _ => RunSummary.ofJson?_toJson s
  have hinterop : orDefault none (optional? (listOf? Json.word32?))
      (r.interop.map fun h => .arr (h.map fun n => .int n.toNat)) = some r.interop :=
    Json.orDefault_optional (fun h _ => Json.mapM_map_of_forall fun n _ => Json.word32?_int n) nofun
  have hsubtests : listOf? string? (.arr (r.subtests.map .str)) = some r.subtests :=
    Json.mapM_map_of_forall fun _ _ => rfl
  have hdiff : orDefault none (optional? RowDiff.ofJson?) (r.diff.map RowDiff.toJson) =
      some r.diff := Json.orDefault_optional (fun d _ => RowDiff.ofJson?_toJson d) nofun
  rw [toJson_eq, ofJson?, Json.fullRecord?_fields (by decide) rfl]
  dsimp only [Option.bind_eq_bind, Option.bind_some, Json.required, string?]
  rw [hperRun, hinterop]
  dsimp only [Option.bind_some]
  by_cases hnone : r.subtests = []
  · rw [if_pos hnone, if_pos hnone]
    rfl
  · rw [if_neg hnone, if_neg hnone]
    dsimp only
    rw [hsubtests, hdiff]
    rfl

/-- A row of matches names subtests just if these are wanted and some match is one. -/
theorem subtests_ofMatches_eq_nil {options : RowOptions} {columns : Nat} {test : String}
    {group : List Match} : (ofMatches options columns test group).subtests = [] ↔
      (options.includeSubtests && group.any fun m => m.subtest.isSome) = false := by
  have hsubtests : (ofMatches options columns test group).subtests =
      if options.includeSubtests then
        (group.filterMap Match.subtest).mergeSort fun a b => decide (a ≤ b)
      else [] := rfl
  rw [hsubtests]
  split
  · next hwanted =>
    rw [← List.length_eq_zero_iff, List.length_mergeSort, List.length_eq_zero_iff,
      List.filterMap_eq_nil_iff]
    simp [hwanted]
  · next hunwanted => simp [hunwanted]

end Row

/-! ## The rows of a plan -/

namespace Plan

/-- The entries of a shard's registry that its filter accepts and that have a test with some hash. -/
def matchesUnder (s : ShardFilter × Registry) (hash : UInt64) : List (Fingerprint × TestName) :=
  (s.2.entries.filter fun e => s.1.filter.accepts e.1 e.2).filter fun e => e.1.test = hash

/-- Every row of a plan is that of the matches under some hash. It is written and read back if
subtests are wanted and one of the matches is a subtest, and else what is written cannot be read. -/
theorem rows_read_back {p : Plan} {registries : List Registry} {columns : List RunId}
    {options : RowOptions} {rows : List Row}
    (h : p.execute registries columns options = .ok rows) :
    ∀ r ∈ rows, ∃ s ∈ p.shards.zip registries, ∃ hash,
      (matchesUnder s hash).head?.map (fun e => e.2.test) = some r.test ∧
        Row.ofJson? r.toJson =
          if options.includeSubtests && (matchesUnder s hash).any fun e => e.2.subtest.isSome then
            some r
          else none := by
  intro r hr
  obtain ⟨s, hs, results, hrow⟩ := exists_of_mem_execute h hr
  obtain ⟨hash, e, rest, hgroup, rfl⟩ := Aggregation.exists_of_mem_finish hrow
  have hgroup : matchesUnder s hash = e :: rest := hgroup
  refine ⟨s, hs, hash, ?_, ?_⟩
  · rw [hgroup]
    rfl
  · have hany : ((e :: rest).map (Aggregation.toMatch results)).any (fun m => m.subtest.isSome) =
        (e :: rest).any fun e => e.2.subtest.isSome := List.any_map
    rw [Row.ofJson?_toJson, hgroup, if_congr Row.subtests_ofMatches_eq_nil rfl rfl, hany]
    cases options.includeSubtests && (e :: rest).any fun e => e.2.subtest.isSome <;> rfl

/-- A row that names the subtest that was found is read back. -/
theorem row_read_back_with_subtest :
    let report : Report := ⟨[⟨"/a.html", .ok, none, [⟨"one", .pass, none⟩]⟩], .null⟩
    let query : BoundQuery := .status 1 (.is .pass)
    let options : RowOptions := { RowOptions.standard with includeSubtests := true }
    let row : Row := ⟨"/a.html", [⟨1, 1⟩], none, ["one"], none⟩
    ∃ c p, Chronicle.replay Hash.hashText 1 [.ingest { Run.blank with id := 1 } (.ok report)] = .ok c ∧
      c.index.bind [1] (some query) = .ok p ∧ c.index.execute p [1] options = .ok [row] ∧
      (∃ s ∈ p.shards.zip c.index.registries, ∃ hash,
        (matchesUnder s hash).head?.map (fun e => e.2.test) = some row.test ∧
          Row.ofJson? row.toJson =
            if options.includeSubtests && (matchesUnder s hash).any fun e => e.2.subtest.isSome then
              some row
            else none) ∧
      Row.ofJson? row.toJson = some row := by
  intro report query options row
  let c : Chronicle := (Chronicle.start Hash.hashText 1).afterAll
    [.ingest { Run.blank with id := 1 } (.ok report)]
  have hreplay : Chronicle.replay Hash.hashText 1 _ = .ok c :=
    Chronicle.replay_eq_ok_iff.2 ⟨by decide, rfl⟩
  have hexecute : ((c.index.bind [1] (some query)).bind fun p => c.index.execute p [1] options) =
      .ok [row] := by decide +kernel
  obtain ⟨p, hbind, hexecute⟩ := Outcome.bind_eq_ok_iff.1 hexecute
  exact ⟨c, p, hreplay, hbind, hexecute, rows_read_back hexecute row List.mem_cons_self, by
    decide +kernel⟩

/-- The same search without subtests answers a row that is written and then cannot be read. -/
theorem row_lost_without_subtests :
    let report : Report := ⟨[⟨"/a.html", .ok, none, [⟨"one", .pass, none⟩]⟩], .null⟩
    let query : BoundQuery := .status 1 (.is .pass)
    let row : Row := ⟨"/a.html", [⟨1, 1⟩], none, [], none⟩
    ∃ c p, Chronicle.replay Hash.hashText 1 [.ingest { Run.blank with id := 1 } (.ok report)] = .ok c ∧
      c.index.bind [1] (some query) = .ok p ∧ c.index.execute p [1] .standard = .ok [row] ∧
      row.toJson = .obj [("test", .str "/a.html"),
        ("legacy_status", .arr [.obj [("passes", .int 1), ("total", .int 1)]])] ∧
      Row.ofJson? row.toJson = none := by
  intro report query row
  let c : Chronicle := (Chronicle.start Hash.hashText 1).afterAll
    [.ingest { Run.blank with id := 1 } (.ok report)]
  have hreplay : Chronicle.replay Hash.hashText 1 _ = .ok c :=
    Chronicle.replay_eq_ok_iff.2 ⟨by decide, rfl⟩
  have hexecute : ((c.index.bind [1] (some query)).bind fun p => c.index.execute p [1] .standard) =
      .ok [row] := by decide +kernel
  obtain ⟨p, hbind, hexecute⟩ := Outcome.bind_eq_ok_iff.1 hexecute
  exact ⟨c, p, hreplay, hbind, hexecute, rfl, rfl⟩

end Plan

end ResultSearch
